import GChat.Archive.Inbox

/-!
# The flag for unsaved changes

What changes the archive sets a flag afterwards, and a save clears the flag after it wrote the
archive. Only the change and the write are made under the data lock, so that other tasks run
in between; `Flagged` keeps what is under way, the latest first.
-/

namespace GChat

namespace Archive

open Foundation

/-- What is under way: a change that is still to be marked, with the channels a reconciliation
has left and a note whether the archive was changed, or a save that is to clear the flag. -/
inductive Task where
  | marking (held changed : Bool) (rest : List JoinedChannel)
  | clearing
deriving DecidableEq

structure Flagged where
  inbox : Inbox
  dirty : Bool
  tasks : List Task

/-- The data lock is free. -/
def Flagged.free (s : Flagged) : Bool :=
  s.tasks.all fun t =>
    match t with
    | .marking held _ _ => !held
    | .clearing => true

/-- Whether an operation keeps the data lock until it has set the flag; the sections of a
reconciliation and a reload are no such operations. -/
def Op.held : Op → Option Bool
  | .rosterChanged .. => some true
  | .event _ => some false
  | .openScopedPm .. => some true
  | .recordChannelSend .. => some true
  | .recordScopedPmSend .. => some true
  | _ => none

/-- Whether an operation sets the flag: it does unless it was refused or found its
conversation open. -/
def Op.marks (data : ArchiveData) : Op → Bool
  | .openScopedPm channelId remote =>
      match Archive.openScopedPm data channelId remote with
      | .ok (id, _) => !data.scopedPms.any fun p => p.id == id
      | .error _ => false
  | .recordScopedPmSend record id out =>
      match Archive.recordScopedPmSend data record id out with
      | .ok _ => true
      | .error _ => false
  | _ => true

/-- Save what is in memory, with the delivery in the slot if there is one. -/
def Inbox.checkpoint (s : Inbox) (outcome : SaveOutcome) : Inbox × Except String Unit :=
  match s.mode with
  | .archive => s.save s.memory outcome
  | .embedded => s.sinkSave outcome

/-- Whether two archives differ in their stored form. -/
def differ (data data' : ArchiveData) : Bool := decide (data.stored ≠ data'.stored)

inductive FlagStep where
  | change (op : Op)
  | dropLost (joined : List JoinedChannel)
  | merge (i : ℕ) (roster : List RosterMember) (now : ℕ)
  | lose (i : ℕ)
  | mark (i : ℕ)
  | write (outcome : SaveOutcome)
  | clear (i : ℕ)
  | deliver (e : ClientEvent) (outcome : SaveOutcome)
  | runtimeSaved (outcome : SaveOutcome)
  | runtimeSave (outcome : SaveOutcome)
  | commit (accepted : Bool)
  | restart

/-- The archive was changed in a section; the task that did it comes first. -/
def Flagged.changed (s : Flagged) (data : ArchiveData) (held changed : Bool)
    (rest : List JoinedChannel) (tasks : List Task) : Flagged :=
  { s with
    inbox := { s.inbox with memory := data }
    tasks := .marking held (changed || differ s.inbox.memory data) rest :: tasks }

def Flagged.step (s : Flagged) : FlagStep → Flagged
  | .change op =>
      match op.held with
      | none => s
      | some held =>
          if s.free && op.marks s.inbox.memory then
            s.changed (op.apply s.inbox.memory) held false [] s.tasks
          else s
  | .dropLost joined =>
      if s.free then
        s.changed (Archive.dropLost s.inbox.memory (joined.map (·.id))) false false joined s.tasks
      else s
  | .merge i roster now =>
      match s.tasks[i]? with
      | some (.marking held changed (joined :: rest)) =>
          if s.free then
            s.changed (mergeChannel s.inbox.memory joined roster now) held changed rest
              (s.tasks.eraseIdx i)
          else s
      | _ => s
  | .lose i =>
      match s.tasks[i]? with
      | some (.marking _ _ (_ :: _)) => { s with tasks := s.tasks.eraseIdx i }
      | _ => s
  | .mark i =>
      match s.tasks[i]? with
      | some (.marking _ _ []) => { s with dirty := true, tasks := s.tasks.eraseIdx i }
      | _ => s
  | .write outcome =>
      if s.free then
        match s.inbox.checkpoint outcome with
        | (inbox, .ok ()) => { s with inbox := inbox, tasks := .clearing :: s.tasks }
        | (inbox, .error _) => { s with inbox := inbox }
      else s
  | .clear i =>
      match s.tasks[i]? with
      | some .clearing => { s with dirty := false, tasks := s.tasks.eraseIdx i }
      | _ => s
  | .deliver e outcome => if s.free then { s with inbox := s.inbox.step (.deliver e outcome) } else s
  | .runtimeSaved outcome =>
      if s.free then { s with inbox := s.inbox.step (.runtimeSaved outcome) } else s
  | .runtimeSave outcome =>
      match s.inbox.mode with
      | .archive => s
      | .embedded => if s.free then { s with inbox := (s.inbox.sinkSave outcome).1 } else s
  | .commit accepted => { s with inbox := s.inbox.step (.commit accepted) }
  | .restart => { inbox := s.inbox.step .crash, dirty := false, tasks := [] }

/-- A client that opened its archive. -/
def Flagged.opened (mode : Persistence) (data : ArchiveData) : Flagged :=
  ⟨Inbox.opened mode data, false, []⟩

def flagMachine (mode : Persistence) (data : ArchiveData) : Machine Flagged FlagStep :=
  Machine.ofFun (Flagged.opened mode data) Flagged.step

/-- The file holds what is in memory. -/
def Inbox.Saved (s : Inbox) : Prop := s.memory.stored = s.disk.stored

/-- A save does not fail after it replaced the file by anything but what is in memory. -/
def Inbox.keeps (s : Inbox) (candidate : Except String ArchiveData) : SaveOutcome → Bool
  | .failedWritten _ =>
      match candidate with
      | .ok data => !differ s.memory data
      | .error _ => true
  | _ => true

/-- No change is made and marked between the write of a save and its clearing of the flag, no
reconciliation that changed the archive is given up, and no save fails after it replaced the
file by a candidate that is new. -/
def Flagged.orderly (s : Flagged) : FlagStep → Bool
  | .mark i =>
      match s.tasks[i]? with
      | some (.marking _ true _) => !(s.tasks.drop (i + 1)).contains .clearing
      | _ => true
  | .lose i =>
      match s.tasks[i]? with
      | some (.marking _ true _) => false
      | _ => true
  | .write outcome =>
      match s.inbox.mode with
      | .archive => true
      | .embedded => s.inbox.keeps s.inbox.sinkCandidate outcome
  | .deliver e outcome =>
      match s.inbox.mode with
      | .archive => s.inbox.keeps (archiveCandidate s.inbox.memory e) outcome
      | .embedded => true
  | .runtimeSaved outcome => s.inbox.keeps s.inbox.sinkCandidate outcome
  | .runtimeSave outcome => s.inbox.keeps s.inbox.sinkCandidate outcome
  | _ => true

/-! ### The order of what is under way -/

/-- The task will set the flag for a change. -/
def Task.owes : Task → Bool
  | .marking _ changed _ => changed
  | .clearing => false

/-- A change that is not marked came after the write of every save that is to clear the flag. -/
def Covered (tasks : List Task) : Prop :=
  ∀ newer older, tasks = newer ++ .clearing :: older → ∃ t ∈ newer, t.owes = true

section Order

variable {t : Task} {newer older tasks : List Task}

theorem covered_of_owes (h : t.owes = true) (tasks : List Task) : Covered (t :: tasks) := by
  intro newer older heq
  cases newer with
  | nil =>
      cases heq
      cases h
  | cons t' newer =>
      cases heq
      exact ⟨t, List.mem_cons_self, h⟩

theorem Covered.cons (h : Covered tasks) (ht : t ≠ .clearing) : Covered (t :: tasks) := by
  intro newer older heq
  cases newer with
  | nil =>
      cases heq
      exact absurd rfl ht
  | cons t' newer =>
      cases heq
      obtain ⟨u, hu, howes⟩ := h newer older rfl
      exact ⟨u, List.mem_cons_of_mem t hu, howes⟩

/-- A task ends that owes nothing, or before which no save has written. -/
theorem Covered.remove (h : Covered (newer ++ t :: older))
    (ht : t.owes = true → .clearing ∉ older) : Covered (newer ++ older) := by
  intro n o heq
  obtain ⟨l, rfl, hl⟩ | ⟨l, rfl, hl⟩ := List.append_eq_append_iff.mp heq
  · -- the save wrote before the task
    have hmem : Task.clearing ∈ older := by
      rw [hl]
      exact List.mem_append_right l List.mem_cons_self
    obtain ⟨u, hu, howes⟩ := h (newer ++ t :: l) o (by
      rw [hl, List.append_assoc, List.cons_append])
    obtain hu | hu := List.mem_append.mp hu
    · exact ⟨u, List.mem_append_left l hu, howes⟩
    · obtain rfl | hu := List.mem_cons.mp hu
      · exact absurd hmem (ht howes)
      · exact ⟨u, List.mem_append_right newer hu, howes⟩
  · cases l with
    | nil =>
        rw [List.nil_append] at hl
        have hmem : Task.clearing ∈ older := hl ▸ List.mem_cons_self
        obtain ⟨u, hu, howes⟩ := h (n ++ [] ++ [t]) o (by simp [← hl])
        obtain hu | hu := List.mem_append.mp hu
        · exact ⟨u, by simpa using hu, howes⟩
        · obtain rfl := List.mem_singleton.mp hu
          exact absurd hmem (ht howes)
    | cons u l =>
        rw [List.cons_append, List.cons.injEq] at hl
        obtain ⟨rfl, rfl⟩ := hl
        exact h n (l ++ t :: older) (by simp)

theorem owes_remove (h : ∃ u ∈ newer ++ t :: older, u.owes = true) (ht : t.owes = false) :
    ∃ u ∈ newer ++ older, u.owes = true := by
  obtain ⟨u, hu, howes⟩ := h
  obtain hu | hu := List.mem_append.mp hu
  · exact ⟨u, List.mem_append_left older hu, howes⟩
  · obtain rfl | hu := List.mem_cons.mp hu
    · rw [ht] at howes
      cases howes
    · exact ⟨u, List.mem_append_right newer hu, howes⟩

theorem split_at {i : ℕ} (h : tasks[i]? = some t) :
    tasks = tasks.take i ++ t :: tasks.drop (i + 1) ∧
      tasks.eraseIdx i = tasks.take i ++ tasks.drop (i + 1) := by
  obtain ⟨hi, rfl⟩ := List.getElem?_eq_some_iff.mp h
  exact ⟨by rw [List.getElem_cons_drop, List.take_append_drop],
    List.eraseIdx_eq_take_drop_succ tasks i⟩

end Order

/-! ### The saves -/

theorem differ_eq_false {data data' : ArchiveData} :
    differ data data' = false ↔ data.stored = data'.stored := by
  simp [differ]

theorem stored_stored (data : ArchiveData) : data.stored.stored = data.stored := by
  simp [ArchiveData.stored, Function.comp_def, Message.stored]

/-- What is not marked was not done. -/
theorem apply_of_not_marks {data : ArchiveData} {op : Op} (h : op.marks data = false) :
    op.apply data = data := by
  cases op with
  | openScopedPm channelId remote =>
      simp only [Op.marks, Op.apply] at h ⊢
      obtain ⟨⟨message, herr⟩, -⟩ | ⟨record, self, member, -, -, -, hok⟩ :=
        openScopedPm_cases data channelId remote
      · rw [herr]
      · rw [hok] at h ⊢
        simp only [Bool.not_eq_false'] at h
        simp [ensurePm, h]
  | recordScopedPmSend record id out =>
      simp only [Op.marks, Op.apply] at h ⊢
      obtain ⟨-, herr⟩ | ⟨-, hok⟩ := recordScopedPmSend_cases data record id out
      · rw [herr]
      · rw [hok] at h
        cases h
  | _ => cases h

/-- The memory and the file are as before, or the file holds what is in memory. -/
def Inbox.Settles (s t : Inbox) : Prop :=
  (t.memory = s.memory ∧ t.disk = s.disk) ∨ t.Saved

theorem publish_settles {s : Inbox} {candidate : Except String ArchiveData}
    {outcome : SaveOutcome} (h : s.keeps candidate outcome = true) :
    s.Settles (s.publish candidate outcome).1 := by
  cases candidate with
  | error message => exact Or.inl ⟨rfl, rfl⟩
  | ok data =>
      cases outcome with
      | saved => exact Or.inr rfl
      | failed message => exact Or.inl ⟨rfl, rfl⟩
      | failedWritten message =>
          simp only [Inbox.keeps, Bool.not_eq_true'] at h
          exact Or.inr (differ_eq_false.mp h)

theorem sinkSave_settles {s : Inbox} {outcome : SaveOutcome}
    (h : s.keeps s.sinkCandidate outcome = true) : s.Settles (s.sinkSave outcome).1 := by
  have hpublish := publish_settles h
  unfold Inbox.sinkSave
  split
  next t heq =>
    rw [heq] at hpublish
    exact hpublish
  next t message heq =>
    rw [heq] at hpublish
    exact hpublish

theorem finish_settles {s : Inbox} {e : ClientEvent} {result : Inbox × Except String Unit}
    (h : s.Settles result.1) : s.Settles (Inbox.finish e result) := by
  obtain ⟨t, result⟩ := result
  cases result with
  | ok u => exact h
  | error message => exact h

/-- A save that succeeds writes what is in memory then. -/
theorem publish_ok {s t : Inbox} {candidate : Except String ArchiveData} {outcome : SaveOutcome}
    (h : s.publish candidate outcome = (t, .ok ())) : t.Saved := by
  cases candidate with
  | error message => cases h
  | ok data =>
      cases outcome with
      | saved =>
          cases h
          rfl
      | failed message => cases h
      | failedWritten message => cases h

theorem checkpoint_ok {s t : Inbox} {outcome : SaveOutcome}
    (h : s.checkpoint outcome = (t, .ok ())) : t.Saved := by
  unfold Inbox.checkpoint at h
  split at h
  · cases outcome with
    | saved =>
        cases h
        rfl
    | failed message => cases h
    | failedWritten message => cases h
  · unfold Inbox.sinkSave at h
    split at h
    next u heq =>
      have hsaved := publish_ok heq
      cases h
      exact hsaved
    next u message heq => cases h

theorem checkpoint_settles {s : Inbox} {outcome : SaveOutcome}
    (h : s.mode = .embedded → s.keeps s.sinkCandidate outcome = true) :
    s.Settles (s.checkpoint outcome).1 := by
  unfold Inbox.checkpoint
  cases hmode : s.mode with
  | embedded => exact sinkSave_settles (h hmode)
  | archive =>
      cases outcome with
      | saved => exact Or.inr rfl
      | failed message => exact Or.inl ⟨rfl, rfl⟩
      | failedWritten message => exact Or.inr rfl

/-! ### The invariant -/

structure Flagged.Inv (s : Flagged) : Prop where
  flag : ¬ s.inbox.Saved → s.dirty = true ∨ ∃ t ∈ s.tasks, t.owes = true
  covered : ¬ s.inbox.Saved → Covered s.tasks

namespace Flagged.Inv

variable {s : Flagged}

/-- After a section the task owes the flag, or the archive is as before. -/
theorem changed {data : ArchiveData} {held changed : Bool} {rest : List JoinedChannel}
    {tasks : List Task}
    (h : changed = false → ¬ s.inbox.Saved →
      (s.dirty = true ∨ ∃ t ∈ tasks, t.owes = true) ∧ Covered tasks) :
    (s.changed data held changed rest tasks).Inv := by
  cases howes : changed || differ s.inbox.memory data with
  | true =>
      have hcovered := covered_of_owes (t := .marking held (changed || differ s.inbox.memory data)
        rest) howes tasks
      constructor
      · exact fun _ => Or.inr ⟨_, List.mem_cons_self, howes⟩
      · exact fun _ => hcovered
  | false =>
      rw [Bool.or_eq_false_iff, differ_eq_false] at howes
      obtain ⟨hchanged, hsame⟩ := howes
      have hbefore : ¬ (s.changed data held changed rest tasks).inbox.Saved →
          ¬ s.inbox.Saved := by
        intro hnot hsaved
        exact hnot (hsame.symm.trans hsaved)
      constructor
      · intro hnot
        obtain hdirty | ⟨t, ht, howes⟩ := (h hchanged (hbefore hnot)).1
        · exact Or.inl hdirty
        · exact Or.inr ⟨t, List.mem_cons_of_mem _ ht, howes⟩
      · intro hnot
        exact (h hchanged (hbefore hnot)).2.cons (by simp)

/-- The inbox settles while the tasks stay. -/
theorem settles (h : s.Inv) {inbox : Inbox} (hsettles : s.inbox.Settles inbox) :
    Flagged.Inv { s with inbox := inbox } := by
  obtain ⟨hmemory, hdisk⟩ | hsaved := hsettles
  · have hsame : inbox.Saved ↔ s.inbox.Saved := by
      rw [Inbox.Saved, hmemory, hdisk]
      rfl
    constructor
    · exact fun hnot => h.flag fun hsaved => hnot (hsame.mpr hsaved)
    · exact fun hnot => h.covered fun hsaved => hnot (hsame.mpr hsaved)
  · exact ⟨fun hnot => absurd hsaved hnot, fun hnot => absurd hsaved hnot⟩

/-- A task ends that owes nothing. -/
theorem remove (h : s.Inv) {i : ℕ} {t : Task} (ht : s.tasks[i]? = some t)
    (howes : t.owes = false) :
    ¬ s.inbox.Saved → (s.dirty = true ∨ ∃ t ∈ s.tasks.eraseIdx i, t.owes = true) ∧
      Covered (s.tasks.eraseIdx i) := by
  obtain ⟨hsplit, herase⟩ := split_at ht
  intro hnot
  have hflag := h.flag hnot
  have hcovered := h.covered hnot
  rw [hsplit] at hflag hcovered
  rw [herase]
  constructor
  · exact hflag.imp_right fun hsome => owes_remove hsome howes
  · exact hcovered.remove fun htrue => absurd htrue (by rw [howes]; exact Bool.false_ne_true)

/-- The flag is set, and what was covered without the task stays so. -/
theorem mark (h : s.Inv) {i : ℕ} {held changed : Bool} {rest : List JoinedChannel}
    (ht : s.tasks[i]? = some (.marking held changed rest))
    (horderly : s.orderly (.mark i) = true) :
    Flagged.Inv { s with dirty := true, tasks := s.tasks.eraseIdx i } := by
  obtain ⟨hsplit, herase⟩ := split_at ht
  constructor
  · exact fun _ => Or.inl rfl
  · intro hnot
    have hcovered := h.covered hnot
    rw [hsplit] at hcovered
    simp only [herase]
    apply hcovered.remove
    intro howes
    obtain rfl : changed = true := howes
    simpa [orderly, ht] using horderly

/-- A save clears the flag; what it did not write is still to be marked. -/
theorem clear (h : s.Inv) {i : ℕ} (ht : s.tasks[i]? = some .clearing) :
    Flagged.Inv { s with dirty := false, tasks := s.tasks.eraseIdx i } := by
  obtain ⟨hsplit, herase⟩ := split_at ht
  constructor
  · intro hnot
    obtain ⟨u, hu, howes⟩ := h.covered hnot _ _ hsplit
    refine Or.inr ⟨u, ?_, howes⟩
    simp only [herase]
    exact List.mem_append_left _ hu
  · exact fun hnot => (h.remove ht rfl hnot).2

theorem step (h : s.Inv) {step : FlagStep} (horderly : s.orderly step = true) :
    (s.step step).Inv := by
  cases step with
  | change op =>
      simp only [Flagged.step]
      split
      · exact h
      · split
        · exact changed fun _ hnot => ⟨h.flag hnot, h.covered hnot⟩
        · exact h
  | dropLost joined =>
      simp only [Flagged.step]
      split
      · exact changed fun _ hnot => ⟨h.flag hnot, h.covered hnot⟩
      · exact h
  | merge i roster now =>
      simp only [Flagged.step]
      split
      next held done joined rest ht =>
        split
        · exact changed fun hdone hnot => h.remove ht hdone hnot
        · exact h
      next => exact h
  | lose i =>
      simp only [Flagged.step]
      split
      next held done joined rest ht =>
        have hdone : done = false := by
          cases done with
          | false => rfl
          | true => simp [orderly, ht] at horderly
        have hrest := h.remove ht hdone
        exact ⟨fun hnot => (hrest hnot).1, fun hnot => (hrest hnot).2⟩
      next => exact h
  | mark i =>
      simp only [Flagged.step]
      split
      next held done ht => exact h.mark ht horderly
      next => exact h
  | write outcome =>
      simp only [Flagged.step]
      split
      · have hsettles : s.inbox.Settles (s.inbox.checkpoint outcome).1 := by
          apply checkpoint_settles
          intro hmode
          simpa [orderly, hmode] using horderly
        split
        next inbox heq =>
          have hsaved := checkpoint_ok heq
          exact ⟨fun hnot => absurd hsaved hnot, fun hnot => absurd hsaved hnot⟩
        next inbox message heq =>
          rw [heq] at hsettles
          exact h.settles hsettles
      · exact h
  | clear i =>
      simp only [Flagged.step]
      split
      next ht => exact h.clear ht
      next => exact h
  | deliver e outcome =>
      simp only [Flagged.step]
      split
      · apply h.settles
        simp only [Inbox.step]
        split
        · split
          · exact Or.inl ⟨rfl, rfl⟩
          · split
            next hmode =>
              apply finish_settles
              apply publish_settles
              simpa [orderly, hmode] using horderly
            next => exact Or.inl ⟨rfl, rfl⟩
        · exact Or.inl ⟨rfl, rfl⟩
      · exact h
  | runtimeSaved outcome =>
      simp only [Flagged.step]
      split
      · apply h.settles
        simp only [Inbox.step]
        split
        · exact finish_settles (sinkSave_settles horderly)
        · exact Or.inl ⟨rfl, rfl⟩
      · exact h
  | runtimeSave outcome =>
      simp only [Flagged.step]
      split
      · exact h
      · split
        · exact h.settles (sinkSave_settles horderly)
        · exact h
  | commit accepted =>
      simp only [Flagged.step]
      apply h.settles
      simp only [Inbox.step]
      split
      · exact Or.inl ⟨rfl, rfl⟩
      · exact Or.inl ⟨rfl, rfl⟩
  | restart =>
      have hsaved : (s.inbox.step .crash).Saved := stored_stored s.inbox.disk
      exact ⟨fun hnot => absurd hsaved hnot, fun hnot => absurd hsaved hnot⟩

end Flagged.Inv

/-- In a run in which no change slips between the write of a save and its clearing of the
flag, and no failure leaves a change behind, what is clean when nothing is under way is saved. -/
theorem clean_is_saved (mode : Persistence) (data : ArchiveData) (s : Flagged)
    (hs : ((flagMachine mode data).restrict fun s step => s.orderly step = true).Reachable s) :
    s.tasks = [] → s.dirty = false → s.inbox.Saved := by
  have hinv : s.Inv := by
    apply hs.invariant (I := Flagged.Inv)
    · rintro s rfl
      have hsaved : (Flagged.opened mode data).inbox.Saved := rfl
      exact ⟨fun hnot => absurd hsaved hnot, fun hnot => absurd hsaved hnot⟩
    · rintro s step _ - h ⟨horderly, rfl⟩
      exact h.step horderly
  intro htasks hclean
  by_contra hnot
  obtain hdirty | ⟨t, ht, -⟩ := hinv.flag hnot
  · rw [hclean] at hdirty
    cases hdirty
  · rw [htasks] at ht
    exact absurd ht List.not_mem_nil

/-! ### A change that is forgotten -/

/-- The state after some steps of a client of its own store. -/
def flagRun (steps : List FlagStep) : Flagged :=
  steps.foldl Flagged.step (Flagged.opened .archive joinedOnce)

/-- A message that arrives. -/
def arrival : Op := .event (.channelMessage "room" (Bytes.fill 16 5) 4 "peer" 1 [104, 105])

/-- A message that is archived and marked between the write of a save and its clearing of the
flag is not saved later, and neither is what a reconciliation did before it failed. -/
theorem clean_is_not_saved :
    let slipped := flagRun [.write .saved, .change arrival, .mark 0, .clear 0]
    let givenUp := flagRun [.dropLost [⟨Bytes.fill 32 8, "other", .pub, .member⟩], .lose 0]
    (slipped.tasks = [] ∧ slipped.dirty = false ∧
        slipped.inbox.memory.stored ≠ slipped.inbox.disk.stored) ∧
      givenUp.tasks = [] ∧ givenUp.dirty = false ∧
        givenUp.inbox.memory.stored ≠ givenUp.inbox.disk.stored := by
  decide +kernel

/-- The message is marked before the save. -/
theorem clean_is_saved_arrival :
    let steps := [.change arrival, .mark 0, .write .saved, .clear 0]
    (flagRun steps).tasks = [] ∧ (flagRun steps).dirty = false ∧ (flagRun steps).inbox.Saved := by
  have hmeets : Machine.Meets (fun s step => Flagged.orderly s step = true) Flagged.step
      (Flagged.opened .archive joinedOnce)
      [.change arrival, .mark 0, .write .saved, .clear 0] := by
    refine ⟨?_, ?_, ?_, ?_, trivial⟩ <;> decide +kernel
  have hreach := Machine.Reachable.restrict_foldl
    (.start rfl : ((flagMachine .archive joinedOnce).restrict
      fun s step => Flagged.orderly s step = true).Reachable _) hmeets
  have hidle : (flagRun [.change arrival, .mark 0, .write .saved, .clear 0]).tasks = [] ∧
      (flagRun [.change arrival, .mark 0, .write .saved, .clear 0]).dirty = false := by
    decide +kernel
  exact ⟨hidle.1, hidle.2, clean_is_saved .archive joinedOnce _ hreach hidle.1 hidle.2⟩

end Archive

end GChat
