import GChat.Archive.Replay

/-!
# The durable inbox

The loop over the durable inbox archives one delivery at a time and commits it
to the SDK afterwards. A client with its own store applies the delivery to a
candidate under the data lock and saves that. An embedded client puts the
delivery into a slot and asks the runtime to save; the storage sink then applies
the slot to a candidate and saves it, as does any other save of the runtime in
between. `Inbox` records every archive written, so that a commit can be traced
to the save before it.
-/

namespace GChat

namespace Archive

open Foundation

/-- Which component saves the archive. A client without an embedded SDK has no
inbox loop. -/
inductive Persistence where
  | archive
  | embedded
deriving DecidableEq

/-- What the store reports. A save may fail after the file was replaced. -/
inductive SaveOutcome where
  | saved
  | failed (message : String)
  | failedWritten (message : String)

/-- What the loop waits for. -/
inductive Phase where
  | idle
  | saving (e : ClientEvent)
  | archived (e : ClientEvent)
deriving DecidableEq

structure Inbox where
  mode : Persistence
  memory : ArchiveData
  disk : ArchiveData
  pendingArchive : Option ClientEvent
  phase : Phase
  saves : List ArchiveData
  committed : List ClientEvent

/-- Write an archive to the store. -/
def Inbox.save (s : Inbox) (data : ArchiveData) : SaveOutcome → Inbox × Except String Unit
  | .saved => ({ s with disk := data, saves := s.saves ++ [data] }, .ok ())
  | .failed message => (s, .error message)
  | .failedWritten message => ({ s with disk := data }, .error message)

/-- The checks made before a delivery is archived. -/
def deliveryReady (data : ArchiveData) (e : ClientEvent) : Except String Unit :=
  match e.deliveryChannel with
  | none => .error "not a channel delivery"
  | some channel =>
      if data.channels.any (names channel) then .ok ()
      else .error "channel archive metadata not ready"

/-- The archive a delivery is saved in. -/
def archiveCandidate (data : ArchiveData) (e : ClientEvent) : Except String ArchiveData :=
  let candidate := applyArchiveEvent data e
  if archiveContainsDelivery candidate e then .ok candidate
  else .error "channel delivery metadata incomplete"

/-- Save a candidate, and make it the visible archive once it is saved. -/
def Inbox.publish (s : Inbox) (candidate : Except String ArchiveData) (outcome : SaveOutcome) :
    Inbox × Except String Unit :=
  match candidate with
  | .error message => (s, .error message)
  | .ok candidate =>
      match s.save candidate outcome with
      | (s, .ok ()) => ({ s with memory := candidate }, .ok ())
      | (s, .error message) => (s, .error message)

/-- The archive the storage sink saves: with the delivery in the slot. -/
def Inbox.sinkCandidate (s : Inbox) : Except String ArchiveData :=
  match s.pendingArchive with
  | none => .ok s.memory
  | some e => archiveCandidate s.memory e

/-- The save of the storage sink. -/
def Inbox.sinkSave (s : Inbox) (outcome : SaveOutcome) : Inbox × Except String Unit :=
  match s.publish s.sinkCandidate outcome with
  | (s, .ok ()) => ({ s with pendingArchive := none }, .ok ())
  | (s, .error message) => (s, .error message)

inductive InboxStep where
  | op (op : Op)
  | backgroundSave (outcome : SaveOutcome)
  | deliver (e : ClientEvent) (outcome : SaveOutcome)
  | runtimeSaved (outcome : SaveOutcome)
  | commit (accepted : Bool)
  | crash

/-- The phase after a delivery was archived, or was not. -/
def Inbox.finish (e : ClientEvent) : Inbox × Except String Unit → Inbox
  | (s, .ok ()) => { s with phase := .archived e }
  | (s, .error _) => { s with phase := .idle }

def Inbox.step (s : Inbox) : InboxStep → Inbox
  | .op op => { s with memory := op.apply s.memory }
  | .backgroundSave outcome =>
      match s.mode with
      | .archive => (s.save s.memory outcome).1
      | .embedded => (s.sinkSave outcome).1
  | .deliver e outcome =>
      if s.phase = .idle then
        match deliveryReady s.memory e with
        | .error _ => s
        | .ok () =>
            match s.mode with
            | .archive => Inbox.finish e (s.publish (archiveCandidate s.memory e) outcome)
            | .embedded => { s with pendingArchive := some e, phase := .saving e }
      else s
  | .runtimeSaved outcome =>
      match s.phase with
      | .saving e => Inbox.finish e (s.sinkSave outcome)
      | _ => s
  | .commit accepted =>
      match s.phase with
      | .archived e =>
          { s with
            phase := .idle
            committed := if accepted then s.committed ++ [e] else s.committed }
      | _ => s
  | .crash => { s with memory := s.disk.stored, pendingArchive := none, phase := .idle }

/-- The inbox of a client that opened its archive. -/
def Inbox.opened (mode : Persistence) (data : ArchiveData) : Inbox :=
  ⟨mode, data, data, none, .idle, [], []⟩

/-! ### Saves -/

/-- An archive holding the delivery was saved. -/
def SavedIn (saves : List ArchiveData) (e : ClientEvent) : Prop :=
  ∃ data ∈ saves, archiveContainsDelivery data e = true

theorem archiveCandidate_eq_ok {data candidate : ArchiveData} {e : ClientEvent}
    (h : archiveCandidate data e = .ok candidate) :
    candidate = applyArchiveEvent data e ∧ archiveContainsDelivery candidate e = true := by
  unfold archiveCandidate at h
  dsimp only at h
  split at h
  · rename_i hcontains
    cases h
    exact ⟨rfl, hcontains⟩
  · cases h

/-- A save writes the candidate or leaves the saves as they were; only a success
makes it visible. -/
theorem publish_cases (s : Inbox) (candidate : Except String ArchiveData)
    (outcome : SaveOutcome) :
    (∃ data disk, candidate = .ok data ∧ s.publish candidate outcome =
      ({ s with memory := data, disk := disk, saves := s.saves ++ [data] }, .ok ())) ∨
    ∃ disk message, s.publish candidate outcome = ({ s with disk := disk }, .error message) := by
  cases candidate with
  | error message => exact Or.inr ⟨s.disk, message, rfl⟩
  | ok data =>
      cases outcome with
      | saved => exact Or.inl ⟨data, data, rfl, rfl⟩
      | failed message => exact Or.inr ⟨s.disk, message, rfl⟩
      | failedWritten message => exact Or.inr ⟨data, message, rfl⟩

/-- The sink empties the slot exactly when it saved the archive holding it. -/
theorem sinkSave_cases (s : Inbox) (outcome : SaveOutcome) :
    (∃ data disk, (∀ e, s.pendingArchive = some e → archiveContainsDelivery data e = true) ∧
      s.sinkSave outcome = ({ s with
        memory := data, disk := disk, pendingArchive := none, saves := s.saves ++ [data] },
        .ok ())) ∨
    ∃ disk message, s.sinkSave outcome = ({ s with disk := disk }, .error message) := by
  rcases publish_cases s s.sinkCandidate outcome with ⟨data, disk, hcandidate, hok⟩ |
    ⟨disk, message, herr⟩
  · refine Or.inl ⟨data, disk, fun e he => ?_, by simp only [Inbox.sinkSave, hok]⟩
    simp only [Inbox.sinkCandidate, he] at hcandidate
    exact (archiveCandidate_eq_ok hcandidate).2
  · exact Or.inr ⟨disk, message, by simp only [Inbox.sinkSave, herr]⟩

theorem SavedIn.append {saves : List ArchiveData} {e : ClientEvent} (h : SavedIn saves e)
    (tail : List ArchiveData) : SavedIn (saves ++ tail) e := by
  obtain ⟨data, hdata, hcontains⟩ := h
  exact ⟨data, List.mem_append_left tail hdata, hcontains⟩

theorem savedIn_last (saves : List ArchiveData) {data : ArchiveData} {e : ClientEvent}
    (h : archiveContainsDelivery data e = true) : SavedIn (saves ++ [data]) e :=
  ⟨data, List.mem_append_right saves (List.mem_singleton_self data), h⟩

/-! ### Commits -/

/-- Every commit, made or due, has a save behind it; a delivery under way is still
in the slot or saved already. -/
structure Inbox.Durable (s : Inbox) : Prop where
  committed : ∀ e ∈ s.committed, SavedIn s.saves e
  archived : ∀ e, s.phase = .archived e → SavedIn s.saves e
  saving : ∀ e, s.phase = .saving e → s.pendingArchive = some e ∨
    (s.pendingArchive = none ∧ SavedIn s.saves e)

/-- A save outside the loop keeps what is due. -/
theorem Inbox.Durable.more {s : Inbox} (h : s.Durable) (memory disk : ArchiveData)
    (tail : List ArchiveData) :
    { s with memory := memory, disk := disk, saves := s.saves ++ tail }.Durable :=
  ⟨fun e he => (h.committed e he).append tail, fun e he => (h.archived e he).append tail,
    fun e he => (h.saving e he).imp_right fun hs => ⟨hs.1, hs.2.append tail⟩⟩

theorem Inbox.Durable.sameSaves {s : Inbox} (h : s.Durable) (memory disk : ArchiveData) :
    { s with memory := memory, disk := disk }.Durable :=
  ⟨h.committed, h.archived, h.saving⟩

/-- The loop is idle again, with the commits it has made. -/
theorem Inbox.Durable.idle {s : Inbox} (h : s.Durable) (memory disk : ArchiveData)
    (pending : Option ClientEvent) :
    { s with memory := memory, disk := disk, pendingArchive := pending, phase := .idle }.Durable :=
  ⟨h.committed, fun _ he => (nomatch he), fun _ he => nomatch he⟩

theorem durable_sinkSave {s : Inbox} (h : s.Durable) (outcome : SaveOutcome) :
    (s.sinkSave outcome).1.Durable := by
  rcases sinkSave_cases s outcome with ⟨data, disk, hslot, hok⟩ | ⟨disk, message, herr⟩
  · rw [hok]
    refine ⟨fun e he => (h.committed e he).append [data],
      fun e he => (h.archived e he).append [data], fun e he => Or.inr ⟨rfl, ?_⟩⟩
    rcases h.saving e he with hpending | ⟨-, hsaved⟩
    · exact savedIn_last s.saves (hslot e hpending)
    · exact hsaved.append [data]
  · rw [herr]
    exact h.sameSaves s.memory disk

/-- A delivery is due for its commit once an archive holding it was saved. -/
theorem durable_archived {s : Inbox} (h : s.Durable) {memory disk data : ArchiveData}
    {pending : Option ClientEvent} {e : ClientEvent} (hsaved : SavedIn (s.saves ++ [data]) e) :
    { s with
      memory := memory, disk := disk, pendingArchive := pending, phase := .archived e
      saves := s.saves ++ [data] }.Durable := by
  refine ⟨fun e' he' => (h.committed e' he').append [data], ?_, fun _ he' => nomatch he'⟩
  rintro _ ⟨⟩
  exact hsaved

theorem durable_step {s : Inbox} (h : s.Durable) (step : InboxStep) : (s.step step).Durable := by
  cases step with
  | op op => exact h.sameSaves (op.apply s.memory) s.disk
  | backgroundSave outcome =>
      simp only [Inbox.step]
      split
      · cases outcome with
        | saved => exact h.more s.memory s.memory [s.memory]
        | failed message => exact h
        | failedWritten message => exact h.sameSaves s.memory s.memory
      · exact durable_sinkSave h outcome
  | deliver e outcome =>
      simp only [Inbox.step]
      split
      · split
        · exact h
        · split
          · rcases publish_cases s (archiveCandidate s.memory e) outcome with
              ⟨data, disk, hcandidate, hok⟩ | ⟨disk, message, herr⟩
            · rw [hok]
              exact durable_archived h
                (savedIn_last s.saves (archiveCandidate_eq_ok hcandidate).2)
            · rw [herr]
              exact h.idle s.memory disk s.pendingArchive
          · refine ⟨h.committed, fun _ he => (nomatch he), ?_⟩
            rintro _ ⟨⟩
            exact Or.inl rfl
      · exact h
  | runtimeSaved outcome =>
      simp only [Inbox.step]
      split
      · rename_i e hphase
        rcases sinkSave_cases s outcome with ⟨data, disk, hslot, hok⟩ | ⟨disk, message, herr⟩
        · rw [hok]
          refine durable_archived h ?_
          rcases h.saving e hphase with hpending | ⟨-, hsaved⟩
          · exact savedIn_last s.saves (hslot e hpending)
          · exact hsaved.append [data]
        · rw [herr]
          exact h.idle s.memory disk s.pendingArchive
      · exact h
  | commit accepted =>
      simp only [Inbox.step]
      split
      · rename_i e hphase
        refine ⟨fun e' he' => ?_, fun _ he' => (nomatch he'), fun _ he' => nomatch he'⟩
        cases accepted with
        | false => exact h.committed e' he'
        | true =>
            rcases List.mem_append.mp he' with hold | hnew
            · exact h.committed e' hold
            · rw [List.mem_singleton.mp hnew]
              exact h.archived e hphase
      · exact h
  | crash => exact h.idle s.disk.stored s.disk none

/-- The inbox as a machine: a client that opened its archive, and the steps of the
loop and around it. -/
def inboxMachine (mode : Persistence) (data : ArchiveData) : Machine Inbox InboxStep :=
  Machine.ofFun (Inbox.opened mode data) Inbox.step

theorem durable_of_reachable {mode : Persistence} {data : ArchiveData} {s : Inbox}
    (h : (inboxMachine mode data).Reachable s) : s.Durable := by
  refine h.invariant ?_ ?_
  · rintro s rfl
    exact ⟨fun _ he => absurd he List.not_mem_nil, fun _ he => (nomatch he), fun _ he => nomatch he⟩
  · rintro s step _ - hs rfl
    exact durable_step hs step

/-! ### Failures -/

/-- A delivery that does not get archived leaves the visible archive alone and is not
committed. -/
theorem failed_deliver {s : Inbox} {e : ClientEvent} {outcome : SaveOutcome}
    (hphase : s.phase = .idle) (hfail : (s.step (.deliver e outcome)).phase = .idle) :
    (s.step (.deliver e outcome)).memory = s.memory ∧
      (s.step (.deliver e outcome)).committed = s.committed := by
  simp only [Inbox.step, if_pos hphase] at hfail ⊢
  split
  · exact ⟨rfl, rfl⟩
  · rename_i hready
    simp only [hready] at hfail
    split
    · rename_i hmode
      simp only [hmode] at hfail
      rcases publish_cases s (archiveCandidate s.memory e) outcome with
        ⟨data, disk, hcandidate, hok⟩ | ⟨disk, message, herr⟩
      · rw [hok] at hfail
        cases hfail
      · rw [herr]
        exact ⟨rfl, rfl⟩
    · exact ⟨rfl, rfl⟩

theorem failed_runtimeSaved {s : Inbox} {outcome : SaveOutcome}
    (hfail : (s.step (.runtimeSaved outcome)).phase = .idle) :
    (s.step (.runtimeSaved outcome)).memory = s.memory ∧
      (s.step (.runtimeSaved outcome)).committed = s.committed := by
  simp only [Inbox.step] at hfail ⊢
  split
  · rename_i e hphase
    simp only [hphase] at hfail
    rcases sinkSave_cases s outcome with ⟨data, disk, hslot, hok⟩ | ⟨disk, message, herr⟩
    · rw [hok] at hfail
      cases hfail
    · rw [herr]
      exact ⟨rfl, rfl⟩
  · exact ⟨rfl, rfl⟩

/-- Deliveries are idempotent, keep the identifiers of every conversation distinct,
and are committed only behind the save of an archive that holds them. -/
theorem delivery_idempotent_and_durable :
    (∀ (data : ArchiveData) (events run : List ClientEvent), Replays events run →
      (∀ e ∈ events, e.IsDelivery) →
      run.foldl applyArchiveEvent data = events.foldl applyArchiveEvent data) ∧
    (∀ (data : ArchiveData) (events : List ClientEvent), DistinctIds data →
      DistinctIds (events.foldl applyArchiveEvent data)) ∧
    (∀ (daemonSafetyNumber : String) (data : ArchiveData),
      ((archiveMachine daemonSafetyNumber).restrict FreshSend).Reachable data →
      DistinctIds data) ∧
    (∀ (mode : Persistence) (data : ArchiveData) (s : Inbox),
      (inboxMachine mode data).Reachable s → ∀ e ∈ s.committed, SavedIn s.saves e) ∧
    (∀ (s : Inbox) (e : ClientEvent) (outcome : SaveOutcome), s.phase = .idle →
      (s.step (.deliver e outcome)).phase = .idle →
      (s.step (.deliver e outcome)).memory = s.memory ∧
        (s.step (.deliver e outcome)).committed = s.committed) ∧
    (∀ (s : Inbox) (outcome : SaveOutcome),
      (s.step (.runtimeSaved outcome)).phase = .idle →
      (s.step (.runtimeSaved outcome)).memory = s.memory ∧
        (s.step (.runtimeSaved outcome)).committed = s.committed) := by
  refine ⟨fun data _ _ h hevents => foldl_replays_deliveries data h hevents, ?_,
    fun _ _ h => distinctIds_of_reachable h,
    fun _ _ _ h => (durable_of_reachable h).committed,
    fun _ _ _ hphase hfail => failed_deliver hphase hfail,
    fun _ _ hfail => failed_runtimeSaved hfail⟩
  intro data events h
  induction events generalizing data with
  | nil => exact h
  | cons e events ih => exact ih _ (distinctIds_event h e)

/-- The greeting of a peer, delivered once and again after a restart. -/
theorem delivery_idempotent_and_durable_greeting :
    let greeting : ClientEvent := .channelMessage "room" (Bytes.fill 16 5) 4 "peer" 1 [104, 105]
    [greeting, greeting].foldl applyArchiveEvent joinedOnce =
        [greeting].foldl applyArchiveEvent joinedOnce ∧
      DistinctIds ([greeting].foldl applyArchiveEvent (ArchiveData.create "")) := by
  refine ⟨delivery_idempotent_and_durable.1 joinedOnce _ _
      (Replays.again (Replays.deliver _ Replays.nil) (List.mem_singleton_self _)) ?_,
    delivery_idempotent_and_durable.2.1 _ _ ?_⟩
  · intro e he
    rw [List.mem_singleton.mp he]
    rfl
  · exact ⟨fun _ hc => absurd hc List.not_mem_nil, fun _ hp => absurd hp List.not_mem_nil⟩

end Archive

end GChat
