import GChat.Journal.AtMostOnce

/-!
# The records of operations that are under way

An admission drops expired records, whatever they belong to. `Spares` says that it
drops no record of an operation that is under way. In a run whose admissions all
spare these records every operation that is under way finds its record when it
completes, and its outcome is recorded.
-/

namespace GChat

namespace Journal

open Foundation Api

/-- The operations that were admitted and have not completed. -/
def Service.underway (s : Service) : List String := s.executing ++ s.pending.map recordId

/-- No record of these operations has expired. -/
def Spared (window now : ℕ) (ids : List String) (operations : Operations) : Prop :=
  ∀ id ∈ ids, ∀ record, operations[id]? = some record → record.fresh window now = true

/-- An admission that drops expired records drops none of an operation under way. -/
def Host.Spares (host : Host) (s : Service) : Label → Prop
  | .submit request _ _ _ => ∀ session, s.unlocked = some session →
      lifecycleRequest request.text = .submit → checkOperationId request.operationId = .ok () →
      checkText request.text = .ok () → session.operations[request.operationId]? = none →
      Spared week s.clock s.underway session.operations
  | .rpcAdmit now key _ deadline outcome => ∀ session, s.unlocked = some session →
      host.Attempts now key deadline session.operations → outcome.replaces = true →
      Spared host.retention now s.underway session.operations
  | _ => True

/-- The journal has the records of the operations under way. -/
structure Backed (executing : List String) (pending : List OperationKey)
    (operations : Operations) : Prop where
  executing : ∀ id ∈ executing, ∃ record, operations[id]? = some record
  pending : ∀ key ∈ pending, ∃ record, operations[recordId key]? = some record ∧
    record.rpc = some ⟨key, none⟩

structure Present (host : Host) (s : Service) : Prop where
  checked : ∀ key ∈ s.pending, host.checkKey key = .ok ()
  distinct : (s.pending.map recordId).Nodup
  disk : Backed s.executing s.pending s.disk
  memory : ∀ session, s.session = some session →
    Backed s.executing s.pending session.operations

/-- An edit of the journal that keeps these records and their bindings. -/
def Retains (ids : List String) (operations candidate : Operations) : Prop :=
  ∀ id ∈ ids, ∀ record, operations[id]? = some record →
    ∃ other, candidate[id]? = some other ∧ other.rpc = record.rpc

section Retains

variable {host : Host} {ids executing : List String} {pending : List OperationKey}
  {operations candidate : Operations} {window now : ℕ} {request : Submit} {key : OperationKey}
  {digest other : String} {record : OperationRecord}

theorem Retains.refl (ids : List String) (operations : Operations) :
    Retains ids operations operations := by
  intro id _ record hrecord
  exact ⟨record, hrecord, rfl⟩

theorem retains_prune (h : Spared window now ids operations) :
    Retains ids operations (prune window now operations) := by
  intro id hid record hrecord
  refine ⟨record, ?_, rfl⟩
  rw [get_prune, hrecord, Option.filter_some, if_pos (h id hid record hrecord)]

/-- A new record takes no other's place. -/
theorem Retains.insert_new (h : Retains ids operations candidate)
    (hnone : operations[other]? = none) : Retains ids operations (candidate.insert other record) := by
  intro id hid old hold
  rw [StringMap.get_insert]
  split
  · rename_i heq
    rw [heq, hold] at hnone
    cases hnone
  · exact h id hid old hold

/-- Nor does an update of a record under its own binding. -/
theorem retains_update {old : OperationRecord} (hold : operations[other]? = some old)
    (hrpc : record.rpc = old.rpc) : Retains ids operations (operations.insert other record) := by
  intro id _ current hcurrent
  rw [StringMap.get_insert]
  split
  · rename_i heq
    rw [heq, hcurrent] at hold
    cases hold
    exact ⟨record, rfl, hrpc⟩
  · exact ⟨current, hcurrent, rfl⟩

theorem Retains.describe (h : Retains ids operations candidate) :
    Retains ids operations (describe request candidate) := by
  intro id hid record hrecord
  obtain ⟨other, hother, hrpc⟩ := h id hid record hrecord
  have hcore := describe_core request candidate id
  rw [hother, Option.map_some, Option.map_eq_some_iff] at hcore
  obtain ⟨last, hlast, hcore⟩ := hcore
  simp only [OperationRecord.core, Prod.mk.injEq] at hcore
  exact ⟨last, hlast, hcore.2.2.2.trans hrpc⟩

theorem Backed.retains (h : Backed executing pending operations)
    (hretains : Retains (executing ++ pending.map recordId) operations candidate) :
    Backed executing pending candidate := by
  constructor
  · intro id hid
    obtain ⟨record, hrecord⟩ := h.executing id hid
    obtain ⟨other, hother, -⟩ := hretains id (List.mem_append_left _ hid) record hrecord
    exact ⟨other, hother⟩
  · intro key hkey
    obtain ⟨record, hrecord, hrpc⟩ := h.pending key hkey
    obtain ⟨other, hother, hsame⟩ := hretains (recordId key)
      (List.mem_append_right _ (List.mem_map_of_mem hkey)) record hrecord
    exact ⟨other, hother, hsame.trans hrpc⟩

theorem Backed.fewer (h : Backed executing pending operations) {executing' : List String}
    {pending' : List OperationKey} (hexecuting : executing' ⊆ executing)
    (hpending : pending' ⊆ pending) : Backed executing' pending' operations :=
  ⟨fun id hid => h.executing id (hexecuting hid), fun key hkey => h.pending key (hpending hkey)⟩

end Retains

namespace Present

variable {host : Host} {s : Service} {session : Session} {journal : Cell Operations}

/-- A step on the journal that keeps the records of the operations under way. -/
theorem put (h : Present host s) (hsession : s.session = some session)
    (hmemory : Retains s.underway session.operations journal.memory)
    (hdisk : journal.disk = s.disk ∨ Retains s.underway session.operations journal.disk) :
    Present host (s.put session journal) := by
  constructor
  · exact h.checked
  · exact h.distinct
  · obtain hdisk | hdisk := hdisk
    · dsimp only [Service.put]
      rw [hdisk]
      exact h.disk
    · exact (h.memory session hsession).retains hdisk
  · intro current hcurrent
    cases hcurrent
    exact (h.memory session hsession).retains hmemory

theorem fewer (h : Present host s) {waiting : List (OperationKey × String)} {executing : List String}
    {pending : List OperationKey} (hexecuting : executing ⊆ s.executing)
    (hpending : pending.Sublist s.pending) :
    Present host { s with waiting := waiting, pending := pending, executing := executing } := by
  constructor
  · intro key hkey
    exact h.checked key (hpending.subset hkey)
  · exact h.distinct.sublist (hpending.map recordId)
  · exact h.disk.fewer hexecuting hpending.subset
  · intro current hcurrent
    exact (h.memory current hcurrent).fewer hexecuting hpending.subset

theorem save (h : Present host s) (outcome : Written) : Present host (s.save outcome) := by
  unfold Service.save
  cases hsession : s.session with
  | none => exact h
  | some session =>
      dsimp only
      cases hwrite : (session.journal s.disk).write session.operations outcome with
      | mk journal result =>
      obtain ⟨hm, ⟨-, -, hd⟩ | ⟨-, -, hd | hd⟩⟩ := Cell.write_cases hwrite
      · exact h.put hsession (hm ▸ Retains.refl _ _) (Or.inr (hd ▸ Retains.refl _ _))
      · exact h.put hsession (hm ▸ Retains.refl _ _) (Or.inl hd)
      · exact h.put hsession (hm ▸ Retains.refl _ _) (Or.inr (hd ▸ Retains.refl _ _))

theorem lock (h : Present host s) (outcome : Written) : Present host (s.lock outcome) := by
  have hsave := h.save outcome
  unfold Service.lock
  dsimp only
  split
  · rename_i session hsession
    refine ⟨hsave.checked, hsave.distinct, hsave.disk, ?_⟩
    intro current hcurrent
    cases hcurrent
    exact hsave.memory session hsession
  · exact hsave

theorem disconnect (h : Present host s) (outcome : Written) : Present host (s.disconnect outcome) := by
  have hsave := h.save outcome
  refine ⟨hsave.checked, hsave.distinct, hsave.disk, ?_⟩
  intro current hcurrent
  cases hcurrent

theorem unlock (h : Present host s) (outcome : Written) : Present host (s.unlock outcome) := by
  unfold Service.unlock
  cases hsession : s.session with
  | some session =>
      refine ⟨h.checked, h.distinct, h.disk, ?_⟩
      intro current hcurrent
      cases hcurrent
      exact h.memory session hsession
  | none =>
      cases outcome with
      | saved =>
          refine ⟨h.checked, h.distinct, h.disk, ?_⟩
          intro current hcurrent
          cases hcurrent
          exact h.disk
      | failed | failedWritten => exact h

theorem start (h : Present host s) {request : Submit} {result : Except String Begun}
    (hstarted : ∀ text, result = .ok (.started text) →
      (∃ record, s.disk[request.operationId]? = some record) ∧
        ∀ session, s.session = some session →
          ∃ record, session.operations[request.operationId]? = some record) :
    Present host (host.start request result s) := by
  unfold Host.start
  split
  · rename_i text
    obtain ⟨hdisk, hmemory⟩ := hstarted text rfl
    refine ⟨h.checked, h.distinct, ⟨?_, h.disk.pending⟩, ?_⟩
    · intro id hid
      obtain rfl | hid := List.mem_cons.mp hid
      · exact hdisk
      · exact h.disk.executing id hid
    · intro current hcurrent
      refine ⟨?_, (h.memory current hcurrent).pending⟩
      intro id hid
      obtain rfl | hid := List.mem_cons.mp hid
      · exact hmemory current hcurrent
      · exact (h.memory current hcurrent).executing id hid
  · exact h

/-- The handler of a submission, legacy or typed. -/
theorem begin (h : Present host s) (hsession : s.session = some session) {admitted : Bool}
    {aliases : StringMap String} {request : Submit} {first second : Written}
    {result : Except String Begun}
    (hspared : admitted = false → checkOperationId request.operationId = .ok () →
      checkText request.text = .ok () → session.operations[request.operationId]? = none →
      Spared week s.clock s.underway session.operations)
    (hbegin : host.beginSubmit s.clock admitted aliases request first second
      (session.journal s.disk) = (journal, result)) {history : List Event} :
    Present host
      (host.start request result { s.put session journal with history := history }) := by
  have hput : Present host (s.put session journal) → (∀ text, result = .ok (.started text) →
      (∃ record, journal.disk[request.operationId]? = some record) ∧
        ∃ record, journal.memory[request.operationId]? = some record) →
      Present host (host.start request result { s.put session journal with history := history }) := by
    intro hput hstarted
    refine Present.start (s := { s.put session journal with history := history })
      ⟨hput.checked, hput.distinct, hput.disk, hput.memory⟩ ?_
    intro text htext
    obtain ⟨hdisk, hmemory⟩ := hstarted text htext
    refine ⟨hdisk, ?_⟩
    intro current hcurrent
    cases hcurrent
    exact hmemory
  obtain ⟨rfl | ⟨hfull, rfl⟩, hstarted, -⟩ | ⟨candidate, hdecide, hm, hd, hstarted⟩ :=
    beginSubmit_cases hbegin
  · refine hput (h.put hsession (Retains.refl _ _) (Or.inl rfl)) ?_
    intro text htext
    exact absurd htext (hstarted text)
  · obtain ⟨hid, htext, hlegacy, hnone, -⟩ := decide_full hfull
    refine hput (h.put hsession (retains_prune (hspared hlegacy hid htext hnone)) (Or.inl rfl)) ?_
    intro text htext
    exact absurd htext (hstarted text)
  · obtain ⟨hid, htext, hcase⟩ := decide_accept hdecide
    have hretains : Retains s.underway session.operations candidate := by
      obtain ⟨-, rfl, -⟩ | ⟨hlegacy, hnone, -, rfl⟩ := hcase
      · exact Retains.refl _ _
      · exact (retains_prune (hspared hlegacy hid htext hnone)).insert_new hnone
    have hget : ∃ record, (describe request candidate)[request.operationId]? = some record := by
      have hcandidate : ∃ record, candidate[request.operationId]? = some record := by
        obtain ⟨-, rfl, record, hrecord, -⟩ | ⟨-, -, -, rfl⟩ := hcase
        · exact ⟨record, hrecord⟩
        · exact ⟨_, StringMap.get_insert_self _ _ _⟩
      obtain ⟨record, hrecord⟩ := hcandidate
      have hcore := describe_core request candidate request.operationId
      rw [hrecord, Option.map_some, Option.map_eq_some_iff] at hcore
      obtain ⟨last, hlast, -⟩ := hcore
      exact ⟨last, hlast⟩
    refine hput (h.put hsession ?_ ?_) ?_
    · obtain hm | hm := hm
      · rw [hm]
        exact hretains
      · rw [hm]
        exact hretains.describe
    · obtain ⟨hd, -⟩ | hd | hd := hd
      · exact Or.inl hd
      · rw [hd]
        exact Or.inr hretains
      · rw [hd]
        exact Or.inr hretains.describe
    · intro text htext
      obtain ⟨-, hmemory, hdisk⟩ := hstarted text htext
      rw [hmemory, hdisk]
      exact ⟨hget, hget⟩

/-- A typed admission finds no operation under way under its identifier. -/
theorem admission (h : Present host s) {now : ℕ} {key : OperationKey} {digest : String} {deadline : ℕ}
    {outcome : Written} (hspares : host.Spares s (.rpcAdmit now key digest deadline outcome)) :
    Present host (host.admitTyped s now key digest deadline outcome).1 := by
  unfold Host.admitTyped
  cases hunlocked : s.unlocked with
  | none => exact h
  | some session =>
  dsimp only
  have hsession := unlocked_session hunlocked
  cases hadmission : host.rpcAdmit now key digest deadline outcome (session.journal s.disk) with
  | mk journal result =>
  have hnone : host.Attempts now key deadline session.operations → outcome.replaces = true →
      recordId key ∉ s.underway ∧ Retains s.underway session.operations
        (host.rpcCandidate now key digest session.operations) := by
    intro hattempts hreplaces
    have hspared := hspares session hunlocked hattempts hreplaces
    have hfree : recordId key ∉ s.underway := by
      intro hmem
      obtain ⟨record, hrecord⟩ : ∃ record, session.operations[recordId key]? = some record := by
        obtain hmem | hmem := List.mem_append.mp hmem
        · exact (h.memory session hsession).executing _ hmem
        · obtain ⟨other, hother, heq⟩ := List.mem_map.mp hmem
          obtain ⟨record, hrecord, -⟩ := (h.memory session hsession).pending other hother
          rw [heq] at hrecord
          exact ⟨record, hrecord⟩
      have hunknown := hattempts.unknown
      unfold Host.retained at hunknown
      rw [hrecord, Option.filter_some, if_pos (hspared _ hmem record hrecord)] at hunknown
      cases hunknown
    refine ⟨hfree, ?_⟩
    intro id hid record hrecord
    obtain ⟨other, hother, hrpc⟩ := retains_prune hspared id hid record hrecord
    refine ⟨other, ?_, hrpc⟩
    unfold Host.rpcCandidate
    rw [StringMap.get_insert_of_ne]
    · exact hother
    · intro heq
      rw [heq] at hfree
      exact hfree hid
  obtain ⟨hnew, hm, hd⟩ | ⟨rfl, rfl, hattempts, hm, hd⟩ := rpcAdmit_cases hadmission
  · have hput : Present host (s.put session journal) := by
      refine h.put hsession (by rw [hm]; exact Retains.refl _ _) ?_
      obtain hd | ⟨hattempts, hreplaces, hd⟩ := hd
      · exact Or.inl hd
      · rw [hd]
        exact Or.inr (hnone hattempts hreplaces).2
    split
    · rename_i heq
      cases heq
      exact absurd rfl hnew
    · rename_i heq
      cases heq
      exact hput
  · obtain ⟨hfree, hretains⟩ := hnone hattempts rfl
    have hput : Present host (s.put session journal) :=
      h.put hsession (by rw [hm]; exact hretains) (Or.inr (by rw [hd]; exact hretains))
    have hget : ∀ operations, operations = host.rpcCandidate now key digest session.operations →
        ∃ record, operations[recordId key]? = some record ∧ record.rpc = some ⟨key, none⟩ := by
      intro operations hoperations
      rw [hoperations]
      exact ⟨_, StringMap.get_insert_self _ _ _, rfl⟩
    refine ⟨?_, ?_, ⟨hput.disk.executing, ?_⟩, ?_⟩
    · intro other hother
      obtain rfl | hother := List.mem_cons.mp hother
      · exact hattempts.checked
      · exact h.checked other hother
    · rw [List.map_cons, List.nodup_cons]
      refine ⟨?_, h.distinct⟩
      intro hmem
      exact hfree (List.mem_append_right _ hmem)
    · intro other hother
      obtain rfl | hother := List.mem_cons.mp hother
      · exact hget _ hd
      · exact hput.disk.pending other hother
    · intro current hcurrent
      cases hcurrent
      refine ⟨(hput.memory _ rfl).executing, ?_⟩
      intro other hother
      obtain rfl | hother := List.mem_cons.mp hother
      · exact hget _ hm
      · exact (hput.memory _ rfl).pending other hother

theorem submit (h : Present host s) {request : Submit} {aliases : StringMap String}
    {first second : Written} (hspares : host.Spares s (.submit request aliases first second)) :
    Present host (host.submit s request aliases first second).1 := by
  unfold Host.submit
  cases hlifecycle : lifecycleRequest request.text with
  | lock => exact h.lock first
  | disconnect => exact h.disconnect first
  | submit =>
  dsimp only
  cases hunlocked : s.unlocked with
  | none => exact h
  | some session =>
      exact h.begin (unlocked_session hunlocked)
        (fun _ hid htext hnone => hspares session hunlocked hlifecycle hid htext hnone) rfl

theorem invoke (h : Present host s) (key : OperationKey) (digest : String)
    (conversation : Option String) (text : String) (aliases : StringMap String)
    (outcome : Written) :
    Present host (host.invoke s key digest conversation text aliases outcome).1 := by
  unfold Host.invoke
  split
  · exact h
  have hfewer : Present host { s with waiting := s.waiting.erase (key, digest) } :=
    ⟨h.checked, h.distinct, h.disk, h.memory⟩
  dsimp only
  split
  · exact ⟨hfewer.checked, hfewer.distinct, hfewer.disk, hfewer.memory⟩
  split
  · exact hfewer
  · rename_i session hunlocked
    have hsession : s.session = some session := unlocked_session hunlocked
    cases hbegin : host.beginSubmit s.clock true aliases ⟨key.operationId, conversation, text⟩
        .saved outcome (session.journal s.disk) with
    | mk journal result =>
    refine hfewer.begin hsession ?_ hbegin
    intro hfalse
    cases hfalse

theorem finish (h : Present host s) (id : String) (response : Response) (outcome : Written) :
    Present host (s.finish id response outcome).1 := by
  unfold Service.finish
  split
  · exact h
  have hfewer : Present host { s with executing := s.executing.erase id } :=
    h.fewer List.erase_subset (List.Sublist.refl _)
  dsimp only
  split
  · exact hfewer
  rename_i session hsession
  cases hfinish : finishSubmit id response outcome (session.journal s.disk) with
  | mk journal result =>
  have hput : Present host ({ s with executing := s.executing.erase id }.put session journal) := by
    obtain ⟨-, rfl, -⟩ | ⟨record, hget, ⟨-, -, hm, hd⟩ | ⟨-, -, hm, hd⟩⟩ := finishSubmit_cases hfinish
    · exact hfewer.put hsession (Retains.refl _ _) (Or.inl rfl)
    · refine hfewer.put hsession ?_ (Or.inr ?_)
      · rw [hm]
        exact retains_update hget rfl
      · rw [hd]
        exact retains_update hget rfl
    · refine hfewer.put hsession (by rw [hm]; exact Retains.refl _ _) ?_
      obtain hd | hd := hd
      · exact Or.inl hd
      · rw [hd]
        exact Or.inr (retains_update hget rfl)
  split
  · rename_i heq
    cases heq
    exact ⟨hput.checked, hput.distinct, hput.disk, hput.memory⟩
  · rename_i heq
    cases heq
    exact hput

theorem complete (h : Present host s) (key : OperationKey) (value : ReplyBody) (outcome : Written) :
    Present host (host.complete s key value outcome).1 := by
  unfold Host.complete
  split
  · exact h
  rename_i hpending
  rw [not_not] at hpending
  have hfewer : Present host { s with pending := s.pending.erase key } :=
    h.fewer (List.Subset.refl _) List.erase_sublist
  -- the other pending operations have other records
  have hother : recordId key ∉ (s.pending.erase key).map recordId := by
    have hdistinct := ((List.perm_cons_erase hpending).map recordId).nodup_iff.mp h.distinct
    rw [List.map_cons, List.nodup_cons] at hdistinct
    exact hdistinct.1
  dsimp only
  split
  · exact hfewer
  rename_i session hsession
  cases hcomplete : host.rpcComplete key value outcome (session.journal s.disk) with
  | mk journal result =>
  have hput : Present host ({ s with pending := s.pending.erase key }.put session journal) := by
    obtain ⟨-, hm, hd⟩ | ⟨record, binding, hget, -, -, -, hcase⟩ := rpcComplete_cases hcomplete
    · exact hfewer.put hsession (by rw [hm]; exact Retains.refl _ _) (Or.inl hd)
    have hbacked : ∀ operations, operations = session.operations.insert (recordId key)
          { record with rpc := some { binding with result := some value } } →
        Backed s.executing (s.pending.erase key) operations := by
      intro operations hoperations
      rw [hoperations]
      have hmemory := hfewer.memory session hsession
      constructor
      · intro id hid
        rw [StringMap.get_insert]
        split
        · exact ⟨_, rfl⟩
        · exact hmemory.executing id hid
      · intro other hmem
        rw [StringMap.get_insert_of_ne]
        · exact hmemory.pending other hmem
        · intro heq
          rw [heq] at hother
          exact hother (List.mem_map_of_mem hmem)
    obtain ⟨-, -, hm, hd⟩ | ⟨-, -, hm, hd⟩ := hcase
    · refine ⟨hfewer.checked, hfewer.distinct, hbacked _ hd, ?_⟩
      intro current hcurrent
      cases hcurrent
      exact hbacked _ hm
    · refine ⟨hfewer.checked, hfewer.distinct, ?_, ?_⟩
      · obtain hd | hd := hd
        · dsimp only [Service.put]
          rw [hd]
          exact hfewer.disk
        · exact hbacked _ hd
      · intro current hcurrent
        cases hcurrent
        dsimp only
        rw [hm]
        exact hfewer.memory session hsession
  split
  · rename_i heq
    cases heq
    exact ⟨hput.checked, hput.distinct, hput.disk, hput.memory⟩
  · rename_i heq
    cases heq
    exact hput

/-- A step that spares the records of the operations under way keeps them. -/
theorem step (h : Present host s) {label : Label} (hspares : host.Spares s label) :
    Present host (host.step s label).1 := by
  cases label with
  | clock now => exact ⟨h.checked, h.distinct, h.disk, h.memory⟩
  | unlock outcome => exact h.unlock outcome
  | lock outcome => exact h.lock outcome
  | disconnect outcome => exact h.disconnect outcome
  | crash =>
      refine ⟨?_, List.nodup_nil, ⟨?_, ?_⟩, ?_⟩
      · intro key hkey
        cases hkey
      · intro id hid
        cases hid
      · intro key hkey
        cases hkey
      · intro current hcurrent
        cases hcurrent
  | save outcome => exact h.save outcome
  | submit request aliases first second => exact h.submit hspares
  | rpcAdmit now key digest deadline outcome => exact h.admission hspares
  | invoke key digest conversation text aliases outcome =>
      exact h.invoke key digest conversation text aliases outcome
  | finish id response outcome => exact h.finish id response outcome
  | abandon id => exact h.fewer List.erase_subset (List.Sublist.refl _)
  | complete key value outcome => exact h.complete key value outcome

end Present

theorem present_of_reachable {host : Host} {s : Service}
    (hs : (host.machine.restrict host.Spares).Reachable s) : Present host s := by
  refine hs.invariant ?_ ?_
  · intro s hstart
    cases hstart
    refine ⟨?_, List.nodup_nil, ⟨?_, ?_⟩, ?_⟩
    · intro key hkey
      cases hkey
    · intro id hid
      cases hid
    · intro key hkey
      cases hkey
    · intro session hsession
      cases hsession
  · intro s label t _ h hstep
    obtain ⟨hspares, rfl⟩ := hstep
    exact h.step hspares

/-! ### Completing -/

/-- How the command of an operation ends when only its save can fail. -/
def Finished.ofSave (response : Response) : Written → Finished
  | .saved => .recorded response
  | .failed message => .failed message
  | .failedWritten message => .failed message

/-- How a typed completion ends when only its save can fail. -/
def completionOfSave : Written → Except RpcError Unit
  | .saved => .ok ()
  | .failed message => .error ⟨.storage, message⟩
  | .failedWritten message => .error ⟨.storage, message⟩

/-- Every operation under way finds its record when it completes in an open session: it
neither panics nor misses its admission, and a saved completion records the outcome. -/
structure Completes (host : Host) (s : Service) (session : Session) : Prop where
  executing : ∀ id ∈ s.executing, ∃ record, session.operations[id]? = some record ∧
    ∀ response,
      (∀ outcome, (s.finish id response outcome).2 = .finished (.ofSave response outcome)) ∧
      (s.finish id response .saved).1.disk[id]? =
        some { record with response := some (retainedResponse response) }
  pending : ∀ key ∈ s.pending, ∃ record, session.operations[recordId key]? = some record ∧
    ∀ value,
      (∀ outcome, (host.complete s key value outcome).2 =
        .completion (completionOfSave outcome)) ∧
      (host.complete s key value .saved).1.disk[recordId key]? =
        some { record with rpc := some ⟨key, some value⟩ }

section Claim

variable {host : Host} {s : Service} {session : Session} {id : String} {key : OperationKey}
  {record : OperationRecord} {outcome : Written}

theorem finish_of_get (hexecuting : id ∈ s.executing) (hsession : s.session = some session)
    (hget : session.operations[id]? = some record) (response : Response) (outcome : Written) :
    (s.finish id response outcome).2 = .finished (.ofSave response outcome) ∧
      (outcome = .saved → (s.finish id response outcome).1.disk[id]? =
        some { record with response := some (retainedResponse response) }) := by
  unfold Service.finish
  rw [if_neg (not_not.mpr hexecuting)]
  dsimp only
  rw [hsession]
  dsimp only
  unfold finishSubmit Session.journal
  dsimp only
  rw [hget]
  cases outcome with
  | saved =>
      refine ⟨rfl, ?_⟩
      intro _
      exact StringMap.get_insert_self _ _ _
  | failed message => exact ⟨rfl, fun h => nomatch h⟩
  | failedWritten message => exact ⟨rfl, fun h => nomatch h⟩

theorem complete_of_get (hpending : key ∈ s.pending) (hchecked : host.checkKey key = .ok ())
    (hsession : s.session = some session) (hget : session.operations[recordId key]? = some record)
    (hrpc : record.rpc = some ⟨key, none⟩) (value : ReplyBody) (outcome : Written) :
    (host.complete s key value outcome).2 = .completion (completionOfSave outcome) ∧
      (outcome = .saved → (host.complete s key value outcome).1.disk[recordId key]? =
        some { record with rpc := some ⟨key, some value⟩ }) := by
  unfold Host.complete
  rw [if_neg (not_not.mpr hpending)]
  dsimp only
  rw [hsession]
  dsimp only
  unfold Host.rpcComplete Session.journal
  rw [hchecked]
  dsimp only
  rw [hget]
  dsimp only
  rw [hrpc]
  dsimp only
  rw [if_neg (not_not.mpr rfl), if_neg (by simp)]
  cases outcome with
  | saved =>
      refine ⟨rfl, ?_⟩
      intro _
      exact StringMap.get_insert_self _ _ _
  | failed message => exact ⟨rfl, fun h => nomatch h⟩
  | failedWritten message => exact ⟨rfl, fun h => nomatch h⟩

/-- In a run whose admissions spare the records of the operations under way, all of these
complete. -/
theorem spared_completes (host : Host) (s : Service)
    (hs : (host.machine.restrict host.Spares).Reachable s) (session : Session)
    (hsession : s.session = some session) : Completes host s session := by
  have h : Present host s := present_of_reachable hs
  have hmemory := h.memory session hsession
  constructor
  · intro id hid
    obtain ⟨record, hget⟩ := hmemory.executing id hid
    refine ⟨record, hget, ?_⟩
    intro response
    constructor
    · intro outcome
      exact (finish_of_get hid hsession hget response outcome).1
    · exact (finish_of_get hid hsession hget response .saved).2 rfl
  · intro key hkey
    obtain ⟨record, hget, hrpc⟩ := hmemory.pending key hkey
    refine ⟨record, hget, ?_⟩
    intro value
    constructor
    · intro outcome
      exact (complete_of_get hkey (h.checked key hkey) hsession hget hrpc value outcome).1
    · exact (complete_of_get hkey (h.checked key hkey) hsession hget hrpc value .saved).2 rfl

end Claim

/-! ### A clock that jumps -/

/-- A message that is being sent while the clock jumps by a week and another one is sent. -/
def jumpRun : List Label :=
  [.clock 1000, .unlock .saved, .submit ⟨"0123456789abcdef", none, "hello"⟩ ∅ .saved .saved,
    .clock (1000 + week), .submit ⟨"fedcba9876543210", none, "goodbye"⟩ ∅ .saved .saved]

theorem jumpRun_lost : "0123456789abcdef" ∈ (sampleHost.run jumpRun).executing ∧
    (sampleHost.run jumpRun).session.map
      (fun session => session.operations["0123456789abcdef"]?.isNone) = some true := by
  decide +kernel

/-- The record of an operation can be gone before it completes, which then panics. -/
theorem record_lost :
    (∃ session, (sampleHost.run jumpRun).session = some session ∧
      ∀ response outcome, (finishSubmit "0123456789abcdef" response outcome
        (session.journal (sampleHost.run jumpRun).disk)).2 = .panicked) ∧
    ¬ ∀ (host : Host) (s : Service), host.machine.Reachable s → ∀ session,
      s.session = some session → Completes host s session := by
  obtain ⟨hexecuting, hlost⟩ := jumpRun_lost
  obtain ⟨session, hsession, hnone⟩ := Option.map_eq_some_iff.mp hlost
  rw [Option.isNone_iff_eq_none] at hnone
  constructor
  · refine ⟨session, hsession, ?_⟩
    intro response outcome
    unfold finishSubmit Session.journal
    dsimp only
    rw [hnone]
  · intro h
    have hreach : sampleHost.machine.Reachable (sampleHost.run jumpRun) :=
      Machine.Reachable.foldl (Machine.Reachable.start rfl) jumpRun
    obtain ⟨record, hget, -⟩ := (h sampleHost _ hreach session hsession).executing _ hexecuting
    rw [hnone] at hget
    cases hget

/-- Two messages that are being sent one after the other. -/
def patientRun : List Label :=
  [.clock 1000, .unlock .saved, .submit ⟨"0123456789abcdef", none, "hello"⟩ ∅ .saved .saved,
    .submit ⟨"fedcba9876543210", none, "goodbye"⟩ ∅ .saved .saved]

theorem patientRun_kept : (sampleHost.run (patientRun.take 3)).underway = ["0123456789abcdef"] ∧
    (sampleHost.run (patientRun.take 3)).unlocked.all (fun session =>
      session.operations["0123456789abcdef"]?.all fun record =>
        record.fresh week (sampleHost.run (patientRun.take 3)).clock) = true := by
  decide +kernel

theorem patientRun_completes : ∃ session,
    (sampleHost.run patientRun).session = some session ∧
      Completes sampleHost (sampleHost.run patientRun) session := by
  obtain ⟨session, hsession⟩ : ∃ session, (sampleHost.run patientRun).session = some session :=
    Option.isSome_iff_exists.mp (by decide +kernel)
  refine ⟨session, hsession, spared_completes sampleHost _ ?_ session hsession⟩
  refine Machine.Reachable.restrict_foldl (Machine.Reachable.start rfl) ?_
  refine ⟨trivial, trivial, ?_, ?_, trivial⟩
  · intro session _ _ _ _ _ id hid
    cases hid
  · intro session hunlocked _ _ _ _ id hid record hget
    obtain ⟨hunderway, hkept⟩ := patientRun_kept
    have hid : id = "0123456789abcdef" := List.mem_singleton.mp (hunderway ▸ hid)
    rw [show (sampleHost.run (patientRun.take 3)).unlocked = some session from hunlocked,
      Option.all_some, ← hid, hget, Option.all_some] at hkept
    exact hkept

end Journal

end GChat
