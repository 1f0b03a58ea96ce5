import GChat.Journal.Records

/-!
# One admission, one start

`Once id s` links the history of one operation with the journal: inside the
retention window it is admitted at most once, started at most once, and its record,
in memory and on disk, holds what the history says about it. Every step keeps it as
long as the clock does not go back.
-/

namespace GChat

namespace Journal

open Foundation Api

namespace Event

def isAdmission (id : String) : Event → Bool
  | .admitted other _ _ _ => other == id
  | _ => false

def isStart (id : String) : Event → Bool
  | .started other _ => other == id
  | _ => false

def isResponse (id : String) : Event → Bool
  | .responded other _ => other == id
  | _ => false

def isCompletion (id : String) : Event → Bool
  | .completed key _ => recordId key == id
  | _ => false

end Event

/-- The clock is inside the retention window of every admission of the operation. -/
def InWindow (id : String) (history : List Event) (now : ℕ) : Prop :=
  ∀ digest time key, Event.admitted id digest time key ∈ history → now < saturatingAdd time week

/-- A record holds what the history says about its operation. -/
structure Recorded (id : String) (history : List Event) (record : OperationRecord) : Prop where
  admitted : ∀ digest time key, Event.admitted id digest time key ∈ history →
    record.digest = digest ∧ record.admittedAt = time ∧ record.rpc.map (·.key) = key
  responded : ∀ response, Event.responded id response ∈ history →
    record.response = some response
  completed : ∀ key result, Event.completed key result ∈ history → recordId key = id →
    record.rpc = some ⟨key, some result⟩

def Held (id : String) (history : List Event) (operations : Operations) : Prop :=
  ∃ record, operations[id]? = some record ∧ Recorded id history record

structure Once (id : String) (s : Service) : Prop where
  admitted : s.history.countP (Event.isAdmission id) ≤ 1
  started : s.waiting.countP (fun w => recordId w.1 == id) + s.history.countP (Event.isStart id) ≤
    s.history.countP (Event.isAdmission id)
  responded : s.executing.count id + s.history.countP (Event.isResponse id) ≤
    s.history.countP (Event.isStart id)
  completed : s.pending.countP (recordId · == id) + s.history.countP (Event.isCompletion id) ≤
    s.history.countP (Event.isAdmission id)
  disk : s.history.countP (Event.isAdmission id) ≠ 0 → Held id s.history s.disk
  memory : ∀ session, s.session = some session → s.history.countP (Event.isAdmission id) ≠ 0 →
    Held id s.history session.operations

/-! ### The record -/

section Records

variable {id digest : String} {history : List Event} {record other : OperationRecord}
  {operations candidate : Operations} {now time : ℕ} {event : Event} {key : OperationKey}

theorem Recorded.of_core (h : Recorded id history record) (hcore : other.core = record.core) :
    Recorded id history other := by
  obtain ⟨hdigest, htime, hresponse, hrpc⟩ :
      other.digest = record.digest ∧ other.admittedAt = record.admittedAt ∧
        other.response = record.response ∧ other.rpc = record.rpc := by
    simpa [OperationRecord.core] using hcore
  constructor
  · rw [hdigest, htime, hrpc]
    exact h.admitted
  · rw [hresponse]
    exact h.responded
  · rw [hrpc]
    exact h.completed

/-- An event that tells nothing about the record. -/
theorem Recorded.append (h : Recorded id history record)
    (hadmission : event.isAdmission id = false) (hresponse : event.isResponse id = false)
    (hcompletion : event.isCompletion id = false) : Recorded id (history ++ [event]) record := by
  constructor
  · intro digest time key hmem
    obtain hmem | hmem := List.mem_append.mp hmem
    · exact h.admitted _ _ _ hmem
    · rw [← List.mem_singleton.mp hmem] at hadmission
      simp [Event.isAdmission] at hadmission
  · intro response hmem
    obtain hmem | hmem := List.mem_append.mp hmem
    · exact h.responded _ hmem
    · rw [← List.mem_singleton.mp hmem] at hresponse
      simp [Event.isResponse] at hresponse
  · intro key result hmem hkey
    obtain hmem | hmem := List.mem_append.mp hmem
    · exact h.completed _ _ hmem hkey
    · rw [← List.mem_singleton.mp hmem] at hcompletion
      simp [Event.isCompletion, hkey] at hcompletion

theorem countP_snoc (p : Event → Bool) (history : List Event) (event : Event) :
    (history ++ [event]).countP p = history.countP p + if p event then 1 else 0 := by
  rw [List.countP_append, List.countP_singleton]

theorem not_mem_of_countP (hzero : history.countP (Event.isAdmission id) = 0) (digest : String)
    (time : ℕ) (key : Option OperationKey) : Event.admitted id digest time key ∉ history := by
  intro hmem
  have := List.countP_eq_zero.mp hzero _ hmem
  simp [Event.isAdmission] at this

theorem response_not_mem (hzero : history.countP (Event.isResponse id) = 0)
    (response : Response) : Event.responded id response ∉ history := by
  intro hmem
  have := List.countP_eq_zero.mp hzero _ hmem
  simp [Event.isResponse] at this

theorem completion_not_mem (hzero : history.countP (Event.isCompletion id) = 0)
    (hkey : recordId key = id) (result : ReplyBody) : Event.completed key result ∉ history := by
  intro hmem
  have := List.countP_eq_zero.mp hzero _ hmem
  simp [Event.isCompletion, hkey] at this

/-- The record of the first admission. -/
theorem Recorded.new {key : Option OperationKey}
    (hadmission : history.countP (Event.isAdmission id) = 0)
    (hresponse : history.countP (Event.isResponse id) = 0)
    (hcompletion : history.countP (Event.isCompletion id) = 0)
    (hcore : record.core = (digest, time, none, key.map (⟨·, none⟩))) :
    Recorded id (history ++ [.admitted id digest time key]) record := by
  simp only [OperationRecord.core, Prod.mk.injEq] at hcore
  obtain ⟨hdigest, htime, -, hrpc⟩ := hcore
  constructor
  · intro digest' time' key' hmem
    obtain hmem | hmem := List.mem_append.mp hmem
    · exact absurd hmem (not_mem_of_countP hadmission _ _ _)
    · cases List.mem_singleton.mp hmem
      rw [hrpc]
      refine ⟨hdigest, htime, ?_⟩
      cases key with
      | none => rfl
      | some key => rfl
  · intro response hmem
    obtain hmem | hmem := List.mem_append.mp hmem
    · exact absurd hmem (response_not_mem hresponse _)
    · cases List.mem_singleton.mp hmem
  · intro key' result hmem hkey
    obtain hmem | hmem := List.mem_append.mp hmem
    · exact absurd hmem (completion_not_mem hcompletion hkey _)
    · cases List.mem_singleton.mp hmem

theorem exists_admission (h : history.countP (Event.isAdmission id) ≠ 0) :
    ∃ digest time key, Event.admitted id digest time key ∈ history := by
  obtain ⟨event, hmem, hevent⟩ := List.countP_pos_iff.mp (Nat.pos_of_ne_zero h)
  cases event with
  | admitted other digest time key =>
      have heq : other = id := by simpa [Event.isAdmission] using hevent
      rw [heq] at hmem
      exact ⟨digest, time, key, hmem⟩
  | started | responded | completed => cases hevent

/-- Inside the window the record has not expired. -/
theorem Recorded.fresh (h : Recorded id history record)
    (hadmission : history.countP (Event.isAdmission id) ≠ 0) (hw : InWindow id history now) :
    record.fresh week now = true := by
  obtain ⟨digest, time, key, hmem⟩ := exists_admission hadmission
  unfold OperationRecord.fresh
  rw [(h.admitted _ _ _ hmem).2.1, decide_eq_true_eq]
  exact hw _ _ _ hmem

theorem Held.keeps (h : Held id history operations)
    (hadmission : history.countP (Event.isAdmission id) ≠ 0) (hw : InWindow id history now)
    (hk : Keeps id now operations candidate) : Held id history candidate := by
  obtain ⟨record, hget, hrecorded⟩ := h
  have hcore := hk record hget (hrecorded.fresh hadmission hw)
  rw [Option.map_eq_some_iff] at hcore
  obtain ⟨other, hother, hcore⟩ := hcore
  exact ⟨other, hother, hrecorded.of_core hcore⟩

theorem Held.append (h : Held id history operations) (hadmission : event.isAdmission id = false)
    (hresponse : event.isResponse id = false) (hcompletion : event.isCompletion id = false) :
    Held id (history ++ [event]) operations := by
  obtain ⟨record, hget, hrecorded⟩ := h
  exact ⟨record, hget, hrecorded.append hadmission hresponse hcompletion⟩

end Records

theorem unlocked_session {s : Service} {session : Session} (h : s.unlocked = some session) :
    s.session = some session := by
  unfold Service.unlocked at h
  exact (Option.filter_eq_some_iff.mp h).1

namespace Once

variable {host : Host} {id : String} {s : Service} {session : Session}
  {journal : Cell Operations} {event : Event}

/-! ### Accesses to the journal -/

/-- A step on the journal that keeps the record. -/
theorem put (h : Once id s) (hsession : s.session = some session)
    (hw : InWindow id s.history s.clock)
    (hk : CellKeeps id s.clock (session.journal s.disk) journal) : Once id (s.put session journal) := by
  obtain ⟨hmemory, hdisk⟩ := hk
  constructor
  · exact h.admitted
  · exact h.started
  · exact h.responded
  · exact h.completed
  · intro hadmission
    obtain hdisk | hdisk := hdisk
    · rw [show (s.put session journal).disk = s.disk from hdisk]
      exact h.disk hadmission
    · exact (h.memory session hsession hadmission).keeps hadmission hw hdisk
  · intro current hcurrent hadmission
    cases hcurrent
    exact (h.memory session hsession hadmission).keeps hadmission hw hmemory

/-- Fewer requests are under way. -/
theorem fewer (h : Once id s) (waiting : List (OperationKey × String))
    (pending : List OperationKey) (executing : List String)
    (hwaiting : waiting.countP (fun w => recordId w.1 == id) ≤
      s.waiting.countP fun w => recordId w.1 == id)
    (hpending : pending.countP (recordId · == id) ≤ s.pending.countP (recordId · == id))
    (hexecuting : executing.count id ≤ s.executing.count id) :
    Once id { s with waiting := waiting, pending := pending, executing := executing } := by
  constructor
  · exact h.admitted
  · exact (Nat.add_le_add_right hwaiting _).trans h.started
  · exact (Nat.add_le_add_right hexecuting _).trans h.responded
  · exact (Nat.add_le_add_right hpending _).trans h.completed
  · exact h.disk
  · exact h.memory

/-- An operation that is started was waiting for it or was just admitted. -/
theorem start (h : Once id s) {other digest : String} {executing : List String}
    (hexecuting : executing.count id ≤ s.executing.count id + if other = id then 1 else 0)
    (hroom : other = id →
      s.waiting.countP (fun w => recordId w.1 == id) + s.history.countP (Event.isStart id) <
        s.history.countP (Event.isAdmission id)) :
    Once id { s with executing := executing, history := s.history ++ [.started other digest] } := by
  constructor
  · dsimp only
    rw [countP_snoc]
    exact h.admitted
  · dsimp only
    rw [countP_snoc, countP_snoc]
    by_cases hid : other = id
    · have hwaits := hroom hid
      simp only [Event.isStart, Event.isAdmission, hid, beq_self_eq_true, if_true, if_false,
        Bool.false_eq_true]
      omega
    · simpa [Event.isStart, Event.isAdmission, hid] using h.started
  · dsimp only
    rw [countP_snoc, countP_snoc]
    have hresponded := h.responded
    by_cases hid : other = id
    · rw [if_pos hid] at hexecuting
      simp only [Event.isStart, Event.isResponse, hid, beq_self_eq_true, if_true, if_false,
        Bool.false_eq_true]
      omega
    · rw [if_neg hid] at hexecuting
      simp only [Event.isStart, Event.isResponse, if_false, Bool.false_eq_true]
      omega
  · dsimp only
    rw [countP_snoc, countP_snoc]
    exact h.completed
  · dsimp only
    rw [countP_snoc]
    intro hadmission
    exact (h.disk hadmission).append rfl rfl rfl
  · dsimp only
    rw [countP_snoc]
    intro current hcurrent hadmission
    exact (h.memory current hcurrent hadmission).append rfl rfl rfl

/-- Where the journal has no record that has not expired, nothing was admitted. -/
theorem unadmitted (h : Once id s) (hsession : s.session = some session)
    (hw : InWindow id s.history s.clock)
    (hnone : ∀ record, session.operations[id]? = some record → record.fresh week s.clock = false) :
    s.history.countP (Event.isAdmission id) = 0 := by
  by_contra hadmission
  obtain ⟨record, hget, hrecorded⟩ := h.memory session hsession hadmission
  have hfresh := hrecorded.fresh hadmission hw
  rw [hnone record hget] at hfresh
  cases hfresh

/-- A first admission, whose record is saved. -/
theorem admission (h : Once id (s.put session journal)) (other digest : String) (time : ℕ)
    (key : Option OperationKey) (waiting : List (OperationKey × String))
    (pending : List OperationKey)
    (hzero : other = id → s.history.countP (Event.isAdmission id) = 0)
    (hmemory : other = id → journal.memory[id]?.map OperationRecord.core =
      some (digest, time, none, key.map (⟨·, none⟩)))
    (hdisk : other = id → journal.disk[id]?.map OperationRecord.core =
      some (digest, time, none, key.map (⟨·, none⟩)))
    (hwaiting : waiting.countP (fun w => recordId w.1 == id) ≤
      s.waiting.countP (fun w => recordId w.1 == id) + if other = id then 1 else 0)
    (hpending : pending.countP (recordId · == id) ≤
      s.pending.countP (recordId · == id) + if other = id then 1 else 0) :
    Once id { s.put session journal with
      waiting := waiting
      pending := pending
      history := s.history ++ [.admitted other digest time key] } := by
  have hadmitted : s.history.countP (Event.isAdmission id) ≤ 1 := h.admitted
  have hstarted : s.waiting.countP (fun w => recordId w.1 == id) +
      s.history.countP (Event.isStart id) ≤ s.history.countP (Event.isAdmission id) := h.started
  have hresponded : s.executing.count id + s.history.countP (Event.isResponse id) ≤
      s.history.countP (Event.isStart id) := h.responded
  have hcompleted : s.pending.countP (recordId · == id) +
      s.history.countP (Event.isCompletion id) ≤ s.history.countP (Event.isAdmission id) :=
    h.completed
  have hheld : ∀ operations, (other = id → operations[id]?.map OperationRecord.core =
        some (digest, time, none, key.map (⟨·, none⟩))) →
      (s.history.countP (Event.isAdmission id) ≠ 0 → Held id s.history operations) →
      (s.history ++ [Event.admitted other digest time key]).countP (Event.isAdmission id) ≠ 0 →
      Held id (s.history ++ [.admitted other digest time key]) operations := by
    intro operations hcore hold hcount
    by_cases hid : other = id
    · have hget := hcore hid
      rw [Option.map_eq_some_iff] at hget
      obtain ⟨record, hget, hrecord⟩ := hget
      have hnone := hzero hid
      refine ⟨record, hget, ?_⟩
      rw [hid]
      exact Recorded.new hnone (by omega) (by omega) hrecord
    · have hother : Event.isAdmission id (Event.admitted other digest time key) = false := by
        simpa [Event.isAdmission] using hid
      rw [countP_snoc, hother] at hcount
      exact (hold hcount).append hother rfl rfl
  constructor
  · dsimp only
    rw [countP_snoc]
    by_cases hid : other = id
    · rw [hzero hid]
      split <;> omega
    · simpa [Event.isAdmission, hid] using hadmitted
  · dsimp only
    rw [countP_snoc, countP_snoc]
    by_cases hid : other = id
    · rw [if_pos hid] at hwaiting
      simp only [Event.isStart, Event.isAdmission, hid, beq_self_eq_true, if_true, if_false,
        Bool.false_eq_true]
      omega
    · rw [if_neg hid] at hwaiting
      simp only [Event.isStart, if_false, Bool.false_eq_true]
      omega
  · dsimp only
    rw [countP_snoc, countP_snoc]
    exact hresponded
  · dsimp only
    rw [countP_snoc, countP_snoc]
    by_cases hid : other = id
    · rw [if_pos hid] at hpending
      simp only [Event.isCompletion, Event.isAdmission, hid, beq_self_eq_true, if_true, if_false,
        Bool.false_eq_true]
      omega
    · rw [if_neg hid] at hpending
      simp only [Event.isCompletion, if_false, Bool.false_eq_true]
      omega
  · exact hheld _ hdisk h.disk
  · intro current hcurrent
    cases hcurrent
    exact hheld _ hmemory (h.memory _ rfl)

/-- A step that writes the record of the operation. -/
theorem putRecord (h : Once id s) (hsession : s.session = some session)
    {record : OperationRecord}
    (hrecord : s.history.countP (Event.isAdmission id) ≠ 0 → Recorded id s.history record)
    (hmemory : journal.memory = session.operations ∨
      journal.memory = session.operations.insert id record)
    (hdisk : journal.disk = s.disk ∨ journal.disk = session.operations.insert id record) :
    Once id (s.put session journal) := by
  have hinsert : s.history.countP (Event.isAdmission id) ≠ 0 →
      Held id s.history (session.operations.insert id record) := by
    intro hadmission
    exact ⟨record, StringMap.get_insert_self _ _ _, hrecord hadmission⟩
  constructor
  · exact h.admitted
  · exact h.started
  · exact h.responded
  · exact h.completed
  · intro hadmission
    dsimp only [Service.put]
    obtain hdisk | hdisk := hdisk
    · rw [hdisk]
      exact h.disk hadmission
    · rw [hdisk]
      exact hinsert hadmission
  · intro current hcurrent hadmission
    cases hcurrent
    dsimp only
    obtain hmemory | hmemory := hmemory
    · rw [hmemory]
      exact h.memory session hsession hadmission
    · rw [hmemory]
      exact hinsert hadmission

/-- A response or a completion that the records already hold. -/
theorem told (h : Once id s) (hadmission : event.isAdmission id = false)
    (hstart : event.isStart id = false)
    (hresponse : s.executing.count id + (s.history ++ [event]).countP (Event.isResponse id) ≤
      s.history.countP (Event.isStart id))
    (hcompletion : s.pending.countP (recordId · == id) +
      (s.history ++ [event]).countP (Event.isCompletion id) ≤
        s.history.countP (Event.isAdmission id))
    (hdisk : Held id s.history s.disk → Held id (s.history ++ [event]) s.disk)
    (hmemory : ∀ session, s.session = some session → Held id s.history session.operations →
      Held id (s.history ++ [event]) session.operations) :
    Once id { s with history := s.history ++ [event] } := by
  have hadmissions : (s.history ++ [event]).countP (Event.isAdmission id) =
      s.history.countP (Event.isAdmission id) := by
    rw [countP_snoc, hadmission]
    rfl
  have hstarts : (s.history ++ [event]).countP (Event.isStart id) =
      s.history.countP (Event.isStart id) := by
    rw [countP_snoc, hstart]
    rfl
  constructor
  · exact hadmissions ▸ h.admitted
  · dsimp only
    rw [hadmissions, hstarts]
    exact h.started
  · dsimp only
    rw [hstarts]
    exact hresponse
  · dsimp only
    rw [hadmissions]
    exact hcompletion
  · dsimp only
    rw [hadmissions]
    intro hcount
    exact hdisk (h.disk hcount)
  · dsimp only
    rw [hadmissions]
    intro current hcurrent hcount
    exact hmemory current hcurrent (h.memory current hcurrent hcount)

end Once

end Journal

end GChat
