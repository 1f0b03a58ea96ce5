import GChat.Journal.Once

/-!
# The steps keep one admission, one start

Every step of the service keeps `Once id` inside the retention window, and so every
run with a clock that does not go back reaches only states with `Once id`.
-/

namespace GChat

namespace Journal

open Foundation Api

namespace Once

variable {host : Host} {id : String} {s : Service}

theorem save (h : Once id s) (hw : InWindow id s.history s.clock) (outcome : Written) :
    Once id (s.save outcome) := by
  unfold Service.save
  cases hsession : s.session with
  | none => exact h
  | some session => exact h.put hsession hw (cellKeeps_write rfl)

theorem lock (h : Once id s) (hw : InWindow id s.history s.clock) (outcome : Written) :
    Once id (s.lock outcome) := by
  have hsave := h.save hw outcome
  unfold Service.lock
  dsimp only
  split
  · rename_i session hsession
    constructor
    · exact hsave.admitted
    · exact hsave.started
    · exact hsave.responded
    · exact hsave.completed
    · exact hsave.disk
    · intro current hcurrent
      cases hcurrent
      exact hsave.memory session hsession
  · exact hsave

theorem disconnect (h : Once id s) (hw : InWindow id s.history s.clock) (outcome : Written) :
    Once id (s.disconnect outcome) := by
  have hsave := h.save hw outcome
  constructor
  · exact hsave.admitted
  · exact hsave.started
  · exact hsave.responded
  · exact hsave.completed
  · exact hsave.disk
  · intro current hcurrent
    cases hcurrent

theorem crash (h : Once id s) : Once id s.crash := by
  have hfewer := h.fewer [] [] []
    (Nat.zero_le _) (Nat.zero_le _) (Nat.zero_le _)
  constructor
  · exact hfewer.admitted
  · exact hfewer.started
  · exact hfewer.responded
  · exact hfewer.completed
  · exact hfewer.disk
  · intro current hcurrent
    cases hcurrent

theorem unlock (h : Once id s) (outcome : Written) : Once id (s.unlock outcome) := by
  unfold Service.unlock
  cases hsession : s.session with
  | some session =>
      constructor
      · exact h.admitted
      · exact h.started
      · exact h.responded
      · exact h.completed
      · exact h.disk
      · intro current hcurrent
        cases hcurrent
        exact h.memory session hsession
  | none =>
      cases outcome with
      | saved =>
          constructor
          · exact h.admitted
          · exact h.started
          · exact h.responded
          · exact h.completed
          · exact h.disk
          · intro current hcurrent
            cases hcurrent
            exact h.disk
      | failed | failedWritten => exact h

theorem notStarted (h : Once id s) {request : Submit} {result : Except String Begun}
    (hresult : ∀ text, result ≠ .ok (.started text)) : Once id (host.start request result s) := by
  unfold Host.start
  split
  · rename_i text
    exact absurd rfl (hresult text)
  · exact h

theorem begun (h : Once id s) {request : Submit} (result : Except String Begun)
    (hroom : request.operationId = id →
      s.waiting.countP (fun w => recordId w.1 == id) + s.history.countP (Event.isStart id) <
        s.history.countP (Event.isAdmission id)) :
    Once id (host.start request result s) := by
  unfold Host.start
  split
  · refine h.start ?_ hroom
    rw [List.count_cons]
    simp only [beq_iff_eq, Nat.le_refl]
  · exact h

/-- A submission by the legacy handler. -/
theorem submit (h : Once id s) (hw : InWindow id s.history s.clock) (request : Submit)
    (aliases : StringMap String) (first second : Written) :
    Once id (host.submit s request aliases first second).1 := by
  unfold Host.submit
  cases lifecycleRequest request.text with
  | lock => exact h.lock hw first
  | disconnect => exact h.disconnect hw first
  | submit =>
  dsimp only
  cases hunlocked : s.unlocked with
  | none => exact h
  | some session =>
  dsimp only
  have hsession := unlocked_session hunlocked
  cases hbegin : host.beginSubmit s.clock false aliases request first second
      (session.journal s.disk) with
  | mk journal result =>
  dsimp only
  have hput : Once id (s.put session journal) := h.put hsession hw (cellKeeps_beginSubmit hbegin)
  obtain ⟨-, hstarted, hdecide⟩ | ⟨candidate, hdecide, hm, hd, hstarted⟩ := beginSubmit_cases hbegin
  · have hevents : host.admissionEvents s.clock request first session.operations = [] := by
      unfold Host.admissionEvents
      split
      · rename_i hadmission
        exact absurd hadmission (hdecide _)
      · rfl
    rw [hevents, List.append_nil]
    exact hput.notStarted hstarted
  obtain ⟨-, -, ⟨hfalse, -⟩ | ⟨-, hnone, -, hcandidate⟩⟩ := decide_accept hdecide
  · cases hfalse
  have hevents : host.admissionEvents s.clock request first session.operations =
      if first = .saved then [.admitted request.operationId
        (host.digest request.conversation request.text) s.clock none] else [] := by
    unfold Host.admissionEvents
    rw [show host.decide s.clock false request session.operations = _ from hdecide]
    cases first with
    | saved | failed | failedWritten => rfl
  rw [hevents]
  by_cases hfirst : first = .saved
  · rw [if_pos hfirst]
    have hcore : ∀ operations, operations = candidate ∨ operations = describe request candidate →
        request.operationId = id → operations[id]?.map OperationRecord.core =
          some (host.digest request.conversation request.text, s.clock, none, none) := by
      intro operations hoperations hid
      have hget : candidate[id]?.map OperationRecord.core =
          some (host.digest request.conversation request.text, s.clock, none, none) := by
        rw [hcandidate, hid, StringMap.get_insert_self]
        rfl
      obtain rfl | rfl := hoperations
      · exact hget
      · rw [describe_core]
        exact hget
    have hdisk : journal.disk = candidate ∨ journal.disk = describe request candidate := by
      obtain ⟨-, hfalse | hfalse⟩ | hd := hd
      · cases hfalse
      · exact absurd hfirst hfalse
      · exact hd
    have hzero : request.operationId = id → s.history.countP (Event.isAdmission id) = 0 := by
      intro hid
      refine h.unadmitted hsession hw ?_
      intro record hrecord
      rw [← hid] at hrecord
      exact absurd (hnone.symm.trans hrecord) (by simp)
    have hadmitted := hput.admission request.operationId _ s.clock none s.waiting s.pending hzero
      (hcore _ hm) (hcore _ hdisk) (Nat.le_add_right _ _) (Nat.le_add_right _ _)
    refine hadmitted.begun result ?_
    intro hid
    have hstart := h.started
    have hnone := hzero hid
    dsimp only [Service.put]
    rw [countP_snoc, countP_snoc]
    simp only [Event.isStart, Event.isAdmission, hid, beq_self_eq_true, if_true, if_false,
      Bool.false_eq_true]
    omega
  · rw [if_neg hfirst, List.append_nil]
    refine hput.notStarted ?_
    intro text htext
    obtain ⟨hfalse | hsaved, -⟩ := hstarted text htext
    · cases hfalse
    · exact hfirst hsaved

/-- A typed admission. Its reading of the clock may be old. -/
theorem rpcAdmit (h : Once id s) (hw : InWindow id s.history s.clock)
    (hretention : week ≤ host.retention) {now : ℕ} (hnow : now ≤ s.clock) (key : OperationKey)
    (digest : String) (deadline : ℕ) (outcome : Written) :
    Once id (host.admitTyped s now key digest deadline outcome).1 := by
  unfold Host.admitTyped
  cases hunlocked : s.unlocked with
  | none => exact h
  | some session =>
  dsimp only
  have hsession := unlocked_session hunlocked
  cases hadmission : host.rpcAdmit now key digest deadline outcome (session.journal s.disk) with
  | mk journal result =>
  have hput : Once id (s.put session journal) :=
    h.put hsession hw (cellKeeps_rpcAdmit hretention hnow hadmission)
  obtain ⟨hnew, -⟩ | ⟨rfl, -, hattempts, hm, hd⟩ := rpcAdmit_cases hadmission
  · split
    · rename_i heq
      cases heq
      exact absurd rfl hnew
    · rename_i heq
      cases heq
      exact hput
  · have hcore : recordId key = id → (host.rpcCandidate now key digest
        (session.journal s.disk).memory)[id]?.map OperationRecord.core =
          some (digest, now, none, (some key).map (⟨·, none⟩)) := by
      intro hid
      unfold Host.rpcCandidate
      rw [hid, StringMap.get_insert_self]
      rfl
    refine hput.admission (recordId key) digest now (some key) _ _ ?_ (hm ▸ hcore) (hd ▸ hcore) ?_ ?_
    · intro hid
      refine h.unadmitted hsession hw ?_
      intro record hrecord
      have hnone := hattempts.unknown
      unfold Host.retained at hnone
      rw [hid, show (session.journal s.disk).memory[id]? = _ from hrecord] at hnone
      by_contra hfresh
      rw [Option.filter_some,
        if_pos (fresh_mono hretention hnow (by simpa using hfresh))] at hnone
      cases hnone
    · rw [List.countP_cons]
      simp only [beq_iff_eq, Nat.le_refl]
    · rw [List.countP_cons]
      simp only [beq_iff_eq, Nat.le_refl]

/-- The invocation of a typed operation. -/
theorem invoke (h : Once id s) (hw : InWindow id s.history s.clock) (key : OperationKey)
    (digest : String) (conversation : Option String) (text : String)
    (aliases : StringMap String) (outcome : Written) :
    Once id (host.invoke s key digest conversation text aliases outcome).1 := by
  unfold Host.invoke
  split
  · exact h
  rename_i hwaiting
  rw [not_not] at hwaiting
  have hcount : (s.waiting.erase (key, digest)).countP (fun w => recordId w.1 == id) +
      (if recordId key = id then 1 else 0) = s.waiting.countP fun w => recordId w.1 == id := by
    rw [(List.perm_cons_erase hwaiting).countP_eq, List.countP_cons]
    simp only [beq_iff_eq]
  have hfewer := h.fewer (s.waiting.erase (key, digest)) s.pending s.executing (by omega)
    (Nat.le_refl _) (Nat.le_refl _)
  have hroom : recordId key = id →
      (s.waiting.erase (key, digest)).countP (fun w => recordId w.1 == id) +
        s.history.countP (Event.isStart id) < s.history.countP (Event.isAdmission id) := by
    intro hid
    have hstarted := h.started
    rw [if_pos hid] at hcount
    omega
  dsimp only
  split
  · exact hfewer.start (Nat.le_add_right _ _) hroom
  rename_i hmethod
  rw [not_not] at hmethod
  split
  · exact hfewer
  rename_i session hunlocked
  have hsession : s.session = some session := unlocked_session hunlocked
  cases hbegin : host.beginSubmit s.clock true aliases ⟨key.operationId, conversation, text⟩ .saved
      outcome (session.journal s.disk) with
  | mk journal result =>
  have hput := hfewer.put hsession hw (cellKeeps_beginSubmit hbegin)
  refine hput.begun result ?_
  intro hid
  refine hroom ?_
  unfold recordId operationRecordId
  rw [if_pos hmethod]
  exact hid

/-- The last part of the handler. -/
theorem finish (h : Once id s) (hw : InWindow id s.history s.clock) (other : String)
    (response : Response) (outcome : Written) : Once id (s.finish other response outcome).1 := by
  unfold Service.finish
  split
  · exact h
  rename_i hexecuting
  rw [not_not] at hexecuting
  have hcount : (s.executing.erase other).count id + (if other = id then 1 else 0) =
      s.executing.count id := by
    rw [(List.perm_cons_erase hexecuting).count_eq, List.count_cons]
    simp only [beq_iff_eq]
  have hfewer := h.fewer s.waiting s.pending (s.executing.erase other) (Nat.le_refl _)
    (Nat.le_refl _) (by omega)
  have hresponded := h.responded
  dsimp only
  split
  · exact hfewer
  rename_i session hsession
  by_cases hid : other = id
  · rw [if_pos hid] at hcount
    have hnone : s.history.countP (Event.isResponse id) = 0 := by
      have hstarted := h.started
      have hadmitted := h.admitted
      omega
    have hrecord : ∀ record, (session.journal s.disk).memory[other]? = some record →
        s.history.countP (Event.isAdmission id) ≠ 0 →
        Recorded id s.history { record with response := some (retainedResponse response) } := by
      intro record hget hadmission
      rw [hid] at hget
      obtain ⟨old, hold, hrecorded⟩ := h.memory session hsession hadmission
      cases hget.symm.trans hold
      exact ⟨hrecorded.admitted, fun _ hmem => absurd hmem (response_not_mem hnone _),
        hrecorded.completed⟩
    cases hfinish : finishSubmit other response outcome (session.journal s.disk) with
    | mk journal result =>
    obtain ⟨-, rfl, rfl⟩ | ⟨record, hget, ⟨-, rfl, hm, hd⟩ | ⟨-, ⟨message, rfl⟩, hm, hd⟩⟩ :=
      finishSubmit_cases hfinish
    · exact hfewer.put hsession hw ⟨Keeps.refl _ _ _, Or.inl rfl⟩
    · rw [hid] at hm hd
      have hput := hfewer.putRecord hsession (hrecord record hget) (Or.inr hm) (Or.inr hd)
      have hheld : ∀ operations, operations[id]? =
          some { record with response := some (retainedResponse response) } →
          Held id s.history operations →
          Held id (s.history ++ [.responded other (retainedResponse response)]) operations := by
        intro operations hoperations hold
        obtain ⟨last, hlast, hrecorded⟩ := hold
        cases hoperations.symm.trans hlast
        refine ⟨_, hlast, ?_, ?_, ?_⟩
        · intro digest time key hmem
          simpa using hrecorded.admitted digest time key (by simpa using hmem)
        · intro told hmem
          obtain hmem | hmem := List.mem_append.mp hmem
          · exact absurd hmem (response_not_mem hnone _)
          · cases List.mem_singleton.mp hmem
            rfl
        · intro key told hmem
          exact hrecorded.completed key told (by simpa using hmem)
      refine hput.told rfl rfl ?_ ?_ ?_ ?_
      · dsimp only [Service.put]
        rw [countP_snoc]
        split <;> omega
      · rw [countP_snoc]
        exact hfewer.completed
      · refine hheld _ ?_
        dsimp only [Service.put]
        rw [hd]
        exact StringMap.get_insert_self _ _ _
      · intro current hcurrent
        cases hcurrent
        refine hheld _ ?_
        dsimp only
        rw [hm]
        exact StringMap.get_insert_self _ _ _
    · rw [hid] at hd
      exact hfewer.putRecord hsession (hrecord record hget) (Or.inl hm) hd
  · rw [if_neg hid] at hcount
    cases hfinish : finishSubmit other response outcome (session.journal s.disk) with
    | mk journal result =>
    have hput := hfewer.put hsession hw (cellKeeps_finishSubmit hfinish hid)
    have hevent : ∀ response, Event.isResponse id (.responded other response) = false := by
      intro response
      simpa [Event.isResponse] using hid
    split
    · rename_i saved heq
      cases heq
      refine hput.told rfl rfl ?_ ?_ ?_ ?_
      · rw [countP_snoc, hevent]
        exact hfewer.responded
      · rw [countP_snoc]
        exact hfewer.completed
      · intro hheld
        exact hheld.append rfl (hevent _) rfl
      · intro current _ hheld
        exact hheld.append rfl (hevent _) rfl
    · rename_i heq
      cases heq
      exact hput

/-- The completion of a typed operation. -/
theorem complete (h : Once id s) (hw : InWindow id s.history s.clock) (key : OperationKey)
    (value : ReplyBody) (outcome : Written) :
    Once id (host.complete s key value outcome).1 := by
  unfold Host.complete
  split
  · exact h
  rename_i hpending
  rw [not_not] at hpending
  have hcount : (s.pending.erase key).countP (recordId · == id) +
      (if recordId key = id then 1 else 0) = s.pending.countP (recordId · == id) := by
    rw [(List.perm_cons_erase hpending).countP_eq, List.countP_cons]
    simp only [beq_iff_eq]
  have hfewer := h.fewer s.waiting (s.pending.erase key) s.executing (Nat.le_refl _)
    (by omega) (Nat.le_refl _)
  have hcompleted := h.completed
  dsimp only
  split
  · exact hfewer
  rename_i session hsession
  cases hcomplete : host.rpcComplete key value outcome (session.journal s.disk) with
  | mk journal result =>
  by_cases hid : recordId key = id
  · rw [if_pos hid] at hcount
    have hnone : s.history.countP (Event.isCompletion id) = 0 := by
      have hadmitted := h.admitted
      omega
    obtain ⟨⟨error, rfl⟩, hm, hd⟩ | ⟨record, binding, hget, hrpc, hkey, -, hcase⟩ :=
      rpcComplete_cases hcomplete
    · exact hfewer.put hsession hw ⟨hm ▸ Keeps.refl _ _ _, Or.inl hd⟩
    have hrecord : s.history.countP (Event.isAdmission id) ≠ 0 →
        Recorded id s.history
          { record with rpc := some { binding with result := some value } } := by
      intro hadmission
      rw [hid] at hget
      obtain ⟨old, hold, hrecorded⟩ := h.memory session hsession hadmission
      cases hget.symm.trans hold
      refine ⟨?_, hrecorded.responded, fun other _ hmem hother =>
        absurd hmem (completion_not_mem hnone hother _)⟩
      have hadmitted := hrecorded.admitted
      rw [hrpc] at hadmitted
      exact hadmitted
    obtain ⟨-, rfl, hm, hd⟩ | ⟨-, ⟨error, rfl⟩, hm, hd⟩ := hcase
    · rw [hid] at hm hd
      have hput := hfewer.putRecord hsession hrecord (Or.inr hm) (Or.inr hd)
      have hheld : ∀ operations, operations[id]? =
          some { record with rpc := some { binding with result := some value } } →
          Held id s.history operations →
          Held id (s.history ++ [.completed key value]) operations := by
        intro operations hoperations hold
        obtain ⟨last, hlast, hrecorded⟩ := hold
        cases hoperations.symm.trans hlast
        refine ⟨_, hlast, ?_, ?_, ?_⟩
        · intro digest time other hmem
          simpa using hrecorded.admitted digest time other (by simpa using hmem)
        · intro told hmem
          exact hrecorded.responded told (by simpa using hmem)
        · intro other told hmem hother
          obtain hmem | hmem := List.mem_append.mp hmem
          · exact absurd hmem (completion_not_mem hnone hother _)
          · cases List.mem_singleton.mp hmem
            rw [← hkey]
      refine hput.told rfl rfl ?_ ?_ ?_ ?_
      · rw [countP_snoc]
        exact hfewer.responded
      · dsimp only [Service.put]
        rw [countP_snoc]
        split <;> omega
      · refine hheld _ ?_
        dsimp only [Service.put]
        rw [hd]
        exact StringMap.get_insert_self _ _ _
      · intro current hcurrent
        cases hcurrent
        refine hheld _ ?_
        dsimp only
        rw [hm]
        exact StringMap.get_insert_self _ _ _
    · rw [hid] at hd
      exact hfewer.putRecord hsession hrecord (Or.inl hm) hd
  · rw [if_neg hid] at hcount
    have hput := hfewer.put hsession hw (cellKeeps_rpcComplete hcomplete hid)
    have hevent : Event.isCompletion id (.completed key value) = false := by
      simpa [Event.isCompletion] using hid
    split
    · rename_i heq
      cases heq
      refine hput.told rfl rfl ?_ ?_ ?_ ?_
      · rw [countP_snoc]
        exact hfewer.responded
      · rw [countP_snoc, hevent]
        exact hfewer.completed
      · intro hheld
        exact hheld.append rfl rfl hevent
      · intro current _ hheld
        exact hheld.append rfl rfl hevent
    · rename_i heq
      cases heq
      exact hput

end Once

/-! ### Runs -/

/-- The clock does not go back. A typed session may have read it earlier. -/
def Monotone (s : Service) : Label → Prop
  | .clock now => s.clock ≤ now
  | .rpcAdmit now _ _ _ _ => now ≤ s.clock
  | _ => True

section Runs

variable {host : Host} {id : String} {s : Service} {label : Label}

/-- What every step keeps: the history only grows, and the clock stays. -/
def Continues (s t : Service) : Prop :=
  s.history <+: t.history ∧ t.clock = s.clock

theorem Once.new (id : String) : Once id .new := by
  constructor
  · exact Nat.zero_le _
  · exact Nat.le_refl _
  · exact Nat.le_refl _
  · exact Nat.le_refl _
  · intro h
    exact absurd rfl h
  · intro session h
    cases h

/-- One step keeps one admission, one start. -/
theorem Once.step (h : Once id s) (hretention : week ≤ host.retention) (hmono : Monotone s label)
    (hw : InWindow id s.history s.clock) : Once id (host.step s label).1 := by
  cases label with
  | clock now => exact ⟨h.admitted, h.started, h.responded, h.completed, h.disk, h.memory⟩
  | unlock outcome => exact h.unlock outcome
  | lock outcome => exact h.lock hw outcome
  | disconnect outcome => exact h.disconnect hw outcome
  | crash => exact h.crash
  | save outcome => exact h.save hw outcome
  | submit request aliases first second => exact h.submit hw request aliases first second
  | rpcAdmit now key digest deadline outcome =>
      exact h.rpcAdmit hw hretention hmono key digest deadline outcome
  | invoke key digest conversation text aliases outcome =>
      exact h.invoke hw key digest conversation text aliases outcome
  | finish other response outcome => exact h.finish hw other response outcome
  | abandon other =>
      exact h.fewer s.waiting s.pending (s.executing.erase other) (Nat.le_refl _) (Nat.le_refl _)
        (List.erase_sublist.count_le _)
  | complete key value outcome => exact h.complete hw key value outcome

end Runs

end Journal

end GChat
