import GChat.Journal.OnceSteps

/-!
# At most once

In every run with a clock that does not go back, and inside the retention window of
an operation, the operation is started at most once, other contents under its
identifier are refused, and its recorded response is what a retry is answered. A
typed retry of a typed operation is answered with the typed result, which has a
commit of its own.
-/

namespace GChat

namespace Journal

open Foundation Api

/-- The identifier and the digest a request brings. -/
def Host.requested (host : Host) : Label → Option (String × String)
  | .submit request _ _ _ =>
      if lifecycleRequest request.text = .submit then
        some (request.operationId, host.digest request.conversation request.text)
      else none
  | .rpcAdmit _ key digest _ _ => some (recordId key, digest)
  | .invoke key _ conversation text _ _ =>
      if key.method = "submit" then some (recordId key, host.digest conversation text) else none
  | _ => none

theorem requested_cases {host : Host} {label : Label} {id digest : String}
    (h : host.requested label = some (id, digest)) :
    (∃ request aliases first second, label = .submit request aliases first second ∧
        lifecycleRequest request.text = .submit ∧ request.operationId = id ∧
        host.digest request.conversation request.text = digest) ∨
      (∃ now key deadline outcome, label = .rpcAdmit now key digest deadline outcome ∧
        recordId key = id) ∨
      ∃ key admitted conversation text aliases outcome,
        label = .invoke key admitted conversation text aliases outcome ∧ key.method = "submit" ∧
        recordId key = id ∧ host.digest conversation text = digest := by
  cases label with
  | submit request aliases first second =>
      by_cases hlifecycle : lifecycleRequest request.text = .submit
      · simp only [Host.requested, hlifecycle, if_true, Option.some.injEq, Prod.mk.injEq] at h
        exact Or.inl ⟨_, _, _, _, rfl, hlifecycle, h.1, h.2⟩
      · simp only [Host.requested, hlifecycle, if_false, reduceCtorEq] at h
  | rpcAdmit now key other deadline outcome =>
      simp only [Host.requested, Option.some.injEq, Prod.mk.injEq] at h
      obtain ⟨hid, rfl⟩ := h
      exact Or.inr (Or.inl ⟨_, _, _, _, rfl, hid⟩)
  | invoke key admitted conversation text aliases outcome =>
      by_cases hmethod : key.method = "submit"
      · simp only [Host.requested, hmethod, if_true, Option.some.injEq, Prod.mk.injEq] at h
        exact Or.inr (Or.inr ⟨_, _, _, _, _, _, rfl, hmethod, h.1, h.2⟩)
      · simp only [Host.requested, hmethod, if_false, reduceCtorEq] at h
  | clock | unlock | lock | disconnect | crash | save | finish | abandon | complete =>
      simp only [Host.requested, reduceCtorEq] at h

/-- Nothing is admitted, started or recorded. -/
def Host.Idle (host : Host) (s : Service) (label : Label) : Prop :=
  (host.step s label).1.history = s.history

section Requests

variable {host : Host} {id digest : String} {s : Service} {session : Session}
  {request : Submit} {aliases : StringMap String} {first second outcome : Written}
  {record : OperationRecord} {key : OperationKey} {now deadline : ℕ}

theorem put_self (hsession : s.session = some session) :
    s.put session (session.journal s.disk) = s := by
  unfold Service.put Session.journal
  rw [← hsession]

/-- A legacy submission under an identifier that has a record. -/
theorem submit_of_get (host : Host) (aliases : StringMap String) (first second : Written)
    (hlifecycle : lifecycleRequest request.text = .submit)
    (hunlocked : s.unlocked = some session)
    (hget : session.operations[request.operationId]? = some record) :
    ∃ result, host.step s (.submit request aliases first second) = (s, .submitted result) ∧
      (record.digest ≠ host.digest request.conversation request.text →
        ∃ message, result = .error message) ∧
      (checkOperationId request.operationId = .ok () → checkText request.text = .ok () →
        record.digest = host.digest request.conversation request.text →
        result = .ok (.answered (record.response.getD interrupted))) := by
  have hsession := unlocked_session hunlocked
  have hdecide : ∃ decision : Except String Response,
      host.decide s.clock false request session.operations = decision.map .answer ∧
      (record.digest ≠ host.digest request.conversation request.text →
        ∃ message, decision = .error message) ∧
      (checkOperationId request.operationId = .ok () → checkText request.text = .ok () →
        record.digest = host.digest request.conversation request.text →
        decision = .ok (record.response.getD interrupted)) := by
    cases hid : checkOperationId request.operationId with
    | error message =>
        refine ⟨.error message, ?_, fun _ => ⟨_, rfl⟩, fun h => nomatch h⟩
        unfold Host.decide
        rw [hid]
        rfl
    | ok _ =>
    cases htext : checkText request.text with
    | error message =>
        refine ⟨.error message, ?_, fun _ => ⟨_, rfl⟩, fun _ h => nomatch h⟩
        unfold Host.decide
        rw [hid, htext]
        rfl
    | ok _ =>
    rw [decide_of_get hid htext hget]
    by_cases hdigest : record.digest = host.digest request.conversation request.text
    · rw [if_pos hdigest]
      exact ⟨.ok _, rfl, fun h => absurd hdigest h, fun _ _ _ => rfl⟩
    · rw [if_neg hdigest]
      exact ⟨.error _, rfl, fun _ => ⟨_, rfl⟩, fun _ _ h => absurd h hdigest⟩
  obtain ⟨decision, hdecide, hrefused, hanswered⟩ := hdecide
  refine ⟨decision.map .answered, ?_, ?_, ?_⟩
  · change host.submit s request aliases first second = _
    unfold Host.submit Host.admissionEvents
    rw [hlifecycle, hunlocked]
    dsimp only
    unfold Host.beginSubmit
    rw [show (session.journal s.disk).memory = session.operations from rfl, hdecide]
    cases decision with
    | error message =>
        dsimp only [Except.map, Host.start]
        rw [List.append_nil, put_self hsession]
    | ok response =>
        dsimp only [Except.map, Host.start]
        rw [List.append_nil, put_self hsession]
  · intro hdigest
    obtain ⟨message, rfl⟩ := hrefused hdigest
    exact ⟨message, rfl⟩
  · intro hid htext hdigest
    rw [hanswered hid htext hdigest]
    rfl

/-- A typed admission under an identifier that has a retained record. -/
theorem admit_of_get (host : Host) (digest : String) (deadline : ℕ) (outcome : Written)
    (hunlocked : s.unlocked = some session)
    (hget : session.operations[recordId key]? = some record)
    (hfresh : record.fresh host.retention now = true) :
    ∃ result, host.step s (.rpcAdmit now key digest deadline outcome) = (s, .admission result) ∧
      (record.digest ≠ digest → ∃ error, result = .error error) ∧
      (host.checkKey key = .ok () → record.digest = digest →
        result = (host.rpcRecord key record).map .existing) := by
  have hsession := unlocked_session hunlocked
  have hretained : host.retained now key (session.journal s.disk).memory = some record := by
    unfold Host.retained Session.journal
    rw [hget, Option.filter_some, if_pos hfresh]
  have hadmission : ∃ result, host.rpcAdmit now key digest deadline outcome (session.journal s.disk) =
      (session.journal s.disk, result) ∧ result ≠ .ok .new ∧
      (record.digest ≠ digest → ∃ error, result = .error error) ∧
      (host.checkKey key = .ok () → record.digest = digest →
        result = (host.rpcRecord key record).map .existing) := by
    cases hkey : host.checkKey key with
    | error error =>
        refine ⟨.error error, ?_, by simp, fun _ => ⟨_, rfl⟩, fun h => nomatch h⟩
        unfold Host.rpcAdmit
        rw [hkey]
    | ok _ =>
        rw [rpcAdmit_of_retained hkey hretained]
        by_cases hdigest : record.digest = digest
        · rw [if_pos hdigest]
          refine ⟨_, rfl, ?_, fun h => absurd hdigest h, fun _ _ => rfl⟩
          cases host.rpcRecord key record with
          | error error => simp [Except.map]
          | ok known => simp [Except.map]
        · rw [if_neg hdigest]
          exact ⟨_, rfl, by simp, fun _ => ⟨_, rfl⟩, fun _ h => absurd h hdigest⟩
  obtain ⟨result, hadmission, hnew, hrefused, hknown⟩ := hadmission
  refine ⟨result, ?_, hrefused, hknown⟩
  change host.admitTyped s now key digest deadline outcome = _
  unfold Host.admitTyped
  rw [hunlocked]
  dsimp only
  rw [hadmission]
  split
  · rename_i heq
    cases heq
    exact absurd rfl hnew
  · rename_i heq
    cases heq
    rw [put_self hsession]

theorem invoke_idle {admitted text : String} {conversation : Option String}
    (hwaiting : (key, admitted) ∉ s.waiting) :
    host.Idle s (.invoke key admitted conversation text aliases outcome) := by
  change (host.invoke s key admitted conversation text aliases outcome).1.history = s.history
  unfold Host.invoke
  rw [if_pos hwaiting]

theorem locked_idle (hlifecycle : lifecycleRequest request.text = .submit)
    (hlocked : s.unlocked = none) :
    host.step s (.submit request aliases first second) = (s, .locked) := by
  change host.submit s request aliases first second = _
  unfold Host.submit
  rw [hlifecycle, hlocked]

theorem locked_admitTyped (hlocked : s.unlocked = none) :
    host.step s (.rpcAdmit now key digest deadline outcome) = (s, .locked) := by
  change host.admitTyped s now key digest deadline outcome = _
  unfold Host.admitTyped
  rw [hlocked]

end Requests

section Claim

variable {host : Host} {id : String} {s : Service}

/-- The record of an admitted operation, seen by an unlocked session. -/
theorem Once.record (h : Once id s) (hw : InWindow id s.history s.clock)
    (hadmission : s.history.countP (Event.isAdmission id) ≠ 0) {session : Session}
    (hsession : s.session = some session) :
    ∃ record, session.operations[id]? = some record ∧ Recorded id s.history record ∧
      record.fresh week s.clock = true := by
  obtain ⟨record, hget, hrecorded⟩ := h.memory session hsession hadmission
  exact ⟨record, hget, hrecorded, hrecorded.fresh hadmission hw⟩

theorem not_waiting {key : OperationKey} {digest : String} (hkey : recordId key = id)
    (hzero : s.waiting.countP (fun w => recordId w.1 == id) = 0) : (key, digest) ∉ s.waiting := by
  intro hmem
  have := List.countP_eq_zero.mp hzero _ hmem
  simp [hkey] at this

/-- Requests for an operation that has its record and is not waiting for its start. -/
theorem Once.idle (h : Once id s) (hw : InWindow id s.history s.clock)
    (hretention : week ≤ host.retention) {label : Label} {digest : String}
    (hadmission : s.history.countP (Event.isAdmission id) ≠ 0)
    (hzero : s.waiting.countP (fun w => recordId w.1 == id) = 0) (hmono : Monotone s label)
    (hrequest : host.requested label = some (id, digest)) : host.Idle s label := by
  unfold Host.Idle
  obtain ⟨request, aliases, first, second, rfl, hlifecycle, hid, -⟩ |
    ⟨now, key, deadline, outcome, rfl, hid⟩ |
    ⟨key, admitted, conversation, text, aliases, outcome, rfl, -, hid, -⟩ :=
      requested_cases hrequest
  · cases hunlocked : s.unlocked with
    | none => rw [locked_idle hlifecycle hunlocked]
    | some session =>
        obtain ⟨record, hget, -, -⟩ := h.record hw hadmission (unlocked_session hunlocked)
        rw [← hid] at hget
        obtain ⟨result, hstep, -⟩ :=
          submit_of_get host aliases first second hlifecycle hunlocked hget
        rw [hstep]
  · cases hunlocked : s.unlocked with
    | none => rw [locked_admitTyped hunlocked]
    | some session =>
        obtain ⟨record, hget, -, hfresh⟩ := h.record hw hadmission (unlocked_session hunlocked)
        rw [← hid] at hget
        obtain ⟨result, hstep, -⟩ := admit_of_get host digest deadline outcome hunlocked hget
          (fresh_mono hretention hmono hfresh)
        rw [hstep]
  · exact invoke_idle (not_waiting hid hzero)

end Claim

/-! ### A typed operation before its completion -/

/-- The digests of two submissions. -/
def sampleDigest (conversation : Option String) (text : String) : String :=
  if conversation = none ∧ text = "hello" then
    "909638bc2ce151835ded0d99b9e81bf127d1753748a55c4e4d2a39d680780ea6"
  else "24477ddc1fe85a4c26c6b4cc2452fac18e54e417e2709e2cadcf6a0da9b38432"

def sampleHost : Host :=
  { id := "phone", digest := sampleDigest, retention := week,
    encodeOutcome := fun
      | .ok _ => .ok "applied"
      | .error error => .error error.message }

def Host.run (host : Host) (labels : List Label) : Service :=
  labels.foldl (fun s label => (host.step s label).1) .new

end Journal

end GChat
