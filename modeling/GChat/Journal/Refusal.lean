import GChat.Journal.Present

/-!
# Refused requests

A typed admission whose save fails leaves the visible journal as it was. A legacy
submission edits the journal in place, so a failed save leaves its record behind,
and an alias that cannot be expanded leaves a record without a response. These are
the only requests that do not end cleanly.
-/

namespace GChat

namespace Journal

open Foundation Api

/-- A request that admits an operation, and what its saves and the local checks report. -/
inductive Attempt where
  | submit (admitted : Bool) (aliases : StringMap String) (request : Submit)
      (first second : Written) (checked : Except String Unit)
  | rpcAdmit (key : OperationKey) (digest : String) (deadline : ℕ) (outcome : Written)

def Host.Admits (host : Host) (now : ℕ) (admitted : Bool) (request : Submit)
    (operations : Operations) : Prop :=
  ∃ candidate, host.decide now admitted request operations = .ok (.accept candidate)

/-- The record of an operation says that it was refused. -/
def Rejected (id message : String) (operations : Operations) : Prop :=
  ∃ record, operations[id]? = some record ∧ record.response = some (.error "rejected" message)

/-- A request ends cleanly: a failed save of the admission leaves the visible journal as it
was, and a command that is refused before anything is sent has this refusal recorded. -/
def Host.Clean (host : Host) (now : ℕ) (journal : Cell Operations) : Attempt → Prop
  | .submit admitted aliases request first second checked =>
      let begun := host.beginSubmit now admitted aliases request first second journal
      (admitted = false → host.Admits now admitted request journal.memory →
        first ≠ .saved ∨ second ≠ .saved → begun.1.memory = journal.memory) ∧
      (host.Admits now admitted request journal.memory → admitted = true ∨ first = .saved →
        second = .saved → ∀ message, expand aliases request.text = .error message →
        Rejected request.operationId message begun.1.memory) ∧
      ∀ text message, begun.2 = .ok (.started text) → checked = .error message →
        ∀ (later : Cell Operations) (record : OperationRecord) (sent : Except String Response),
          later.memory[request.operationId]? = some record →
          Rejected request.operationId message
            (finishCommand request.operationId checked sent (.ok ()) .saved later).1.memory
  | .rpcAdmit key digest deadline outcome =>
      ∀ error, (host.rpcAdmit now key digest deadline outcome journal).2 = .error error →
        (host.rpcAdmit now key digest deadline outcome journal).1.memory = journal.memory

/-- The saves of an admitted legacy submission succeed, and its alias can be expanded. -/
def Host.Smooth (host : Host) (now : ℕ) (journal : Cell Operations) : Attempt → Prop
  | .submit admitted aliases request first second _ =>
      host.Admits now admitted request journal.memory →
        (admitted = false → first = .saved ∧ second = .saved) ∧
        (second = .saved → ∃ text, expand aliases request.text = .ok text)
  | .rpcAdmit _ _ _ _ => True

section Submissions

variable {host : Host} {now : ℕ} {admitted : Bool} {aliases : StringMap String}
  {request : Submit} {first second : Written} {journal : Cell Operations}
  {candidate : Operations}

/-- An admitted submission whose record was saved. -/
theorem beginSubmit_saved (hdecide : host.decide now admitted request journal.memory =
      .ok (.accept candidate)) (hfirst : admitted = true ∨ first = .saved)
    (hsecond : second = .saved) :
    host.beginSubmit now admitted aliases request first second journal =
      (⟨describe request candidate, describe request candidate⟩,
        (expand aliases request.text).map .started) := by
  unfold Host.beginSubmit saveAdmission
  rw [hdecide]
  dsimp only
  rw [hsecond]
  cases admitted with
  | true => rfl
  | false =>
      obtain hfirst | rfl := hfirst
      · cases hfirst
      · rfl

/-- The record of an admitted submission has no response yet. -/
theorem admitted_response (hdecide : host.decide now admitted request journal.memory =
      .ok (.accept candidate)) :
    ∃ record, (describe request candidate)[request.operationId]? = some record ∧
      record.response = none := by
  have hcandidate : ∃ record, candidate[request.operationId]? = some record ∧
      record.response = none := by
    obtain ⟨-, -, ⟨-, rfl, record, hget, -, hresponse⟩ | ⟨-, -, -, rfl⟩⟩ := decide_accept hdecide
    · exact ⟨record, hget, hresponse⟩
    · exact ⟨_, StringMap.get_insert_self _ _ _, rfl⟩
  obtain ⟨record, hget, hresponse⟩ := hcandidate
  have hcore := describe_core request candidate request.operationId
  rw [hget, Option.map_some, Option.map_eq_some_iff] at hcore
  obtain ⟨last, hlast, hcore⟩ := hcore
  simp only [OperationRecord.core, Prod.mk.injEq] at hcore
  exact ⟨last, hlast, hcore.2.2.1.trans hresponse⟩

/-- The visible journal has the record of an admitted legacy submission, saved or not. -/
theorem admitted_visible (aliases : StringMap String) (first second : Written)
    (hdecide : host.decide now false request journal.memory =
      .ok (.accept candidate)) :
    journal.memory[request.operationId]? = none ∧
      ((host.beginSubmit now false aliases request first second journal).1.memory)[
        request.operationId]? ≠ none := by
  obtain ⟨-, -, ⟨hfalse, -⟩ | ⟨-, hnone, -, hcandidate⟩⟩ := decide_accept hdecide
  · cases hfalse
  refine ⟨hnone, ?_⟩
  cases hbegin : host.beginSubmit now false aliases request first second journal with
  | mk after begun =>
  obtain ⟨-, -, hadmission⟩ | ⟨other, hother, hm, -, -⟩ := beginSubmit_cases hbegin
  · exact absurd hdecide (hadmission _)
  · cases hdecide.symm.trans hother
    obtain hm | hm := hm
    · dsimp only
      rw [hm, hcandidate, StringMap.get_insert_self]
      exact Option.some_ne_none _
    · obtain ⟨record, hget, -⟩ := admitted_response hdecide
      dsimp only
      rw [hm, hget]
      exact Option.some_ne_none _

theorem rejected_finish {id message : String} {later : Cell Operations} {record : OperationRecord}
    (hget : later.memory[id]? = some record) (sent : Except String Response) :
    Rejected id message
      (finishCommand id (.error message) sent (.ok ()) .saved later).1.memory := by
  unfold finishCommand finishSubmit
  dsimp only
  rw [hget]
  exact ⟨_, StringMap.get_insert_self _ _ _, rfl⟩

/-- A submission ends cleanly exactly when its saves succeed and its alias expands. -/
theorem clean_submit_iff (checked : Except String Unit) :
    host.Clean now journal (.submit admitted aliases request first second checked) ↔
      host.Smooth now journal (.submit admitted aliases request first second checked) := by
  constructor
  · intro h hadmits
    obtain ⟨hrollback, hexpanded, -⟩ := h
    obtain ⟨candidate, hdecide⟩ := hadmits
    have hsaves : admitted = false → first = .saved ∧ second = .saved := by
      intro hlegacy
      by_contra hfails
      have hor : first ≠ .saved ∨ second ≠ .saved := by
        by_cases hfirst : first = .saved
        · exact Or.inr fun hsecond => hfails ⟨hfirst, hsecond⟩
        · exact Or.inl hfirst
      have hsame := hrollback hlegacy ⟨candidate, hdecide⟩ hor
      rw [hlegacy] at hdecide hsame
      obtain ⟨hnone, hvisible⟩ := admitted_visible aliases first second hdecide
      rw [hsame] at hvisible
      exact hvisible hnone
    refine ⟨hsaves, ?_⟩
    intro hsecond
    cases hexpand : expand aliases request.text with
    | ok text => exact ⟨text, rfl⟩
    | error message =>
        have hfirst : admitted = true ∨ first = .saved := by
          cases admitted with
          | true => exact Or.inl rfl
          | false => exact Or.inr (hsaves rfl).1
        obtain ⟨record, hget, hresponse⟩ := hexpanded ⟨candidate, hdecide⟩ hfirst hsecond
          message hexpand
        rw [beginSubmit_saved hdecide hfirst hsecond] at hget
        obtain ⟨other, hother, hnone⟩ := admitted_response hdecide
        cases hget.symm.trans hother
        rw [hnone] at hresponse
        cases hresponse
  · intro h
    refine ⟨?_, ?_, ?_⟩
    · intro hlegacy hadmits hfails
      obtain ⟨hsaves, -⟩ := h hadmits
      obtain ⟨hfirst, hsecond⟩ := hsaves hlegacy
      obtain hfails | hfails := hfails
      · exact absurd hfirst hfails
      · exact absurd hsecond hfails
    · intro hadmits _ hsecond message hexpand
      obtain ⟨text, htext⟩ := (h hadmits).2 hsecond
      rw [hexpand] at htext
      cases htext
    · intro text message _ hchecked later record sent hget
      rw [hchecked]
      exact rejected_finish hget sent

end Submissions

/-- A request ends cleanly exactly when it is a typed admission, or the saves of its
admission succeed and its alias expands. -/
theorem clean_iff (host : Host) (now : ℕ) (journal : Cell Operations) (attempt : Attempt) :
    host.Clean now journal attempt ↔ host.Smooth now journal attempt := by
  cases attempt with
  | submit admitted aliases request first second checked => exact clean_submit_iff checked
  | rpcAdmit key digest deadline outcome =>
      refine iff_of_true ?_ trivial
      intro error herror
      cases hadmission : host.rpcAdmit now key digest deadline outcome journal with
      | mk after result =>
      rw [hadmission] at herror
      dsimp only at herror ⊢
      obtain ⟨-, hm, -⟩ | ⟨hnew, -⟩ := rpcAdmit_cases hadmission
      · exact hm
      · rw [hnew] at herror
        cases herror

/-- A save that fails leaves the record of the submission behind, and its retry is told that
the outcome is unknown. -/
theorem failed_save_not_clean :
    let request : Submit := ⟨"0123456789abcdef", none, "hello"⟩
    ¬ sampleHost.Clean 1000 ⟨∅, ∅⟩ (.submit false ∅ request (.failed "disk full") .saved (.ok ())) ∧
      (sampleHost.beginSubmit 1001 false ∅ request .saved .saved
        (sampleHost.beginSubmit 1000 false ∅ request (.failed "disk full") .saved ⟨∅, ∅⟩).1).2 =
          .ok (.answered interrupted) := by
  constructor
  · intro h
    have hsmooth := (clean_submit_iff (.ok ())).mp h
    have hsaves := (hsmooth ⟨_, rfl⟩).1 rfl
    exact absurd hsaves.1 (by decide)
  · rfl

end Journal

end GChat
