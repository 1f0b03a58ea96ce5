import GChat.Journal.Service

/-!
# What the steps on the journal can do

One inversion lemma for each function on the journal, and what the functions do to
one record: apart from its own completions a record that has not expired keeps all
but its action and conversation.
-/

namespace GChat

namespace Journal

open Foundation Api

section Requests

variable {host : Host} {now : ℕ} {admitted : Bool} {request : Submit} {id : String}
  {operations candidate : Operations} {journal journal' : Cell Operations}

/-- An admitted submission passed the checks. A typed one has its record, a legacy one
gets a new record. -/
theorem decide_accept (h : host.decide now admitted request operations = .ok (.accept candidate)) :
    checkOperationId request.operationId = .ok () ∧ checkText request.text = .ok () ∧
      ((admitted = true ∧ candidate = operations ∧
          ∃ record, operations[request.operationId]? = some record ∧
            record.digest = host.digest request.conversation request.text ∧
            record.response = none) ∨
        (admitted = false ∧ operations[request.operationId]? = none ∧
          (prune week now operations).size < operationLimit ∧
          candidate = (prune week now operations).insert request.operationId
            (.new (host.digest request.conversation request.text) now none))) := by
  unfold Host.decide at h
  rw [bind_eq_ok] at h
  obtain ⟨_, hid, h⟩ := h
  rw [bind_eq_ok] at h
  obtain ⟨_, htext, h⟩ := h
  dsimp only at h
  constructor
  · exact hid
  constructor
  · exact htext
  cases hrecord : operations[request.operationId]? with
  | some record =>
      rw [hrecord] at h
      dsimp only at h
      rw [bind_eq_ok] at h
      obtain ⟨_, hdigest, h⟩ := h
      rw [refuse_eq_ok] at hdigest
      split at h
      · cases h
      case isFalse hadmitted =>
        cases h
        simp only [Bool.or_eq_true, not_or, Bool.not_eq_true, Bool.not_eq_false',
          Option.isSome_eq_false_iff, Option.isNone_iff_eq_none] at hadmitted
        obtain ⟨htyped, hresponse⟩ := hadmitted
        exact Or.inl ⟨htyped, rfl, record, rfl, by simpa using hdigest, hresponse⟩
  | none =>
      rw [hrecord] at h
      dsimp only at h
      rw [bind_eq_ok] at h
      obtain ⟨_, hadmitted, h⟩ := h
      rw [refuse_eq_ok] at hadmitted
      split at h
      · cases h
      case isFalse hroom =>
        cases h
        exact Or.inr ⟨hadmitted, rfl, by omega, rfl⟩

/-- A journal that stays full after the expired records are dropped. -/
theorem decide_full (h : host.decide now admitted request operations = .ok (.full candidate)) :
    checkOperationId request.operationId = .ok () ∧ checkText request.text = .ok () ∧
      admitted = false ∧ operations[request.operationId]? = none ∧
      candidate = prune week now operations := by
  unfold Host.decide at h
  rw [bind_eq_ok] at h
  obtain ⟨_, hid, h⟩ := h
  rw [bind_eq_ok] at h
  obtain ⟨_, htext, h⟩ := h
  dsimp only at h
  cases hrecord : operations[request.operationId]? with
  | some record =>
      rw [hrecord] at h
      dsimp only at h
      rw [bind_eq_ok] at h
      obtain ⟨_, -, h⟩ := h
      split at h
      · cases h
      · cases h
  | none =>
      rw [hrecord] at h
      dsimp only at h
      rw [bind_eq_ok] at h
      obtain ⟨_, hadmitted, h⟩ := h
      rw [refuse_eq_ok] at hadmitted
      split at h
      · cases h
        exact ⟨hid, htext, hadmitted, rfl, rfl⟩
      · cases h

/-- What a submission gets that the journal knows. -/
theorem decide_of_get {record : OperationRecord}
    (hid : checkOperationId request.operationId = .ok ()) (htext : checkText request.text = .ok ())
    (h : operations[request.operationId]? = some record) :
    host.decide now false request operations =
      if record.digest = host.digest request.conversation request.text then
        .ok (.answer (record.response.getD interrupted))
      else .error "operation identifier was already used for different contents" := by
  unfold Host.decide
  rw [hid, htext]
  dsimp only [bind, Except.bind]
  rw [h]
  by_cases hdigest : record.digest = host.digest request.conversation request.text
  · simp [hdigest, refuse, pure, Except.pure, Bind.bind, Except.bind]
  · simp [hdigest, refuse, Bind.bind, Except.bind]

theorem saveAdmission_cases {first : Written} {result : Except String Unit}
    (h : saveAdmission admitted candidate first journal = (journal', result)) :
    journal'.memory = journal.memory ∧
      ((result = .ok () ∧ admitted = true ∧ journal'.disk = journal.disk) ∨
        (result = .ok () ∧ first = .saved ∧ journal'.disk = candidate) ∨
        ((∃ message, result = .error message) ∧ first ≠ .saved ∧
          (journal'.disk = journal.disk ∨ journal'.disk = candidate))) := by
  unfold saveAdmission at h
  split at h
  case isTrue htyped =>
    cases h
    exact ⟨rfl, Or.inl ⟨rfl, htyped, rfl⟩⟩
  case isFalse =>
    obtain ⟨hmemory, ⟨hw, hr, hd⟩ | ⟨hw, hr, hd⟩⟩ := Cell.write_cases h
    · exact ⟨hmemory, Or.inr (Or.inl ⟨hr, hw, hd⟩)⟩
    · exact ⟨hmemory, Or.inr (Or.inr ⟨hr, hw, hd⟩)⟩

/-- What a submission does. Unless it was decided to admit it, at most the expired records
go. -/
theorem beginSubmit_cases {aliases : StringMap String} {first second : Written}
    {result : Except String Begun}
    (h : host.beginSubmit now admitted aliases request first second journal = (journal', result)) :
    ((journal' = journal ∨
          (host.decide now admitted request journal.memory =
              .ok (.full (prune week now journal.memory)) ∧
            journal' = { journal with memory := prune week now journal.memory })) ∧
        (∀ text, result ≠ .ok (.started text)) ∧
        ∀ candidate, host.decide now admitted request journal.memory ≠ .ok (.accept candidate)) ∨
      ∃ candidate, host.decide now admitted request journal.memory = .ok (.accept candidate) ∧
        (journal'.memory = candidate ∨ journal'.memory = describe request candidate) ∧
        ((journal'.disk = journal.disk ∧ (admitted = true ∨ first ≠ .saved)) ∨
          journal'.disk = candidate ∨ journal'.disk = describe request candidate) ∧
        (∀ text, result = .ok (.started text) → (admitted = true ∨ first = .saved) ∧
          journal'.memory = describe request candidate ∧
          journal'.disk = describe request candidate) := by
  unfold Host.beginSubmit at h
  cases hdecide : host.decide now admitted request journal.memory with
  | error message =>
      rw [hdecide] at h
      cases h
      exact Or.inl ⟨Or.inl rfl, by simp, by simp⟩
  | ok decision =>
      rw [hdecide] at h
      cases decision with
      | answer response =>
          cases h
          exact Or.inl ⟨Or.inl rfl, by simp, by simp⟩
      | full candidate =>
          obtain ⟨-, -, -, -, rfl⟩ := decide_full hdecide
          cases h
          exact Or.inl ⟨Or.inr ⟨rfl, rfl⟩, by simp, by simp⟩
      | accept candidate =>
          refine Or.inr ⟨candidate, rfl, ?_⟩
          dsimp only at h
          cases hfirst : saveAdmission admitted candidate first
              { journal with memory := candidate } with
          | mk saved answer =>
          rw [hfirst] at h
          obtain ⟨hmemory, hcase⟩ := saveAdmission_cases hfirst
          cases answer with
          | error message =>
              cases h
              obtain ⟨hr, -⟩ | ⟨hr, -⟩ | ⟨-, hw, hd⟩ := hcase
              · cases hr
              · cases hr
              · constructor
                · exact Or.inl hmemory
                constructor
                · obtain hd | hd := hd
                  · exact Or.inl ⟨hd, Or.inr hw⟩
                  · exact Or.inr (Or.inl hd)
                · simp
          | ok u =>
              dsimp only at h
              have hstart : admitted = true ∨ first = .saved := by
                obtain ⟨-, ha, -⟩ | ⟨-, hf, -⟩ | ⟨⟨message, hr⟩, -⟩ := hcase
                · exact Or.inl ha
                · exact Or.inr hf
                · cases hr
              have hdisk : (saved.disk = journal.disk ∧ (admitted = true ∨ first ≠ .saved)) ∨
                  saved.disk = candidate := by
                obtain ⟨-, ha, hd⟩ | ⟨-, -, hd⟩ | ⟨⟨message, hr⟩, -⟩ := hcase
                · exact Or.inl ⟨hd, Or.inl ha⟩
                · exact Or.inr hd
                · cases hr
              cases hsecond : ({ saved with memory := describe request candidate } :
                  Cell Operations).write (describe request candidate) second with
              | mk last answer =>
              rw [hsecond] at h
              obtain ⟨hlast, hlastDisk⟩ := Cell.write_cases hsecond
              have hend : journal' = last := by
                cases answer with
                | error message =>
                    cases h
                    rfl
                | ok u =>
                    cases h
                    rfl
              constructor
              · rw [hend]
                exact Or.inr hlast
              constructor
              · rw [hend]
                obtain ⟨-, -, hd⟩ | ⟨-, -, hd | hd⟩ := hlastDisk
                · exact Or.inr (Or.inr hd)
                · rw [hd]
                  obtain hd | hd := hdisk
                  · exact Or.inl hd
                  · exact Or.inr (Or.inl hd)
                · exact Or.inr (Or.inr hd)
              · intro text htext
                rw [hend]
                obtain ⟨-, -, hd⟩ | ⟨-, ⟨message, hr⟩, -⟩ := hlastDisk
                · exact ⟨hstart, hlast, hd⟩
                · rw [hr] at h
                  cases h
                  cases htext

/-- A finished command either finds no record, or its response is saved with the record. -/
theorem finishSubmit_cases {response : Response} {outcome : Written} {result : Finished}
    (h : finishSubmit id response outcome journal = (journal', result)) :
    (journal.memory[id]? = none ∧ journal' = journal ∧ result = .panicked) ∨
      ∃ record, journal.memory[id]? = some record ∧
        let next := journal.memory.insert id
          { record with response := some (retainedResponse response) }
        ((outcome = .saved ∧ result = .recorded response ∧ journal'.memory = next ∧
            journal'.disk = next) ∨
          (outcome ≠ .saved ∧ (∃ message, result = .failed message) ∧
            journal'.memory = journal.memory ∧
            (journal'.disk = journal.disk ∨ journal'.disk = next))) := by
  unfold finishSubmit at h
  cases hrecord : journal.memory[id]? with
  | none =>
      rw [hrecord] at h
      cases h
      exact Or.inl ⟨rfl, rfl, rfl⟩
  | some record =>
      rw [hrecord] at h
      refine Or.inr ⟨record, rfl, ?_⟩
      dsimp only at h ⊢
      cases hpublish : journal.publish (journal.memory.insert id
          { record with response := some (retainedResponse response) }) outcome with
      | mk last answer =>
      rw [hpublish] at h
      obtain ⟨ho, hr, hm, hd⟩ | ⟨ho, ⟨message, hr⟩, hm, hd⟩ := Cell.publish_cases hpublish
      · rw [hr] at h
        cases h
        exact Or.inl ⟨ho, rfl, hm, hd⟩
      · rw [hr] at h
        cases h
        exact Or.inr ⟨ho, ⟨message, rfl⟩, hm, hd.imp_right And.right⟩

end Requests

section Typed

variable {host : Host} {now deadline : ℕ} {key : OperationKey} {digest : String}
  {journal journal' : Cell Operations} {outcome : Written}

/-- A typed admission that gets as far as dropping the expired records. -/
structure Host.Attempts (host : Host) (now : ℕ) (key : OperationKey) (deadline : ℕ)
    (operations : Operations) : Prop where
  checked : host.checkKey key = .ok ()
  unknown : host.retained now key operations = none
  deadline : now < deadline ∧ deadline ≤ saturatingAdd now 600
  room : (prune host.retention now operations).size < operationLimit

/-- A typed admission is new only where no record of the operation is retained, and changes
the visible journal only then. -/
theorem rpcAdmit_cases {result : Except RpcError Admission}
    (h : host.rpcAdmit now key digest deadline outcome journal = (journal', result)) :
    (result ≠ .ok .new ∧ journal'.memory = journal.memory ∧
        (journal'.disk = journal.disk ∨
          (host.Attempts now key deadline journal.memory ∧ outcome.replaces = true ∧
            journal'.disk = host.rpcCandidate now key digest journal.memory))) ∨
      (result = .ok .new ∧ outcome = .saved ∧ host.Attempts now key deadline journal.memory ∧
        journal'.memory = host.rpcCandidate now key digest journal.memory ∧
        journal'.disk = host.rpcCandidate now key digest journal.memory) := by
  unfold Host.rpcAdmit at h
  cases hkey : host.checkKey key with
  | error error =>
      rw [hkey] at h
      cases h
      exact Or.inl ⟨by simp, rfl, Or.inl rfl⟩
  | ok u =>
      rw [hkey] at h
      dsimp only at h
      cases hretained : host.retained now key journal.memory with
      | some old =>
          rw [hretained] at h
          dsimp only at h
          split at h
          · cases h
            exact Or.inl ⟨by simp, rfl, Or.inl rfl⟩
          · cases h
            refine Or.inl ⟨?_, rfl, Or.inl rfl⟩
            cases host.rpcRecord key old with
            | error error => simp [Except.map]
            | ok known => simp [Except.map]
      | none =>
          rw [hretained] at h
          dsimp only at h
          split at h
          · cases h
            exact Or.inl ⟨by simp, rfl, Or.inl rfl⟩
          rename_i hdeadline
          split at h
          · cases h
            exact Or.inl ⟨by simp, rfl, Or.inl rfl⟩
          rename_i hroom
          have hattempts : host.Attempts now key deadline journal.memory :=
            ⟨hkey, hretained, by omega, by omega⟩
          cases hpublish : journal.publish (host.rpcCandidate now key digest journal.memory)
              outcome with
          | mk last answer =>
          rw [hpublish] at h
          obtain ⟨ho, hr, hm, hd⟩ | ⟨ho, ⟨message, hr⟩, hm, hd⟩ := Cell.publish_cases hpublish
          · rw [hr] at h
            cases h
            exact Or.inr ⟨rfl, ho, hattempts, hm, hd⟩
          · rw [hr] at h
            cases h
            refine Or.inl ⟨by simp, hm, ?_⟩
            obtain hd | ⟨hreplaces, hd⟩ := hd
            · exact Or.inl hd
            · exact Or.inr ⟨hattempts, hreplaces, hd⟩

/-- What a typed admission is told about an operation whose record is retained. -/
theorem rpcAdmit_of_retained {old : OperationRecord} (hkey : host.checkKey key = .ok ())
    (h : host.retained now key journal.memory = some old) :
    host.rpcAdmit now key digest deadline outcome journal =
      if old.digest = digest then (journal, (host.rpcRecord key old).map .existing)
      else (journal, .error ⟨.conflict, "operation ID was used with different contents"⟩) := by
  unfold Host.rpcAdmit
  rw [hkey]
  dsimp only
  rw [h]
  dsimp only
  rw [ite_not]

/-- A typed result is saved with a record that has this key and no other result. -/
theorem rpcComplete_cases {value : ReplyBody} {result : Except RpcError Unit}
    (h : host.rpcComplete key value outcome journal = (journal', result)) :
    ((∃ error, result = .error error) ∧ journal'.memory = journal.memory ∧
        journal'.disk = journal.disk) ∨
      ∃ record binding, journal.memory[recordId key]? = some record ∧
        record.rpc = some binding ∧ binding.key = key ∧
        (∀ old, binding.result = some old → old = value) ∧
        let next := journal.memory.insert (recordId key)
          { record with rpc := some { binding with result := some value } }
        ((outcome = .saved ∧ result = .ok () ∧ journal'.memory = next ∧ journal'.disk = next) ∨
          (outcome ≠ .saved ∧ (∃ error, result = .error error) ∧
            journal'.memory = journal.memory ∧
            (journal'.disk = journal.disk ∨ journal'.disk = next))) := by
  unfold Host.rpcComplete at h
  split at h
  · cases h
    exact Or.inl ⟨⟨_, rfl⟩, rfl, rfl⟩
  · cases hrecord : journal.memory[recordId key]? with
    | none =>
        rw [hrecord] at h
        cases h
        exact Or.inl ⟨⟨_, rfl⟩, rfl, rfl⟩
    | some record =>
        rw [hrecord] at h
        dsimp only at h
        cases hbinding : record.rpc with
        | none =>
            rw [hbinding] at h
            cases h
            exact Or.inl ⟨⟨_, rfl⟩, rfl, rfl⟩
        | some binding =>
            rw [hbinding] at h
            dsimp only at h
            split at h
            · cases h
              exact Or.inl ⟨⟨_, rfl⟩, rfl, rfl⟩
            case isFalse hkey =>
              split at h
              · cases h
                exact Or.inl ⟨⟨_, rfl⟩, rfl, rfl⟩
              case isFalse hold =>
                refine Or.inr ⟨record, binding, rfl, hbinding, not_not.mp hkey, ?_, ?_⟩
                · intro old hresult
                  rw [hresult] at hold
                  simpa using hold
                · dsimp only at h ⊢
                  cases hpublish : journal.publish (journal.memory.insert (recordId key)
                      { record with rpc := some { binding with result := some value } })
                      outcome with
                  | mk last answer =>
                  rw [hpublish] at h
                  obtain ⟨ho, hr, hm, hd⟩ | ⟨ho, ⟨message, hr⟩, hm, hd⟩ :=
                    Cell.publish_cases hpublish
                  · rw [hr] at h
                    cases h
                    exact Or.inl ⟨ho, rfl, hm, hd⟩
                  · rw [hr] at h
                    cases h
                    exact Or.inr ⟨ho, ⟨_, rfl⟩, hm, hd.imp_right And.right⟩

end Typed

end Journal

end GChat
