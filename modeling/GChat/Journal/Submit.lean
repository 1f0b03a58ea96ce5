import GChat.Journal.Model

/-!
# Submitting an operation

The steps of the submit handler, split where it waits. `beginSubmit` runs under
the session lock: it admits the operation, saves the record, names the action in
it and saves again, and expands aliases. The command then runs without the lock.
`finishSubmit` takes the lock again and records the response.
-/

namespace GChat

namespace Journal

open Foundation Api

/-- What the journal says about a submission. -/
inductive Decision where
  | answer (response : Response)
  | full (operations : Operations)
  | accept (operations : Operations)

def interrupted : Response :=
  .error "outcome_unknown" "Operation was interrupted after admission; delivery is unknown. It will not be sent again automatically."

/-- The record of an operation that was just admitted. -/
def OperationRecord.new (digest : String) (now : ℕ) (rpc : Option RecordBinding) :
    OperationRecord :=
  { action := "", conversation := none, digest := digest, admittedAt := now, response := none,
    rpc := rpc }

/-- Admit a submission. A typed submission was `admitted` before and must have its record. -/
def Host.decide (host : Host) (now : ℕ) (admitted : Bool) (request : Submit)
    (operations : Operations) : Except String Decision := do
  checkOperationId request.operationId
  checkText request.text
  let digest := host.digest request.conversation request.text
  match operations[request.operationId]? with
  | some previous =>
      refuse (previous.digest != digest)
        "operation identifier was already used for different contents"
      if !admitted || previous.response.isSome then
        return .answer (previous.response.getD interrupted)
      else return .accept operations
  | none =>
      refuse admitted "RPC operation admission is missing"
      let operations := prune week now operations
      if operationLimit ≤ operations.size then return .full operations
      else return .accept (operations.insert request.operationId (.new digest now none))

/-- The name of the action, without arguments, credentials or message bodies. -/
def actionName (text : String) : String :=
  if text.startsWith "/" then (splitWhitespace text).headD "Command" else "Send message"

def describe (request : Submit) (operations : Operations) : Operations :=
  match operations[request.operationId]? with
  | none => operations
  | some record =>
      operations.insert request.operationId
        { record with action := actionName request.text, conversation := request.conversation }

/-- A typed operation was saved when it was admitted. -/
def saveAdmission (admitted : Bool) (operations : Operations) (outcome : Written)
    (journal : Cell Operations) : Cell Operations × Except String Unit :=
  if admitted then (journal, .ok ()) else journal.write operations outcome

inductive Begun where
  | answered (response : Response)
  | started (text : String)

/-- The first part of the handler. The saves report `first` and `second`. -/
def Host.beginSubmit (host : Host) (now : ℕ) (admitted : Bool) (aliases : StringMap String)
    (request : Submit) (first second : Written) (journal : Cell Operations) :
    Cell Operations × Except String Begun :=
  match host.decide now admitted request journal.memory with
  | .error message => (journal, .error message)
  | .ok (.answer response) => (journal, .ok (.answered response))
  -- the expired records are dropped in place, and the new one is there before it is saved
  | .ok (.full operations) =>
      ({ journal with memory := operations },
        .error "chat operation journal is full; retry after retained entries expire")
  | .ok (.accept operations) =>
      match saveAdmission admitted operations first { journal with memory := operations } with
      | (journal, .error message) => (journal, .error message)
      | (journal, .ok _) =>
          let operations := describe request operations
          match ({ journal with memory := operations } : Cell Operations).write operations second with
          | (journal, .error message) => (journal, .error message)
          | (journal, .ok _) => (journal, (expand aliases request.text).map .started)

/-- How a running operation ends. -/
inductive Finished where
  | recorded (response : Response)
  | failed (message : String)
  | panicked

/-- The last part of the handler. A record that is gone makes it panic. -/
def finishSubmit (id : String) (response : Response) (outcome : Written)
    (journal : Cell Operations) : Cell Operations × Finished :=
  match journal.memory[id]? with
  | none => (journal, .panicked)
  | some record =>
      let candidate := journal.memory.insert id
        { record with response := some (retainedResponse response) }
      match journal.publish candidate outcome with
      | (journal, .ok _) => (journal, .recorded response)
      | (journal, .error message) => (journal, .failed message)

/-- The response to a command: the refusal of the local checks, or what the protocol
answered. Once a protocol call started, failure does not prove non-delivery. -/
def commandResponse (checked : Except String Unit) (sent : Except String Response) : Response :=
  match checked with
  | .error message => .error "rejected" message
  | .ok _ =>
      match sent with
      | .ok response => response
      | .error message => .error "outcome_unknown" message

/-- What follows the command: the protocol client is saved, then the response. -/
def finishCommand (id : String) (checked : Except String Unit) (sent : Except String Response)
    (client : Except String Unit) (outcome : Written) (journal : Cell Operations) :
    Cell Operations × Finished :=
  match client with
  | .error message => (journal, .failed message)
  | .ok _ => finishSubmit id (commandResponse checked sent) outcome journal

end Journal

end GChat
