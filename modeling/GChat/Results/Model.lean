import GChat.Foundation.JsonText
import GChat.Foundation.Text

/-!
# Results of operations in the view

The view keeps one record for each operation. Direct responses, failed polls and snapshots of the
journal update it in any order. At the size limit the oldest complete record is dropped, and with
it that its result was delivered.
-/

namespace GChat

namespace Results

open Foundation

inductive State where
  | pending
  | complete
  | unknown
  | rejected
deriving DecidableEq

structure OperationResult (Output : Type) where
  key : String
  id : String
  network : String
  instanceId : String
  conversation : Option String
  action : String
  started : ℕ
  checked : Option ℕ
  state : State
  body : Option String
  nickname : Option String
  output : Option Output
  message : Option String
  recordedMessage : Option String

/-- The responses that change the record, and the others. -/
inductive Response (Output : Type) where
  | output (conversation : Option String) (output : Output)
  | applied (conversation notice : Option String)
  | other

structure OperationDetail (Output : Type) where
  network : Option String
  id : String
  instanceId : String
  conversation : Option String
  action : String
  started : ℕ
  state : String
  output : Option Output
  message : Option String

/-- The records in the order they were first set, and the keys of the delivered ones. -/
structure OperationResults (Output : Type) where
  records : List (String × OperationResult Output)
  delivered : List String

namespace OperationResults

variable {Output : Type}

def clear : OperationResults Output := ⟨[], []⟩

def key (instanceId network id : String) : String := JsonText.stringify [instanceId, network, id]

def get (results : OperationResults Output) (key : String) : Option (OperationResult Output) :=
  results.records.lookup key

/-- Set a record in its place, or behind the others. -/
def set (key : String) (record : OperationResult Output) :
    List (String × OperationResult Output) → List (String × OperationResult Output)
  | [] => [(key, record)]
  | entry :: records =>
      if entry.1 = key then (key, record) :: records else entry :: set key record records

def delete (key : String) (records : List (String × OperationResult Output)) :
    List (String × OperationResult Output) :=
  records.filter fun entry => entry.1 != key

/-- The record that is dropped for a new one. -/
def oldest (results : OperationResults Output) : Option (OperationResult Output) :=
  if 256 ≤ results.records.length then
    (results.records.map Prod.snd).find? fun record => record.state = .complete
  else none

def isPresent (text : Option String) : Bool := text.any (· ≠ "")

def action (text : Option String) : String :=
  match text with
  | some text =>
      if text.toList.head? = some '/' then String.ofList (text.toList.takeWhile (!isSpace ·))
      else if text ≠ "" then "Send message" else "Saved operation"
  | none => "Saved operation"

def body (text : Option String) : Option String :=
  text.filter fun text => text ≠ "" ∧ text.toList.head? ≠ some '/'

def begin (results : OperationResults Output) (now : ℕ) (instanceId network id : String)
    (conversation text : Option String) : OperationResult Output × OperationResults Output :=
  let key := key instanceId network id
  match results.get key with
  | some old => (old, results)
  | none =>
      let record : OperationResult Output :=
        ⟨key, id, network, instanceId, conversation, action text, now, none, .pending, body text,
          none, none, none, none⟩
      match results.oldest with
      | some oldest =>
          (record, ⟨set key record (delete oldest.key results.records),
            results.delivered.filter (· != oldest.key)⟩)
      | none => (record, { results with records := set key record results.records })

/-- The record of a direct response. -/
def completed (old : OperationResult Output) (now : ℕ) (response : Response Output) :
    OperationResult Output :=
  { old with
    state := .complete
    checked := some now
    conversation :=
      match response with
      | .output conversation _ => conversation
      | .applied conversation _ => conversation
      | .other => old.conversation
    output :=
      match response with
      | .output _ output => some output
      | _ => none
    message :=
      match response with
      | .applied _ notice => some (notice.getD "Completed.")
      | _ => some "Completed." }

def complete (results : OperationResults Output) (now : ℕ) (key : String)
    (response : Response Output) : Bool × OperationResults Output :=
  match results.get key with
  | none => (false, results)
  | some old =>
      (!results.delivered.contains key,
        ⟨set key (completed old now response) results.records, results.delivered.insert key⟩)

/-- A failed poll. -/
def error (results : OperationResults Output) (now : ℕ) (key code message : String) :
    OperationResults Output :=
  match results.get key with
  | none => results
  | some old =>
      if old.state = .complete then results
      else
        let rejects := ["rejected", "busy", "expired", "invalid_argument", "forbidden"]
        let record := { old with
          state := if rejects.contains code then .rejected else .unknown
          message := some message
          checked := some now }
        { results with records := set key record results.records }

/-- A detail of the journal leaves a terminal record, and one that was checked. -/
def skips (old : OperationResult Output) (detail : OperationDetail Output) : Bool :=
  detail.state != "complete" && detail.state != "rejected" &&
    (old.checked.any (· != 0) || old.state = .pending)

/-- The recorded message of a detail is kept beside the message of the last check. -/
def noted (old : OperationResult Output) (detail : OperationDetail Output) :
    OperationResult Output :=
  if isPresent detail.message then { old with recordedMessage := detail.message } else old

/-- The record of a detail, with what an earlier record knows. -/
def restored (key network : String) (detail : OperationDetail Output)
    (old : Option (OperationResult Output)) : OperationResult Output where
  key := key
  id := detail.id
  instanceId := detail.instanceId
  network := network
  conversation := detail.conversation
  action := detail.action
  started := (old.map (·.started)).getD (detail.started * 1000)
  checked := none
  body := old.bind (·.body)
  nickname := old.bind (·.nickname)
  state :=
    if detail.state = "complete" then .complete
    else if detail.state = "rejected" then .rejected
    else if detail.state = "pending" then .pending
    else .unknown
  output := detail.output
  message := detail.message
  recordedMessage := detail.message.or (old.bind (·.recordedMessage))

def restoreDetail (networkFor : Option String → String → String)
    (results : OperationResults Output) (detail : OperationDetail Output) :
    OperationResults Output :=
  let network := detail.network.getD (networkFor detail.conversation detail.instanceId)
  let key := key detail.instanceId network detail.id
  match results.get key with
  | none =>
      { results with records := set key (restored key network detail none) results.records }
  | some old =>
      if old.state = .complete then results
      else
        let old := noted old detail
        let record := if skips old detail then old else restored key network detail (some old)
        { results with records := set key record results.records }

def restore (results : OperationResults Output) (details : List (OperationDetail Output))
    (networkFor : Option String → String → String) : OperationResults Output :=
  details.foldl (restoreDetail networkFor) results

end OperationResults

/-! ### Calls -/

inductive Call (Output : Type) where
  | begin (now : ℕ) (instanceId network id : String) (conversation text : Option String)
  | complete (now : ℕ) (key : String) (response : Response Output)
  | error (now : ℕ) (key code message : String)
  | restore (details : List (OperationDetail Output))
      (networkFor : Option String → String → String)

variable {Output : Type}

def step (results : OperationResults Output) : Call Output → OperationResults Output
  | .begin now instanceId network id conversation text =>
      (results.begin now instanceId network id conversation text).2
  | .complete now key response => (results.complete now key response).2
  | .error now key code message => results.error now key code message
  | .restore details networkFor => results.restore details networkFor

/-- The key of an operation whose response is to be applied. -/
def answer (results : OperationResults Output) : Call Output → Option String
  | .complete now key response => if (results.complete now key response).1 then some key else none
  | _ => none

end Results

end GChat
