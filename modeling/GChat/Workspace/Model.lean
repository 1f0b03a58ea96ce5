import GChat.Dialect.Types
import GChat.Foundation.StringMap

/-!
# The view over all networks

A workspace shows the conversations of all joined networks. Those of the primary network keep
their identifiers, and those of another network are qualified by it. A request goes to the
network that its conversation names, with the identifier that is known there.
-/

namespace GChat

namespace Workspace

open Foundation Dialect

/-- A thrown error, by its name, its code if it has one, and its message. -/
structure Failure where
  name : String
  code : Option String
  message : String
deriving DecidableEq

/-- An error as a text. -/
def Failure.text (e : Failure) : String := e.name ++ ": " ++ e.message

def chatError (code message : String) : Failure := ⟨"ChatError", some code, message⟩

def plainError (message : String) : Failure := ⟨"Error", none, message⟩

/-! ### Identifiers of conversations -/

def networkPrefix (network : String) : String := "network/" ++ network ++ "/"

def isLineTerminator (c : Char) : Bool :=
  c == '\n' || c == '\r' || c == Char.ofNat 0x2028 || c == Char.ofNat 0x2029

def isLowerHex (c : Char) : Bool := ('a' ≤ c && c ≤ 'f') || ('0' ≤ c && c ≤ '9')

/-- What stands behind `network/`: sixty-four digits, a slash, and a text in one line. -/
def matchNetwork (rest : List Char) : Option (String × String) :=
  let network := rest.take 64
  match rest.drop 64 with
  | '/' :: tail =>
      if network.length = 64 ∧ network.all isLowerHex = true ∧ tail ≠ [] ∧
          tail.all (fun c => !isLineTerminator c) = true then
        some (String.ofList network, String.ofList tail)
      else none
  | _ => none

/-- The network that an identifier names, and the identifier in it. -/
def splitId (id : String) : Except Failure (Option String × String) :=
  if "network/".toList.isPrefixOf id.toList then
    match matchNetwork (id.toList.drop 8) with
    | some (network, localId) => .ok (some network, localId)
    | none => .error (plainError "Invalid network conversation")
  else .ok (none, id)

def splitConversation : Option String → Except Failure (Option String × Option String)
  | none => .ok (none, none)
  | some id => (splitId id).map fun s => (s.1, some s.2)

/-- A text that is present and not empty. -/
def given (text : Option String) : Option String := text.filter (· != "")

structure State where
  networks : List JoinedNetwork
  active : Option String
  enabled : Bool
  instances : StringMap String
  presence : StringMap Bool
  presenceRevision : ℕ
  lifecycle : ℕ

def State.created : State := ⟨[], none, false, ∅, ∅, 0, 0⟩

section Qualify

variable (w : State)

def State.primary : Option String := (w.networks.find? (·.primary)).map (·.id)

def State.networkFor (conversation : Option String) : Except Failure (Option String) :=
  (splitConversation conversation).map fun s => s.1.or w.primary

def State.qualify (network id : String) : String :=
  if w.primary = some network then id else networkPrefix network ++ id

end Qualify

/-! ### Responses of a network -/

section MapResponse

variable (qualify : String → String)

def qualifyOutput : CommandOutput → CommandOutput
  | .close conversation => .close (qualify conversation)
  | .directory channels =>
      .directory (channels.map fun c =>
        { c with conversation := (given c.conversation).map qualify })
  | output => output

def qualifyResponse : Response → Response
  | .snapshot snapshot =>
      .snapshot { snapshot with
        conversations := snapshot.conversations.map fun c => { c with id := qualify c.id } }
  | .history page =>
      .history { page with
        messages := page.messages.map fun m =>
          { m with conversationId := qualify m.conversationId } }
  | .files snapshot =>
      .files { snapshot with
        files := snapshot.files.map fun f => { f with conversation := qualify f.conversation } }
  | .applied conversation notice => .applied ((given conversation).map qualify) notice
  | .output conversation output =>
      .output ((given conversation).map qualify) (qualifyOutput qualify output)
  | response => response

end MapResponse

def State.mapResponse (w : State) (network : String) (response : Response) : Response :=
  if w.primary = some network then response
  else qualifyResponse (w.qualify network) response

/-! ### Requests to a network -/

/-- The conversation of a request that has one. -/
def conversationOf : Request → Option String
  | .catalogue conversation => conversation
  | .history conversation _ _ => some conversation
  | .search conversation _ _ _ => some conversation
  | .submit _ conversation _ => conversation
  | .complete conversation _ => conversation
  | .markRead conversation _ => some conversation
  | .files (.list conversation) => conversation
  | .files (.publications conversation) => conversation
  | .files (.prepare _ conversation _ _) => some conversation
  | _ => none

/-- The request with the identifier that is known in the network. -/
def localRequest : Request → Except Failure Request
  | .catalogue conversation => (splitConversation conversation).map fun s => .catalogue s.2
  | .history conversation before limit =>
      (splitId conversation).map fun s => .history s.2 before limit
  | .search conversation text before limit =>
      (splitId conversation).map fun s => .search s.2 text before limit
  | .submit operationId conversation text =>
      (splitConversation conversation).map fun s => .submit operationId s.2 text
  | .complete conversation text =>
      (splitConversation conversation).map fun s => .complete s.2 text
  | .markRead conversation messageId =>
      (splitId conversation).map fun s => .markRead s.2 messageId
  | .files (.list conversation) =>
      (splitConversation conversation).map fun s => .files (.list s.2)
  | .files (.publications conversation) =>
      (splitConversation conversation).map fun s => .files (.publications s.2)
  | .files (.prepare id conversation name sizeBytes) =>
      (splitId conversation).map fun s => .files (.prepare id s.2 name sizeBytes)
  | request => .ok request

/-- A request on its way: to the service itself, or to that of a network. -/
inductive Sent where
  | direct (request : Request)
  | called (network : String) (request : Request)

/-- The request that the service is sent. -/
def Sent.request : Sent → Request
  | .direct request => request
  | .called network request => .networks (.call network request)

section Scoped

variable (w : State)

/-- Send a request to a network. -/
def State.scoped (network : Option String) (request : Request) : Except Failure Sent := do
  let bound := (← splitConversation (conversationOf request)).1
  if bound.isSome ∧ bound ≠ network then
    throw (chatError "instance" "Conversation belongs to another network")
  match given network with
  | none => .ok (.direct (← localRequest request))
  | some n =>
      if network = w.primary then .ok (.direct (← localRequest request))
      else if w.enabled = false then
        throw (chatError "unavailable" "Selected network is unavailable")
      else .ok (.called n (← localRequest request))

/-- What the answer of the service means. -/
def State.received : Sent → Response → Except Failure Response
  | .direct _, response => .ok response
  | .called network _, .networks (.result n response) =>
      if n ≠ network then .error (chatError "protocol" "Network response binding changed")
      else
        match response with
        | .error code message => .error (chatError code message)
        | response => .ok (w.mapResponse network response)
  | .called _ _, _ => .error (chatError "protocol" "Network response binding changed")

/-- The last part of `request`, for a request that is not about the whole workspace: without a
conversation it is for the active network. -/
def State.route (request : Request) : Except Failure Sent :=
  match given (conversationOf request) with
  | none => w.scoped w.active request
  | some conversation => do
      let network ← w.networkFor (some conversation)
      w.scoped network request

end Scoped

/-! ### The snapshot of all networks -/

/-- Lock or disconnect the workspace. -/
def State.close (w : State) : State :=
  { w with
    lifecycle := w.lifecycle + 1
    networks := []
    instances := ∅
    presence := ∅
    active := none
    enabled := false }

def State.confirmPresence (w : State) (network : Option String) (enabled : Bool) : State :=
  { w with
    presenceRevision := w.presenceRevision + 1
    presence := w.presence.insert (network.getD (w.primary.getD "")) enabled }

def State.setPresence (w : State) (presenceRevision : ℕ) (network : String)
    (snapshot : Snapshot) : State :=
  if presenceRevision = w.presenceRevision then
    { w with presence := w.presence.insert network (snapshot.presenceEnabled.getD false) }
  else w

/-- The first part of `aggregate`, up to the list of the networks. -/
def State.enter (w : State) (presenceRevision : ℕ) (snapshot : Snapshot) : State × Bool :=
  let w := { w with enabled := snapshot.instanceInfo.capabilities.contains "networks.v1" }
  if snapshot.instanceInfo.locked then
    ({ w with networks := [], instances := ∅, presence := ∅, active := none }, false)
  else if w.enabled = false then (w.setPresence presenceRevision "" snapshot, false)
  else (w, true)

/-- The snapshot of the service, to which those of the networks are added. -/
def opened (snapshot : Snapshot) : Snapshot :=
  { snapshot with
    operations := some (snapshot.operations.getD [])
    activity := some (snapshot.activity.getD []) }

/-- The workspace once the networks were listed. -/
def State.publish (w : State) (presenceRevision : ℕ) (snapshot : Snapshot)
    (networks : List JoinedNetwork) : State :=
  let w := { w with networks := networks }
  let w := { w with
    active := w.active.or w.primary
    instances := w.instances.insert (w.primary.getD "") snapshot.instanceInfo.id }
  w.setPresence presenceRevision (w.primary.getD "") snapshot

/-- Add the snapshot of a network. -/
def State.absorb (w : State) (network : JoinedNetwork) (next child : Snapshot) : Snapshot :=
  { next with
    conversations := next.conversations ++ child.conversations
    providerErrors := next.providerErrors ++ child.providerErrors.map fun e =>
      { e with message := network.name ++ ": " ++ e.message }
    activity := some (next.activity.getD [] ++ (child.activity.getD []).map fun a =>
      { a with conversation := w.qualify network.id a.conversation })
    operations := some (next.operations.getD [] ++ (child.operations.getD []).map fun r =>
      { r with
        network := some network.id
        conversation := (given r.conversation).map (w.qualify network.id) })
    inputHistory := next.inputHistory ++ child.inputHistory.map fun h =>
      { h with conversation := (given h.conversation).map (w.qualify network.id) }
    revision := next.revision ++ ":" ++ network.id ++ ":" ++ child.revision }

/-- The workspace once the snapshot of a network arrived. -/
def State.arrived (w : State) (presenceRevision : ℕ) (network : JoinedNetwork)
    (child : Snapshot) : State :=
  let w := { w with instances := w.instances.insert network.id child.instanceInfo.id }
  w.setPresence presenceRevision network.id child

/-- Note that a network could not be asked. -/
def failed (network : JoinedNetwork) (next : Snapshot) (e : Failure) : Snapshot :=
  { next with
    providerErrors := next.providerErrors ++
      [⟨network.id, "unavailable", network.name ++ ": " ++ e.text, true⟩] }

end Workspace

end GChat
