import GChat.Journal.Rpc
import GChat.Service.Persistence

/-!
# Operations on an unlocked profile

What the service does with its state. Nearly every operation works on a copy of the
state, saves it, and publishes it once the save succeeded. Two work in place: a read
marker of a channel, and the admission of a submission, which is saved before and after
its action is named.
-/

namespace GChat

namespace Contacts

deriving instance DecidableEq for Contact
deriving instance DecidableEq for Book

end Contacts

namespace Service

open Foundation Api Store

/-- The libraries below the service, and the profile it serves. `newRest` are the fields that
are not modelled, in a new profile. -/
structure Env (Key Rest : Type) where
  cipher : Cipher Key
  codec : Codec (List UInt8)
  formats : Formats Rest
  keys : Keys Key
  contactCodec : Contacts.Codec
  completionType : String
  host : Journal.Host
  newRest : Rest

/-- A profile that is open. -/
structure Unlocked (Key Rest : Type) where
  store : ServiceStateStore Key
  state : UiState Rest

/-- The number of commands that are kept for recall. -/
def historyLimit : ℕ := 200

/-- An own message in the archive of the protocol. -/
structure OwnMessage where
  id : String
  operationId : Option String
  delivery : Option Delivery

section Values

/-- Take over what the archive knows of an own message. A delivery is never taken back. -/
def observeMessage (metadata : StringMap MessageMetadata) (m : OwnMessage) :
    StringMap MessageMetadata :=
  if m.operationId.isNone && m.delivery.isNone then metadata
  else
    let old := metadata[m.id]?.getD ⟨none, none⟩
    metadata.insert m.id
      { operationId := m.operationId.or old.operationId
        delivery :=
          if old.delivery != some .delivered && m.delivery.isSome then m.delivery
          else old.delivery }

def observeMessages (metadata : StringMap MessageMetadata) (own : List OwnMessage) :
    StringMap MessageMetadata :=
  (own.foldl observeMessage metadata).filter fun id _ => own.any (·.id == id)

/-- Add the newest entry; the oldest goes beyond the limit. -/
def pushRecall {α : Type} (history : List α) (entry : α) : List α :=
  let history := history ++ [entry]
  if historyLimit < history.length then history.tail else history

/-- Where a message stands in a conversation. -/
def position (messages : List String) (id : String) : Option ℕ := messages.findIdx? (· == id)

/-- A marker moves to a later message only. -/
def movesMarker (messages : List String) (marker : Option String) (next : ℕ) : Bool :=
  (marker.bind (position messages)).all (· < next)

/-- The operations of a contact book that are saved even if they change nothing are all but
these: a packet is saved if it changed the book, a renewal if one was due, and a sent packet if
it still waits. -/
def savesBook (op : Contacts.Op) (before after : Contacts.Book) : Bool :=
  match op with
  | .receive _ _ => after != before
  | .renew now => !(Contacts.renewals before now).isEmpty
  | .completeSend id _ _ _ => before.outbox.contains id
  | _ => true

end Values

section Operations

variable {Key Rest : Type} (env : Env Key Rest)

/-- Save a candidate, and publish it once it is saved. -/
def Env.commit (s : Unlocked Key Rest) (candidate : UiState Rest) (io : SaveIo) :
    Unlocked Key Rest × Except String Unit :=
  match s.store.save env.cipher env.codec env.formats candidate io with
  | (store, .error message) => ({ s with store := store }, .error message)
  | (store, .ok _) => (⟨store, candidate⟩, .ok ())

/-- Save the state as it is in memory. -/
def Env.persist (s : Unlocked Key Rest) (io : SaveIo) : Unlocked Key Rest × Except String Unit :=
  match s.store.save env.cipher env.codec env.formats s.state io with
  | (store, result) => ({ s with store := store }, result)

/-! ### Contacts -/

def Env.contact (s : Unlocked Key Rest) (op : Contacts.Op) (io : SaveIo) :
    Unlocked Key Rest × Except String Unit :=
  match op.run env.contactCodec s.state.contacts with
  | .error message => (s, .error message)
  | .ok book =>
      if savesBook op s.state.contacts book then
        env.commit s { s.state with contacts := book } io
      else (s, .ok ())

/-! ### Hosted channels -/

def UiState.channels (state : UiState Rest) : Hosted.UiState := ⟨state.hosted, state.activity⟩

def UiState.withChannels (state : UiState Rest) (channels : Hosted.UiState) : UiState Rest :=
  { state with hosted := channels.hosted, activity := channels.activity }

def UiState.setRoom (state : UiState Rest) (conversation : String) (room : Hosted.Archive) :
    UiState Rest :=
  { state with hosted := state.hosted.insert conversation room }

/-- Project a batch of events. -/
def Env.archiveHosted (s : Unlocked Key Rest) (channel : Hosted.Channel) (recovered : Bool)
    (events : List Hosted.Event) (io : SaveIo) : Unlocked Key Rest × Except String Unit :=
  match Hosted.apply env.completionType s.state.channels channel events with
  | .error message => (s, .error message)
  | .ok (candidate, _) =>
      let candidate := if recovered then candidate.recovered channel else candidate
      if candidate != s.state.channels then env.commit s (s.state.withChannels candidate) io
      else (s, .ok ())

def Env.rememberQueued (s : Unlocked Key Rest) (conversation : String) (id : Hosted.Id)
    (content : Hosted.Content) (operation : String) (now : ℕ) (io : SaveIo) :
    Unlocked Key Rest × Except String Unit :=
  match s.state.hosted[conversation]? with
  | none => (s, .error "Unknown channel")
  | some room =>
      env.commit s
        (s.state.setRoom conversation (room.rememberQueued id content operation now)) io

/-- Keep the error of a channel that could not be synchronized. -/
def Env.hostedError (s : Unlocked Key Rest) (conversation message : String) (io : SaveIo) :
    Unlocked Key Rest × Except String Unit :=
  match s.state.hosted[conversation]? with
  | none => (s, .ok ())
  | some room =>
      if room.error != some message then
        env.commit s (s.state.setRoom conversation { room with error := some message }) io
      else (s, .ok ())

def Env.markReadHosted (s : Unlocked Key Rest) (conversation message : String) (io : SaveIo) :
    Unlocked Key Rest × Except String Unit :=
  match s.state.hosted[conversation]? with
  | none => (s, .error "Unknown hosted channel")
  | some room =>
      let messages := room.messages.map (·.id)
      match position messages message with
      | none => (s, .error "Unknown read marker")
      | some next =>
          if movesMarker messages s.state.read[conversation]? next then
            env.commit s { s.state with read := s.state.read.insert conversation message } io
          else (s, .ok ())

/-! ### The journal -/

def Unlocked.setOperations (s : Unlocked Key Rest) (operations : Journal.Operations) :
    Unlocked Key Rest :=
  { s with state := { s.state with operations := operations } }

@[simp] theorem setOperations_operations (s : Unlocked Key Rest)
    (operations : Journal.Operations) :
    (s.setOperations operations).state.operations = operations := rfl

@[simp] theorem setOperations_preferences (s : Unlocked Key Rest)
    (operations : Journal.Operations) :
    (s.setOperations operations).state.preferences = s.state.preferences := rfl

/-- Save the admission of a submission. A typed one was saved when it was admitted. -/
def Env.saveAdmission (s : Unlocked Key Rest) (admitted : Bool) (io : SaveIo) :
    Unlocked Key Rest × Except String Unit :=
  if admitted then (s, .ok ()) else env.persist s io

/-- The first part of the submit handler. -/
def Env.submit (s : Unlocked Key Rest) (now : ℕ) (admitted : Bool) (request : Journal.Submit)
    (first second : SaveIo) : Unlocked Key Rest × Except String Unit :=
  match env.host.decide now admitted request s.state.operations with
  | .error message => (s, .error message)
  | .ok (.answer _) => (s, .ok ())
  | .ok (.full operations) =>
      (s.setOperations operations,
        .error "chat operation journal is full; retry after retained entries expire")
  | .ok (.accept operations) =>
      match env.saveAdmission (s.setOperations operations) admitted first with
      | (s, .error message) => (s, .error message)
      | (s, .ok _) =>
          match env.persist (s.setOperations (Journal.describe request operations)) second with
          | (s, .error message) => (s, .error message)
          | (s, .ok _) =>
              (s, (Journal.expand s.state.preferences.aliases request.text).map fun _ => ())

/-- The state with the response to a submission. -/
def UiState.respond (state : UiState Rest) (request : Journal.Submit)
    (record : Journal.OperationRecord) (response : Response) (own : List OwnMessage) :
    UiState Rest :=
  let text := Commands.recallText request.text
  { state with
    messageMetadata := observeMessages state.messageMetadata own
    commandHistory := pushRecall state.commandHistory text
    inputHistory := pushRecall state.inputHistory ⟨request.conversation, text⟩
    operations := state.operations.insert request.operationId
      { record with response := some (Journal.retainedResponse response) } }

/-- The last part of the submit handler, after the command ran. -/
def Env.finish (s : Unlocked Key Rest) (request : Journal.Submit) (response : Response)
    (own : List OwnMessage) (io : SaveIo) : Unlocked Key Rest × Except String Unit :=
  match s.state.operations[request.operationId]? with
  | none => (s, .error "called `Option::unwrap()` on a `None` value")
  | some record => env.commit s (s.state.respond request record response own) io

/-- Admit a typed operation. The candidate is the journal once it is saved. -/
def Env.admitTyped (s : Unlocked Key Rest) (now : ℕ) (key : Journal.OperationKey) (digest : String)
    (deadline : ℕ) (io : SaveIo) : Unlocked Key Rest × Except String Unit :=
  match env.host.rpcAdmit now key digest deadline .saved
      ⟨s.state.operations, s.state.operations⟩ with
  | (journal, .ok .new) => env.commit s { s.state with operations := journal.memory } io
  | (_, .ok (.existing _)) => (s, .ok ())
  | (_, .error error) => (s, .error error.message)

/-- Record the result of a typed operation. -/
def Env.complete (s : Unlocked Key Rest) (key : Journal.OperationKey) (result : Journal.ReplyBody)
    (io : SaveIo) : Unlocked Key Rest × Except String Unit :=
  match env.host.rpcComplete key result .saved ⟨s.state.operations, s.state.operations⟩ with
  | (journal, .ok _) => env.commit s { s.state with operations := journal.memory } io
  | (_, .error error) => (s, .error error.message)

/-! ### Messages of channels -/

/-- Move the read marker of a channel, in place; `messages` are its messages. -/
def Env.markRead (s : Unlocked Key Rest) (conversation message : String) (messages : List String)
    (io : SaveIo) : Unlocked Key Rest × Except String Unit :=
  match position messages message with
  | none => (s, .error "unknown read marker")
  | some requested =>
      if movesMarker messages s.state.read[conversation]? requested then
        env.persist
          { s with state := { s.state with read := s.state.read.insert conversation message } } io
      else (s, .ok ())

def UiState.observe (state : UiState Rest) (own : List OwnMessage) : UiState Rest :=
  { state with messageMetadata := observeMessages state.messageMetadata own }

/-- Reading a conversation takes over what changed in the archive. -/
def Env.readHistory (s : Unlocked Key Rest) (own : List OwnMessage) (io : SaveIo) :
    Unlocked Key Rest × Except String Unit :=
  let candidate := s.state.observe own
  if candidate.messageMetadata = s.state.messageMetadata then (s, .ok ())
  else env.commit s candidate io

/-- Flushing, locking and disconnecting save the state in any case. -/
def Env.saveMessageMetadata (s : Unlocked Key Rest) (own : List OwnMessage) (io : SaveIo) :
    Unlocked Key Rest × Except String Unit :=
  env.commit s (s.state.observe own) io

/-! ### Any order of operations -/

/-- The operations. `change` stands for those on networks, preferences, files, topics and
settings: whatever candidate they make is saved and published like the others. -/
inductive Operation (Rest : Type) where
  | contact (op : Contacts.Op) (io : SaveIo)
  | archiveHosted (channel : Hosted.Channel) (recovered : Bool) (events : List Hosted.Event)
      (io : SaveIo)
  | rememberQueued (conversation : String) (id : Hosted.Id) (content : Hosted.Content)
      (operation : String) (now : ℕ) (io : SaveIo)
  | hostedError (conversation message : String) (io : SaveIo)
  | markReadHosted (conversation message : String) (io : SaveIo)
  | submit (now : ℕ) (admitted : Bool) (request : Journal.Submit) (first second : SaveIo)
  | finish (request : Journal.Submit) (response : Response) (own : List OwnMessage) (io : SaveIo)
  | admitTyped (now : ℕ) (key : Journal.OperationKey) (digest : String) (deadline : ℕ) (io : SaveIo)
  | complete (key : Journal.OperationKey) (result : Journal.ReplyBody) (io : SaveIo)
  | markRead (conversation message : String) (messages : List String) (io : SaveIo)
  | readHistory (own : List OwnMessage) (io : SaveIo)
  | saveMessageMetadata (own : List OwnMessage) (io : SaveIo)
  | change (candidate : UiState Rest) (io : SaveIo)

def Env.perform (s : Unlocked Key Rest) :
    Operation Rest → Unlocked Key Rest × Except String Unit
  | .contact op io => env.contact s op io
  | .archiveHosted channel recovered events io => env.archiveHosted s channel recovered events io
  | .rememberQueued conversation id content operation now io =>
      env.rememberQueued s conversation id content operation now io
  | .hostedError conversation message io => env.hostedError s conversation message io
  | .markReadHosted conversation message io => env.markReadHosted s conversation message io
  | .submit now admitted request first second => env.submit s now admitted request first second
  | .finish request response own io => env.finish s request response own io
  | .admitTyped now key digest deadline io => env.admitTyped s now key digest deadline io
  | .complete key result io => env.complete s key result io
  | .markRead conversation message messages io => env.markRead s conversation message messages io
  | .readHistory own io => env.readHistory s own io
  | .saveMessageMetadata own io => env.saveMessageMetadata s own io
  | .change candidate io => env.commit s candidate io

/-- The state after an operation that returned `ok`. -/
def Env.accept (s : Unlocked Key Rest) (operation : Operation Rest) :
    Option (Unlocked Key Rest) :=
  match env.perform s operation with
  | (_, .error _) => none
  | (s, .ok _) => some s

/-! ### Unlocking -/

/-- What unlocking draws and is told. -/
structure Opening where
  salts : Salts
  fileKey : Bytes 32
  safetyNumber : String
  create : Io
  save : SaveIo

/-- The state of a file, for the instance that opens it. -/
def Env.prepare (opening : Opening) (state : Legacy Rest) : Legacy Rest :=
  { state with
    commandHistory := state.commandHistory.map Commands.recallText
    inputHistory := state.inputHistory.map fun entry =>
      { entry with text := Commands.recallText entry.text }
    instanceId := env.host.id
    safetyNumber := opening.safetyNumber
    fileKey := some (state.fileKey.getD opening.fileKey) }

/-- Open the files of a profile, or create them. The profile is open once it is saved. -/
def Env.unlock (files : Files) (opening : Opening) : Except String (Unlocked Key Rest) := do
  let (legacy, state) ← openOrCreate env.cipher env.codec env.formats.legacy files.legacy
    (UiState.default env.newRest).toLegacy env.keys.legacy opening.salts.legacy opening.create
  refuse ((!state.instanceId.isEmpty && state.instanceId != env.host.id) ||
      (!state.safetyNumber.isEmpty && state.safetyNumber != opening.safetyNumber))
    "chat service state belongs to a different instance"
  let (store, state) ← ServiceStateStore.open env.cipher env.codec env.formats env.contactCodec
    env.keys files opening.salts legacy (env.prepare opening state)
  match store.save env.cipher env.codec env.formats state opening.save with
  | (_, .error message) => .error message
  | (store, .ok _) => .ok ⟨store, state⟩

end Operations

end Service

end GChat
