import GChat.Archive.Rounds
import GChat.Catalog.Refresh
import GChat.Foundation.Effect
import GChat.Migration.Split
import GChat.Service.Crash
import GChat.Unlock.Rooms

/-!
# Unlocking a profile

The archive is created or opened, the channels are brought in line with the runtime, the catalogs
are read over the network, and the state of the service is opened, checked and saved. Each step
may fail, and what was written before stays. The session is there only at the end.
-/

namespace GChat

namespace Unlock

open Foundation Store
open Migration (OpenPoint CreatePoint check)

inductive Capability where
  | channelMember
  | directMessage
  | hostedChannels
  | other
deriving DecidableEq

/-! ### What the client keeps -/

abbrev ArchiveFile := Migration.ArchiveData StoredRooms

/-- The files of a profile. -/
structure Disk where
  archive : Option (List UInt8)
  service : Service.Files

/-- The client with its archive, which it has open. -/
structure Client (Key : Type) where
  store : EncryptedStore Key
  safetyNumber : String
  rooms : Rooms
  legacy : Migration.LegacyArchive
  catalogUrls : List Catalog.Url
  presenceEnabled : Bool

structure Session (Key Rest : Type) where
  client : Client Key
  unlocked : Service.Unlocked Key Rest
  uiLocked : Bool

/-! ### What unlocking meets -/

inductive SdkError where
  | runtime (message : String)
  | other (message : String)

def SdkError.text : SdkError → String
  | .runtime message => message
  | .other message => message

/-- A save of the archive by a task of the client, with the rooms of that moment. -/
structure ArchiveSave where
  rooms : Rooms
  nonce : Bytes 12
  fault : Option (Fault × String)

/-- What an attempt draws at random, and what disk, runtime and network do in it. -/
structure Attempt where
  now : ℕ
  archiveSalt : Bytes 16
  archiveNonce : Bytes 12
  createFault : Option (CreatePoint × String)
  archiveFault : Option (Fault × String)
  openFault : Option (OpenPoint × String)
  channelInbox : Except String Unit
  listing : Archive.Listing
  background : List ArchiveSave
  net : ℕ → Catalog.Answers
  serviceFault : Option String
  presence : String → Except SdkError Unit
  salts : Service.Salts
  fileKey : Bytes 32
  serviceIo : Service.Io
  companionFault : Option String
  save : Service.SaveIo

/-- A service with its runtime. `env` has the libraries; the keys come from a passphrase. -/
structure Instance (Key Rest : Type) where
  env : Service.Env Key Rest
  derive : String → Bytes 16 → Key
  descriptors : Codec Catalog.CachedDescriptor
  lib : Catalog.Library
  capabilities : List Capability
  safetyNumber : String
  embedded : Bool
  presenceEnabled : Rest → Bool

/-- The codec of the archive. -/
def Instance.rooms {Key Rest : Type} (i : Instance Key Rest) : Codec StoredRooms :=
  roomsCodec i.descriptors

section Steps

variable {Key Rest : Type} (i : Instance Key Rest) (passphrase : String) (a : Attempt)

/-- The libraries with the keys of a passphrase. -/
def Instance.keyed : Service.Env Key Rest :=
  { i.env with keys := ⟨i.derive passphrase, i.env.keys.derive⟩ }

def Attempt.opening : Service.Opening where
  salts := a.salts
  fileKey := a.fileKey
  safetyNumber := i.safetyNumber
  create := a.serviceIo
  save := a.save

/-! ### The archive -/

/-- The archive of a new profile. -/
def newArchive : ArchiveFile :=
  { Migration.ArchiveData.default Rooms.empty.toStored with daemonSafetyNumber := i.safetyNumber }

def saveArchive (store : EncryptedStore Key) (data : ArchiveFile) (nonce : Bytes 12)
    (fault : Option (Fault × String)) : Effect Disk (EncryptedStore Key) :=
  Effect.step fun disk =>
    match store.save i.env.cipher (Migration.archiveDataCodec i.rooms) disk.archive nonce data
        fault with
    | (store, file, result) => ({ disk with archive := file }, result.map fun _ => store)

def createArchive : Effect Disk (EncryptedStore Key × ArchiveFile) := do
  Effect.lift (check a.createFault .ensureParent)
  Effect.lift (check a.createFault .lock)
  let disk ← get
  let store ← Effect.lift (createWithKey disk.archive Migration.archiveMagic "archive"
    a.archiveSalt (i.derive passphrase))
  let store ← saveArchive i store (newArchive i) a.archiveNonce a.archiveFault
  return (store, newArchive i)

def openArchive : Effect Disk (EncryptedStore Key × ArchiveFile) :=
  Effect.step fun disk =>
    match disk.archive with
    | none => (disk, .error "No such file or directory (os error 2)")
    | some raw =>
        match Migration.openArchive i.env.cipher (i.derive passphrase) i.rooms
            Rooms.empty.toStored raw a.archiveNonce a.openFault with
        | (raw, result) => ({ disk with archive := some raw }, result)

/-! ### The client -/

/-- What the client writes, with the rooms of a moment. -/
def Client.file (client : Client Key) (rooms : Rooms) : ArchiveFile :=
  ⟨client.safetyNumber, rooms.toStored, client.legacy⟩

/-- The tasks of the client save the archive; a failure is left to the next save. -/
def saveBackground (client : Client Key) : List ArchiveSave → Effect Disk (Client Key)
  | [] => pure client
  | save :: rest => do
      let store ← Effect.step fun disk =>
        match client.store.save i.env.cipher (Migration.archiveDataCodec i.rooms) disk.archive
            save.nonce (client.file save.rooms) save.fault with
        | (store, file, _) => ({ disk with archive := file }, .ok store)
      saveBackground { client with store := store, rooms := save.rooms } rest

/-- The client on an open archive. Its channels are those the runtime has joined. -/
def finish (store : EncryptedStore Key) (data : ArchiveFile) : Effect Disk (Client Key) := do
  Effect.lift (if i.embedded then
      a.channelInbox.mapError fun error => s!"durable channel archive is not available: {error}"
    else .ok ())
  let reconciled := Archive.reconcile a.listing a.now
    ⟨[], data.daemonSafetyNumber, data.rooms.1.channels, data.rooms.1.scopedPms⟩
  Effect.lift reconciled.2
  saveBackground i
    { store := store
      safetyNumber := data.daemonSafetyNumber
      rooms := ⟨reconciled.1.channels, reconciled.1.scopedPms, data.rooms.1.publicDescriptors⟩
      legacy := data.legacy
      catalogUrls := []
      presenceEnabled := false } a.background

def openService (create : Bool) : Effect Disk (Client Key) := do
  let (store, data) ← (if create then createArchive i passphrase a
    else openArchive i passphrase a)
  Effect.lift (refuse (data.daemonSafetyNumber != i.safetyNumber)
    "chat archive belongs to a different instance identity")
  finish i a store data

/-- Take the catalogs and read them. Without them there is no client. -/
def configureCatalogs (client : Client Key) (values : List String) : Effect Disk (Client Key) := do
  let catalogs := Catalog.configureCatalogs i.lib true a.now a.net
    ⟨client.catalogUrls, client.rooms.publicDescriptors⟩ values
  Effect.lift catalogs.2
  return { client with
    catalogUrls := catalogs.1.urls
    rooms := { client.rooms with publicDescriptors := catalogs.1.publicDescriptors } }

/-- The runtime has committed the withdrawal, only a peer was not told. -/
def isWithdrawn (enabled : Bool) : SdkError → Bool
  | .runtime message => !enabled &&
      Commands.startsWith message "presence disabled locally; withdrawal failed:"
  | .other _ => false

/-- Tell every active channel. The first failure is reported after the last channel. -/
def presenceFailure (enabled : Bool) (channels : List Archive.ChannelRecord) : Option String :=
  (channels.filter (·.active)).findSome? fun channel =>
    match a.presence channel.protocolName with
    | .ok _ => none
    | .error error => if isWithdrawn enabled error then none else some error.text

def configurePresence (client : Client Key) (enabled : Bool) : Effect Disk (Client Key) := do
  Effect.lift (match presenceFailure a enabled client.rooms.channels with
    | some message => .error message
    | none => .ok ())
  return { client with presenceEnabled := enabled }

/-! ### The state of the service -/

/-- Create the file of the service with the state of a new profile. -/
def createState : Effect Disk (Service.ChatServiceStore Key × Service.Legacy Rest) := do
  let new := (Service.UiState.default i.env.newRest).toLegacy
  let store ← Effect.lift (createWithKey none Service.uiMagic "chat service state"
    a.salts.legacy (i.derive passphrase))
  let store ← Effect.step fun disk =>
    match Service.ChatServiceStore.save i.env.cipher i.env.codec i.env.formats.legacy
        ⟨store, none⟩ new a.serviceIo with
    | (store, result) =>
        ({ disk with service := { disk.service with legacy := store.file } },
          result.map fun _ => store)
  return (store, new)

def openOrCreate : Effect Disk (Service.ChatServiceStore Key × Service.Legacy Rest) := do
  Effect.lift (match a.serviceFault with
    | some message => .error message
    | none => .ok ())
  let disk ← get
  match disk.service.legacy with
  | some raw =>
      Effect.lift (Service.openOrCreate i.env.cipher i.env.codec i.env.formats.legacy (some raw)
        (Service.UiState.default i.env.newRest).toLegacy (i.derive passphrase) a.salts.legacy
        a.serviceIo)
  | none => createState i passphrase a

/-- Check whose state it is, open the companions, and save what was prepared. -/
def openState (legacy : Service.ChatServiceStore Key) (state : Service.Legacy Rest) :
    Effect Disk (Service.Unlocked Key Rest) := do
  Effect.lift (refuse ((!state.instanceId.isEmpty && state.instanceId != i.env.host.id) ||
      (!state.safetyNumber.isEmpty && state.safetyNumber != i.safetyNumber))
    "chat service state belongs to a different instance")
  Effect.lift (match a.companionFault with
    | some message => .error message
    | none => .ok ())
  let disk ← get
  let (store, state) ← Effect.lift (Service.ServiceStateStore.open i.env.cipher i.env.codec
    i.env.formats i.env.contactCodec (i.keyed passphrase).keys disk.service a.salts legacy
    (i.env.prepare (a.opening i) state))
  Effect.step fun disk =>
    match store.save i.env.cipher i.env.codec i.env.formats state a.save with
    | (store, result) => ({ disk with service := store.files }, result.map fun _ => ⟨store, state⟩)

/-! ### The request -/

def start (values : List String) (create : Bool) : Effect Disk (Session Key Rest) := do
  Effect.lift (refuse (create && passphrase.length < 8)
    "choose a passphrase of at least eight characters")
  let client ← openService i passphrase a create
  let client ← configureCatalogs i a client values
  let (legacy, state) ← openOrCreate i passphrase a
  let client ← configurePresence a client (i.presenceEnabled state.rest)
  let unlocked ← openState i passphrase a legacy state
  return ⟨client, unlocked, false⟩

variable [DecidableEq Key]

/-- A session that is only hidden asks for the passphrase again. -/
def resume (session : Session Key Rest) : Effect Disk (Session Key Rest) := do
  if session.uiLocked then
    let store := session.unlocked.store.legacy.store
    Effect.lift (refuse (i.derive passphrase store.salt != store.key) "wrong archive passphrase")
    return { session with uiLocked := false }
  else return session

def unlock (values : List String) (session : Option (Session Key Rest)) (create : Bool) :
    Effect Disk (Session Key Rest) := do
  Effect.lift (refuse (!([.channelMember, .directMessage, .hostedChannels].any
      fun capability : Capability => i.capabilities.contains capability))
    "this instance does not grant the requested operation")
  Effect.lift (refuse (4096 < passphrase.utf8ByteSize) "passphrase exceeds bound")
  match session with
  | some session => resume i passphrase session
  | none => do
      let session ← start i passphrase a values create
      resume i passphrase session

end Steps

end Unlock

end GChat
