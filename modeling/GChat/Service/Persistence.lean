import GChat.Commands.Model
import GChat.Contacts.Operations
import GChat.Hosted.Apply
import GChat.Store.Encrypted

/-!
# The saved state of a profile

The state of the service is kept in four encrypted files, each with a JSON document: the
hosted channels with their activity, the contacts, the preferences, and everything else.
A save writes them in this order and stops at the first that fails. A document beyond
the bound is refused before its file is touched. The first three files are written from
the first save on in which there is something to keep.
-/

namespace GChat

namespace Service

open Foundation Api Store

/-- A set of strings. -/
abbrev StringSet := StringMap Unit

structure Preferences where
  muted : StringSet
  ignored : StringMap StringSet
  highlights : StringSet
  aliases : StringMap String

def Preferences.default : Preferences := ⟨∅, ∅, ∅, ∅⟩

/-- The preferences are those of a new profile. -/
def Preferences.isEmpty (p : Preferences) : Bool :=
  p.muted.isEmpty && p.ignored.isEmpty && p.highlights.isEmpty && p.aliases.isEmpty

structure InputHistoryEntry where
  conversation : Option String
  text : String
deriving DecidableEq

structure MessageMetadata where
  operationId : Option String
  delivery : Option Delivery
deriving DecidableEq

/-- The part of the state in the file of the service. `rest` are the fields that only the
networks, the files, the topics and the settings of presence and publication use. -/
structure Legacy (Rest : Type) where
  activity : List Hosted.Activity
  instanceId : String
  safetyNumber : String
  read : StringMap String
  commandHistory : List String
  inputHistory : List InputHistoryEntry
  operations : Journal.Operations
  messageMetadata : StringMap MessageMetadata
  fileKey : Option (Bytes 32)
  rest : Rest

/-- The state in memory: the activity of all channels is in one list. -/
structure UiState (Rest : Type) extends Legacy Rest where
  hosted : StringMap Hosted.Archive
  contacts : Contacts.Book
  preferences : Preferences

def UiState.default {Rest : Type} (rest : Rest) : UiState Rest :=
  { activity := [], instanceId := "", safetyNumber := "", read := ∅, commandHistory := [],
    inputHistory := [], operations := ∅, messageMetadata := ∅, fileKey := none, rest := rest,
    hosted := ∅, contacts := Contacts.Book.default, preferences := Preferences.default }

/-- The hosted channels, their event cursors and their activity. -/
structure Retained where
  channels : StringMap Hosted.Archive
  activity : List Hosted.Activity

def isHosted (a : Hosted.Activity) : Bool := Commands.startsWith a.conversation "hosted/"

section Documents

variable {Rest : Type} (state : UiState Rest)

def UiState.retained : Retained := ⟨state.hosted, state.activity.filter isHosted⟩

/-- What a legacy client may rewrite, without the activity of the hosted channels. -/
def UiState.legacy : Legacy Rest :=
  { state.toLegacy with activity := state.activity.filter fun a => !isHosted a }

end Documents

/-- The JSON of a document. -/
structure Format (α : Type) where
  toVec : α → Except String (List UInt8)
  fromSlice : List UInt8 → Except String α

structure Formats (Rest : Type) where
  retained : Format Retained
  book : Format Contacts.Book
  preferences : Format Preferences
  legacy : Format (Legacy Rest)

/-- The bound on a document, 16 MiB. -/
def stateBound : ℕ := 16 * 1024 * 1024

/-- What a save takes from outside: a fresh nonce, and whether the disk fails. -/
structure Io where
  nonce : Bytes 12
  fault : Option (Fault × String)

structure SaveIo where
  hosted : Io
  contacts : Io
  preferences : Io
  legacy : Io

/-- A store that is open, and its file. -/
structure ChatServiceStore (Key : Type) where
  store : EncryptedStore Key
  file : Option (List UInt8)

structure ServiceStateStore (Key : Type) where
  legacy : ChatServiceStore Key
  hosted : ChatServiceStore Key
  contacts : ChatServiceStore Key
  preferences : ChatServiceStore Key

section Save

variable {Key Rest α : Type} (cipher : Cipher Key) (codec : Codec (List UInt8))
  (formats : Formats Rest)

def ChatServiceStore.save (format : Format α) (s : ChatServiceStore Key) (document : α) (io : Io) :
    ChatServiceStore Key × Except String Unit :=
  match format.toVec document with
  | .error message => (s, .error message)
  | .ok bytes =>
      if stateBound < bytes.length then (s, .error "chat service state exceeds its bound")
      else
        let (store, file, result) := s.store.save cipher codec s.file io.nonce bytes io.fault
        (⟨store, file⟩, result)

/-- Save a document that may not be there yet. -/
def ChatServiceStore.saveIf (format : Format α) (s : ChatServiceStore Key) (there : Bool)
    (document : α) (io : Io) : ChatServiceStore Key × Except String Unit :=
  if there || s.store.initialized then s.save cipher codec format document io else (s, .ok ())

def Book.isEmpty (book : Contacts.Book) : Bool := book.contacts.isEmpty && book.outbox.isEmpty

/-- Save the four documents. The runtime is acknowledged only after all writes; after a
crash between two of them the same events come again. -/
def ServiceStateStore.save (s : ServiceStateStore Key) (state : UiState Rest) (io : SaveIo) :
    ServiceStateStore Key × Except String Unit :=
  match s.hosted.saveIf cipher codec formats.retained (!state.hosted.isEmpty) state.retained
      io.hosted with
  | (hosted, .error message) => ({ s with hosted := hosted }, .error message)
  | (hosted, .ok _) =>
      match s.contacts.saveIf cipher codec formats.book (!Book.isEmpty state.contacts)
          state.contacts io.contacts with
      | (contacts, .error message) =>
          ({ s with hosted := hosted, contacts := contacts }, .error message)
      | (contacts, .ok _) =>
          match s.preferences.saveIf cipher codec formats.preferences (!state.preferences.isEmpty)
              state.preferences io.preferences with
          | (preferences, .error message) =>
              ({ s with hosted := hosted, contacts := contacts, preferences := preferences },
                .error message)
          | (preferences, .ok _) =>
              match s.legacy.save cipher codec formats.legacy state.legacy io.legacy with
              | (legacy, result) => (⟨legacy, hosted, contacts, preferences⟩, result)

end Save

/-! ### Opening -/

def uiMagic : Bytes 6 := ⟨[71, 67, 67, 85, 73, 49], rfl⟩

def hostedMagic : Bytes 6 := ⟨[71, 67, 67, 72, 73, 49], rfl⟩

def contactMagic : Bytes 6 := ⟨[71, 67, 67, 84, 67, 49], rfl⟩

def preferencesMagic : Bytes 6 := ⟨[71, 67, 80, 82, 70, 49], rfl⟩

/-- The four files of a profile. -/
structure Files where
  legacy : Option (List UInt8)
  hosted : Option (List UInt8)
  contacts : Option (List UInt8)
  preferences : Option (List UInt8)

/-- A salt for each file that is created. -/
structure Salts where
  legacy : Bytes 16
  hosted : Bytes 16
  contacts : Bytes 16
  preferences : Bytes 16

section Open

variable {Key Rest α : Type} (cipher : Cipher Key) (codec : Codec (List UInt8))

/-- Open the file of the service, or create it with the value of a new profile. -/
def openOrCreate (format : Format α) (file : Option (List UInt8)) (new : α)
    (key : Bytes 16 → Key) (salt : Bytes 16) (io : Io) :
    Except String (ChatServiceStore Key × α) :=
  match file with
  | some raw => do
      let (store, bytes) ← openWithKey cipher codec raw uiMagic
        "wrong passphrase or corrupted chat service state" key
      let document ← format.fromSlice bytes
      .ok (⟨store, some raw⟩, document)
  | none => do
      let store ← createWithKey none uiMagic "chat service state" salt key
      match ChatServiceStore.save cipher codec format ⟨store, none⟩ new io with
      | (_, .error message) => .error message
      | (store, .ok _) => .ok (store, new)

/-- Open a companion of the file of the service; one that is not there is not written yet. -/
def companion (format : Format α) (file : Option (List UInt8)) (new : α) (magic : Bytes 6)
    (key : Bytes 16 → Key) (salt : Bytes 16) : Except String (ChatServiceStore Key × α) :=
  match file with
  | some raw => do
      let (store, bytes) ← openWithKey cipher codec raw magic "corrupted application archive" key
      let document ← format.fromSlice bytes
      .ok (⟨store, some raw⟩, document)
  | none => do
      let store ← createWithKey none magic "application archive" salt key
      .ok (⟨store, none⟩, new)

end Open

/-- The activity by time; entries of one time keep their order. -/
def sortActivity (activity : List Hosted.Activity) : List Hosted.Activity :=
  activity.mergeSort fun a b => a.timestamp ≤ b.timestamp

/-- The keys of the files: that of the service comes from the passphrase, the others from
the key of the service and a domain. -/
structure Keys (Key : Type) where
  legacy : Bytes 16 → Key
  derive : Key → String → Bytes 16 → Key

section OpenState

variable {Key Rest : Type} (cipher : Cipher Key) (codec : Codec (List UInt8))
  (formats : Formats Rest) (contactCodec : Contacts.Codec)

/-- Open the companions and add what they keep to the state. -/
def ServiceStateStore.open (keys : Keys Key) (files : Files) (salts : Salts)
    (legacy : ChatServiceStore Key) (state : Legacy Rest) :
    Except String (ServiceStateStore Key × UiState Rest) := do
  let derive := keys.derive legacy.store.key
  let (hosted, retained) ← companion cipher codec formats.retained files.hosted ⟨∅, []⟩
    hostedMagic (derive "gchat-hosted-archive-v1") salts.hosted
  let (contacts, book) ← companion cipher codec formats.book files.contacts
    Contacts.Book.default contactMagic (derive "gchat-contact-archive-v1") salts.contacts
  let (preferences, prefs) ← companion cipher codec formats.preferences files.preferences
    Preferences.default preferencesMagic (derive "gchat-preferences-v1") salts.preferences
  Contacts.validateBook contactCodec book
  let activity := state.activity.filter (fun a => !isHosted a) ++ retained.activity
  .ok (⟨legacy, hosted, contacts, preferences⟩,
    { state with
      activity := sortActivity activity
      hosted := retained.channels
      contacts := book
      preferences := prefs })

end OpenState

end Service

end GChat
