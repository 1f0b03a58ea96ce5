import GChat.Store.Saves

/-!
# Profiles and archives of the first format

A file of the first format is read, its data is put into the current format, and the file is
replaced by one with the current magic. Any step may fail; whichever does, the file holds the same
data afterwards.
-/

namespace GChat

namespace Migration

open Foundation
open Store (Cipher EncryptedStore Fault openWithKey createWithKey openWithKey_output)

/-! ### The data -/

structure Contact where
  name : String
  card : String
  safetyNumber : String
  verified : Bool
deriving DecidableEq

structure ContactBook where
  contacts : List Contact
deriving DecidableEq

structure Message where
  id : Bytes 16
  tsUnix : Fin (2 ^ 64)
  sender : String
  mine : Bool
  text : String
deriving DecidableEq

inductive Conversation where
  | direct (peer : String) (messages : List Message)
  | channel (channel : String) (display : String) (owned : Bool) (messages : List Message)
deriving DecidableEq

structure Conversations where
  list : List Conversation
deriving DecidableEq

structure LegacyArchive where
  contacts : ContactBook
  conversations : Conversations
deriving DecidableEq

/-- An archive. `rooms` are its channels, its private messages and the cached descriptors. The
receipts of deliveries are not serialized. -/
structure ArchiveData (Rooms : Type) where
  daemonSafetyNumber : String
  rooms : Rooms
  legacy : LegacyArchive

/-- A combined profile. -/
structure StoreData (Rooms : Type) where
  identitySeed : Bytes 32
  archive : ArchiveData Rooms
  nodeState : Option (List UInt8)

structure LegacyStoreData where
  identitySeed : Bytes 32
  contacts : ContactBook
  conversations : Conversations
  nodeState : Option (List UInt8)

structure LegacyArchiveData where
  daemonSafetyNumber : String
  contacts : ContactBook
  conversations : Conversations

structure ProtocolData where
  identitySeed : Bytes 32
  nodeState : Option (List UInt8)

/-- The archive of a profile without any rooms. -/
def ArchiveData.default {Rooms : Type} (empty : Rooms) : ArchiveData Rooms where
  daemonSafetyNumber := ""
  rooms := empty
  legacy := ⟨⟨[]⟩, ⟨[]⟩⟩

/-! ### The data as it is serialized -/

def contactBookCodec : Codec ContactBook :=
  ((Codec.text.pair (Codec.text.pair (Codec.text.pair Codec.bool))).narrow
    (fun (name, card, safetyNumber, verified) => .ok (Contact.mk name card safetyNumber verified))
    (fun contact => (contact.name, contact.card, contact.safetyNumber, contact.verified))
    fun _ => rfl).list.narrow (fun contacts => .ok ⟨contacts⟩) ContactBook.contacts fun _ => rfl

def messageCodec : Codec Message :=
  ((Codec.fixed 16).pair ((Codec.below (2 ^ 64)).pair
      (Codec.text.pair (Codec.bool.pair Codec.text)))).narrow
    (fun (id, tsUnix, sender, mine, text) => .ok ⟨id, tsUnix, sender, mine, text⟩)
    (fun message => (message.id, message.tsUnix, message.sender, message.mine, message.text))
    fun _ => rfl

/-- The fields of a conversation follow its tag. -/
def conversationCodec : Codec Conversation where
  encode
    | .direct peer messages =>
        Codec.varint.encode 0 ++ (Codec.text.pair messageCodec.list).encode (peer, messages)
    | .channel channel display owned messages =>
        Codec.varint.encode 1 ++
          (Codec.text.pair (Codec.text.pair (Codec.bool.pair messageCodec.list))).encode
            (channel, display, owned, messages)
  decode bytes := do
    let (tag, rest) ← Codec.varint.decode bytes
    match tag with
    | 0 =>
        let ((peer, messages), rest) ← (Codec.text.pair messageCodec.list).decode rest
        .ok (.direct peer messages, rest)
    | 1 =>
        let ((channel, display, owned, messages), rest) ←
          (Codec.text.pair (Codec.text.pair (Codec.bool.pair messageCodec.list))).decode rest
        .ok (.channel channel display owned messages, rest)
    | _ => .error "Serde Deserialization Error"
  decode_encode conversation rest := by
    cases conversation with
    | direct peer messages =>
        simp only [List.append_assoc, Codec.decode_encode, bind, Except.bind]
    | channel channel display owned messages =>
        simp only [List.append_assoc, Codec.decode_encode, bind, Except.bind]

def conversationsCodec : Codec Conversations :=
  conversationCodec.list.narrow (fun list => .ok ⟨list⟩) Conversations.list fun _ => rfl

def legacyArchiveCodec : Codec LegacyArchive :=
  (contactBookCodec.pair conversationsCodec).narrow
    (fun (contacts, conversations) => .ok ⟨contacts, conversations⟩)
    (fun legacy => (legacy.contacts, legacy.conversations)) fun _ => rfl

def nodeStateCodec : Codec (Option (List UInt8)) := Codec.block.option

def legacyStoreDataCodec : Codec LegacyStoreData :=
  ((Codec.fixed 32).pair (contactBookCodec.pair (conversationsCodec.pair nodeStateCodec))).narrow
    (fun (seed, contacts, conversations, nodeState) =>
      .ok ⟨seed, contacts, conversations, nodeState⟩)
    (fun data => (data.identitySeed, data.contacts, data.conversations, data.nodeState))
    fun _ => rfl

def legacyArchiveDataCodec : Codec LegacyArchiveData :=
  (Codec.text.pair (contactBookCodec.pair conversationsCodec)).narrow
    (fun (safetyNumber, contacts, conversations) => .ok ⟨safetyNumber, contacts, conversations⟩)
    (fun data => (data.daemonSafetyNumber, data.contacts, data.conversations)) fun _ => rfl

def protocolDataCodec : Codec ProtocolData :=
  ((Codec.fixed 32).pair nodeStateCodec).narrow
    (fun (seed, nodeState) => .ok ⟨seed, nodeState⟩)
    (fun data => (data.identitySeed, data.nodeState)) fun _ => rfl

section

variable {Rooms : Type} (rooms : Codec Rooms)

def archiveDataCodec : Codec (ArchiveData Rooms) :=
  (Codec.text.pair (rooms.pair legacyArchiveCodec)).narrow
    (fun (safetyNumber, rooms, legacy) => .ok ⟨safetyNumber, rooms, legacy⟩)
    (fun data => (data.daemonSafetyNumber, data.rooms, data.legacy)) fun _ => rfl

def storeDataCodec : Codec (StoreData Rooms) :=
  ((Codec.fixed 32).pair ((archiveDataCodec rooms).pair nodeStateCodec)).narrow
    (fun (seed, archive, nodeState) => .ok ⟨seed, archive, nodeState⟩)
    (fun data => (data.identitySeed, data.archive, data.nodeState)) fun _ => rfl

end

/-! ### Opening a file -/

def storeMagic : Bytes 6 := ⟨[71, 67, 67, 83, 84, 50], rfl⟩

def archiveMagic : Bytes 6 := ⟨[71, 67, 67, 65, 82, 50], rfl⟩

def legacyMagic : Bytes 6 := ⟨[71, 67, 67, 83, 84, 49], rfl⟩

def legacyArchiveMagic : Bytes 6 := ⟨[71, 67, 67, 65, 82, 49], rfl⟩

def protocolMagic : Bytes 6 := ⟨[71, 67, 80, 82, 84, 49], rfl⟩

/-- The steps of opening a file that may fail. -/
inductive OpenPoint where
  | readMagic
  | ensureParent
  | validateFile
  | lock
  | read
  | save (fault : Fault)
deriving DecidableEq

/-- The magic of a file, where it is long enough to have one. -/
def readMagic (raw : List UInt8) : Except String (List UInt8) :=
  if raw.length < 6 then .error "not a gc client store" else .ok (raw.take 6)

/-- A step fails. -/
def check {Point : Type} [DecidableEq Point] (fault : Option (Point × String)) (point : Point) :
    Except String Unit :=
  match fault with
  | some (other, message) => if other = point then .error message else .ok ()
  | none => .ok ()

def saveFault : Option (OpenPoint × String) → Option (Fault × String)
  | some (.save fault, message) => some (fault, message)
  | _ => none

section

variable {Key Legacy Data : Type} (cipher : Cipher Key) (key : Bytes 16 → Key)
  (oldMagic magic : Bytes 6) (corruption : String) (oldCodec : Codec Legacy) (codec : Codec Data)
  (upgrade : Legacy → Data)

/-- Open a file that may be of the first format, and replace it if it is. -/
def openUpgrading (raw : List UInt8) (nonce : Bytes 12) (fault : Option (OpenPoint × String)) :
    List UInt8 × Except String (EncryptedStore Key × Data) :=
  let start : Except String (List UInt8) := do
    check fault .readMagic
    let found ← readMagic raw
    check fault .ensureParent
    check fault .validateFile
    check fault .lock
    check fault .read
    .ok found
  match start with
  | .error message => (raw, .error message)
  | .ok found =>
      if found = oldMagic.toList then
        match openWithKey cipher oldCodec raw oldMagic corruption key with
        | .error message => (raw, .error message)
        | .ok (old, legacy) =>
            let store := { old with magic := magic }
            match store.save cipher codec (some raw) nonce (upgrade legacy) (saveFault fault) with
            | (store, file, .ok _) => (file.getD raw, .ok (store, upgrade legacy))
            | (_, file, .error message) => (file.getD raw, .error message)
      else (raw, openWithKey cipher codec raw magic corruption key)

/-- The file holds the data, in either format. -/
def Holds (raw : List UInt8) (data : Data) : Prop :=
  (raw.take 6 = oldMagic.toList ∧ ∃ store legacy,
    openWithKey cipher oldCodec raw oldMagic corruption key = .ok (store, legacy) ∧
      upgrade legacy = data) ∨
  (raw.take 6 ≠ oldMagic.toList ∧ ∃ store,
    openWithKey cipher codec raw magic corruption key = .ok (store, data))

end

section Stores

variable {Key Rooms : Type} (cipher : Cipher Key) (key : Bytes 16 → Key) (rooms : Codec Rooms)
  (empty : Rooms)

def LegacyStoreData.upgrade (legacy : LegacyStoreData) : StoreData Rooms where
  identitySeed := legacy.identitySeed
  archive := { ArchiveData.default empty with
    legacy := ⟨legacy.contacts, legacy.conversations⟩ }
  nodeState := legacy.nodeState

def LegacyArchiveData.upgrade (legacy : LegacyArchiveData) : ArchiveData Rooms where
  daemonSafetyNumber := legacy.daemonSafetyNumber
  rooms := empty
  legacy := ⟨legacy.contacts, legacy.conversations⟩

def openStore : List UInt8 → Bytes 12 → Option (OpenPoint × String) →
    List UInt8 × Except String (EncryptedStore Key × StoreData Rooms) :=
  openUpgrading cipher key legacyMagic storeMagic "wrong passphrase or corrupted store"
    legacyStoreDataCodec (storeDataCodec rooms) (LegacyStoreData.upgrade empty)

def openArchive : List UInt8 → Bytes 12 → Option (OpenPoint × String) →
    List UInt8 × Except String (EncryptedStore Key × ArchiveData Rooms) :=
  openUpgrading cipher key legacyArchiveMagic archiveMagic "wrong passphrase or corrupted archive"
    legacyArchiveDataCodec (archiveDataCodec rooms) (LegacyArchiveData.upgrade empty)

end Stores

/-! ### What a file holds after it was opened -/

theorem openWithKey_cases {Key Data : Type} {cipher : Cipher Key} {codec : Codec Data}
    {raw : List UInt8} {magic : Bytes 6} {corruption : String} {key : Bytes 16 → Key}
    {store : EncryptedStore Key} {data : Data}
    (h : openWithKey cipher codec raw magic corruption key = .ok (store, data)) :
    store.magic = magic ∧ store.key = key store.salt ∧ store.initialized = true ∧
      6 ≤ raw.length ∧ raw.take 6 = magic.toList := by
  unfold openWithKey at h
  obtain ⟨⟨salt, nonce⟩, hheader, h⟩ := bind_eq_ok.mp h
  obtain ⟨plain, -, h⟩ := bind_eq_ok.mp h
  have hfile : 6 ≤ raw.length ∧ raw.take 6 = magic.toList := by
    unfold Store.parseHeader at hheader
    split at hheader
    next hlong =>
      refine ⟨?_, hlong.2⟩
      have hlength := hlong.1
      unfold Store.headerLen at hlength
      omega
    · cases hheader
  split at h
  · cases h
  · obtain ⟨-, -, h⟩ := bind_eq_ok.mp h
    cases h
    exact ⟨rfl, rfl, rfl, hfile⟩

theorem readMagic_eq {raw found : List UInt8} (h : readMagic raw = .ok found) :
    found = raw.take 6 := by
  unfold readMagic at h
  split at h
  · cases h
  · cases h
    rfl

theorem check_none {Point : Type} [DecidableEq Point] (point : Point) :
    check none point = .ok () := rfl

section Holds

variable {Key Legacy Data : Type} {cipher : Cipher Key} {key : Bytes 16 → Key}
  {oldMagic magic : Bytes 6} {corruption : String} {oldCodec : Codec Legacy} {codec : Codec Data}
  {upgrade : Legacy → Data} {raw : List UInt8} {data : Data}

theorem take_output (store : EncryptedStore Key) (nonce : Bytes 12) (data : Data) :
    (store.output cipher codec nonce data).take 6 = store.magic.toList := by
  unfold EncryptedStore.output
  simp only [List.append_assoc]
  exact List.take_left' store.magic.length_toList

/-- A store that is saved holds what was saved. -/
theorem holds_output (hcipher : cipher.Lawful) (hmagic : magic.toList ≠ oldMagic.toList)
    (store : EncryptedStore Key) (hstore : store.magic = magic)
    (hkey : store.key = key store.salt) (nonce : Bytes 12) (data : Data) :
    Holds cipher key oldMagic magic corruption oldCodec codec upgrade
      (store.output cipher codec nonce data) data := by
  subst hstore
  refine Or.inr ⟨?_, _, openWithKey_output hcipher store hkey corruption nonce data⟩
  rwa [take_output]

/-- The write of a file that is there: it fails and leaves the file, it fails after the file is
replaced, or it replaces the file. -/
theorem save_initialized (cipher : Cipher Key) (codec : Codec Data) (raw : List UInt8)
    (store : EncryptedStore Key) (hstore : store.initialized = true) (nonce : Bytes 12)
    (data : Data) (fault : Option (Fault × String)) :
    (∃ message, store.save cipher codec (some raw) nonce data fault =
      (store, some raw, .error message)) ∨
    (∃ message, store.save cipher codec (some raw) nonce data fault =
      (store, some (store.output cipher codec nonce data), .error message)) ∨
    store.save cipher codec (some raw) nonce data fault =
      ({ store with initialized := true }, some (store.output cipher codec nonce data),
        .ok ()) := by
  unfold EncryptedStore.save Store.atomicWrite
  rw [hstore]
  rcases fault with _ | ⟨fault, message⟩
  · exact Or.inr (Or.inr rfl)
  · cases fault with
    | syncDirectory => exact Or.inr (Or.inl ⟨message, rfl⟩)
    | createTemporary => exact Or.inl ⟨message, rfl⟩
    | makePrivate => exact Or.inl ⟨message, rfl⟩
    | write => exact Or.inl ⟨message, rfl⟩
    | sync => exact Or.inl ⟨message, rfl⟩
    | rename => exact Or.inl ⟨message, rfl⟩

/-- Opening a file leaves what it holds, and returns nothing else. -/
theorem Holds.openUpgrading (hcipher : cipher.Lawful) (hmagic : magic.toList ≠ oldMagic.toList)
    (h : Holds cipher key oldMagic magic corruption oldCodec codec upgrade raw data)
    (nonce : Bytes 12) (fault : Option (OpenPoint × String)) :
    Holds cipher key oldMagic magic corruption oldCodec codec upgrade
        (openUpgrading cipher key oldMagic magic corruption oldCodec codec upgrade raw nonce
          fault).1 data ∧
      ∀ store other, (openUpgrading cipher key oldMagic magic corruption oldCodec codec upgrade raw
        nonce fault).2 = .ok (store, other) → other = data := by
  unfold Migration.openUpgrading
  dsimp only
  split
  · exact ⟨h, nofun⟩
  next found hstart =>
    obtain ⟨-, -, hstart⟩ := bind_eq_ok.mp hstart
    obtain ⟨magicFound, hfound, hstart⟩ := bind_eq_ok.mp hstart
    obtain ⟨-, -, hstart⟩ := bind_eq_ok.mp hstart
    obtain ⟨-, -, hstart⟩ := bind_eq_ok.mp hstart
    obtain ⟨-, -, hstart⟩ := bind_eq_ok.mp hstart
    obtain ⟨-, -, hstart⟩ := bind_eq_ok.mp hstart
    cases hstart
    have htake := readMagic_eq hfound
    subst htake
    obtain ⟨hold, old, legacy, hopen, hlegacy⟩ | ⟨hnew, store, hopen⟩ := h
    · rw [if_pos hold, hopen]
      obtain ⟨-, hkey, hinitialized, -⟩ := openWithKey_cases hopen
      dsimp only
      rw [hlegacy]
      have hkept : Holds cipher key oldMagic magic corruption oldCodec codec upgrade raw data :=
        Or.inl ⟨hold, old, legacy, hopen, hlegacy⟩
      have hsaved : Holds cipher key oldMagic magic corruption oldCodec codec upgrade
          (({ old with magic := magic } : EncryptedStore Key).output cipher codec nonce data)
            data :=
        holds_output hcipher hmagic { old with magic := magic } rfl hkey nonce data
      obtain ⟨message, hsave⟩ | ⟨message, hsave⟩ | hsave :=
        save_initialized cipher codec raw { old with magic := magic } hinitialized nonce data
          (saveFault fault)
      · rw [hsave]
        exact ⟨hkept, nofun⟩
      · rw [hsave]
        exact ⟨hsaved, nofun⟩
      · rw [hsave]
        refine ⟨hsaved, fun store other hother => ?_⟩
        cases hother
        rfl
    · rw [if_neg hnew, hopen]
      refine ⟨Or.inr ⟨hnew, store, hopen⟩, fun store other hother => ?_⟩
      cases hother
      rfl

/-- Where no step fails, the file opens. -/
theorem Holds.opens
    (h : Holds cipher key oldMagic magic corruption oldCodec codec upgrade raw data)
    (nonce : Bytes 12) :
    ∃ store, (Migration.openUpgrading cipher key oldMagic magic corruption oldCodec codec upgrade
      raw nonce none).2 = .ok (store, data) := by
  have hlength : readMagic raw = .ok (raw.take 6) := by
    have hlong : 6 ≤ raw.length := by
      obtain ⟨-, store, legacy, hopen, -⟩ | ⟨-, store, hopen⟩ := h
      · exact (openWithKey_cases hopen).2.2.2.1
      · exact (openWithKey_cases hopen).2.2.2.1
    exact if_neg (Nat.not_lt.mpr hlong)
  unfold Migration.openUpgrading
  simp only [check_none, hlength, bind, Except.bind]
  obtain ⟨hold, old, legacy, hopen, hlegacy⟩ | ⟨hnew, store, hopen⟩ := h
  · rw [if_pos hold, hopen]
    obtain ⟨-, -, hinitialized, -⟩ := openWithKey_cases hopen
    dsimp only
    rw [hlegacy]
    unfold EncryptedStore.save Store.atomicWrite saveFault
    rw [hinitialized]
    exact ⟨_, rfl⟩
  · rw [if_neg hnew, hopen]
    exact ⟨store, rfl⟩

end Holds

/-! ### Opening it again and again -/

end Migration

end GChat
