import GChat.Migration.Legacy

/-!
# Splitting a combined profile

The profile is copied to a staging directory, opened there, and written as a protocol profile and
an archive; the copy is restored, and the directory is renamed to the destination. The sync of the
parent directory comes after the rename.
-/

namespace GChat

namespace Migration

open Foundation
open Store (Cipher EncryptedStore Fault openWithKey createWithKey openWithKey_output sampleCipher
  sampleCipher_lawful)

inductive StoreKind where
  | combined
  | archive
  | protocol
deriving DecidableEq

def storeKind (raw : List UInt8) : Except String StoreKind := do
  let magic ← readMagic raw
  if magic = storeMagic.toList ∨ magic = legacyMagic.toList then .ok .combined
  else if magic = archiveMagic.toList ∨ magic = legacyArchiveMagic.toList then .ok .archive
  else if magic = protocolMagic.toList then .ok .protocol
  else .error "not a gc client store"

/-- The directory of a migrated profile: `legacy.gcstore`, `profile.gcprotocol` and
`chat.gcarchive`. -/
structure Folder where
  legacy : List UInt8
  protocol : Option (List UInt8)
  archive : Option (List UInt8)

/-- The source of a migration, and its destination. -/
structure Disk where
  source : List UInt8
  destination : Option Folder

inductive CreatePoint where
  | ensureParent
  | lock
deriving DecidableEq

/-- The steps of a migration that may fail. -/
inductive Point where
  | validateSource
  | validateParent
  | lockSource
  | readSource
  | makeStage
  | privateStage
  | copySource
  | privateCopy
  | openCopy (point : OpenPoint)
  | createProtocol (point : CreatePoint)
  | saveProtocol (fault : Fault)
  | createArchive (point : CreatePoint)
  | saveNewArchive (fault : Fault)
  | saveArchive (fault : Fault)
  | restoreCopy
  | openRestored
  | syncRestored
  | rename
  | syncParent
deriving DecidableEq

abbrev Failure := Option (Point × String)

def openFault : Failure → Option (OpenPoint × String)
  | some (.openCopy point, message) => some (point, message)
  | _ => none

def protocolFault : Failure → Option (Fault × String)
  | some (.saveProtocol fault, message) => some (fault, message)
  | _ => none

def newArchiveFault : Failure → Option (Fault × String)
  | some (.saveNewArchive fault, message) => some (fault, message)
  | _ => none

def archiveFault : Failure → Option (Fault × String)
  | some (.saveArchive fault, message) => some (fault, message)
  | _ => none

/-- What was drawn at random: the salts of the new files, and the nonces of the saves. -/
structure Draws where
  protocolSalt : Bytes 16
  archiveSalt : Bytes 16
  nonces : Fin 4 → Bytes 12

section

variable {Key Rooms : Type} (cipher : Cipher Key) (key : Bytes 16 → Key) (rooms : Codec Rooms)
  (empty : Rooms) (safetyNumber : Bytes 32 → String)

/-- A save that succeeds leaves a store and its file. -/
def saved {Data : Type} (codec : Codec Data) (store : EncryptedStore Key)
    (file : Option (List UInt8)) (nonce : Bytes 12) (data : Data)
    (fault : Option (Fault × String)) :
    Except String (EncryptedStore Key × Option (List UInt8)) :=
  match store.save cipher codec file nonce data fault with
  | (store, file, .ok _) => .ok (store, file)
  | (_, _, .error message) => .error message

/-- Write the protocol profile and the archive of the data. -/
def split (data : StoreData Rooms) (draws : Draws) (failure : Failure) :
    Except String (Option (List UInt8) × Option (List UInt8)) := do
  check failure (.createProtocol .ensureParent)
  check failure (.createProtocol .lock)
  let protocol ← createWithKey none protocolMagic "migrated protocol profile" draws.protocolSalt key
  let (_, protocolFile) ← saved cipher protocolDataCodec protocol none (draws.nonces 1)
    ⟨data.identitySeed, data.nodeState⟩ (protocolFault failure)
  let safety := safetyNumber data.identitySeed
  refuse (data.archive.daemonSafetyNumber ≠ "" ∧ data.archive.daemonSafetyNumber ≠ safety)
    "legacy archive identity does not match its profile"
  check failure (.createArchive .ensureParent)
  check failure (.createArchive .lock)
  let archive ← createWithKey none archiveMagic "archive" draws.archiveSalt key
  let (archive, archiveFile) ← saved cipher (archiveDataCodec rooms) archive none (draws.nonces 2)
    { ArchiveData.default empty with daemonSafetyNumber := safety } (newArchiveFault failure)
  let (_, archiveFile) ← saved cipher (archiveDataCodec rooms) archive archiveFile (draws.nonces 3)
    { data.archive with daemonSafetyNumber := safety } (archiveFault failure)
  .ok (protocolFile, archiveFile)

/-- What stands in the staging directory before it is renamed. -/
def stage (disk : Disk) (hasParent : Bool) (draws : Draws) (failure : Failure) :
    Except String Folder := do
  refuse disk.destination.isSome "migration destination already exists"
  check failure .validateSource
  check failure .validateParent
  check failure .lockSource
  check failure .readSource
  let kind ← storeKind disk.source
  refuse (kind ≠ .combined) "migration requires a combined profile"
  refuse (!hasParent) "migration destination needs a parent"
  check failure .makeStage
  check failure .privateStage
  check failure .copySource
  check failure .privateCopy
  let (_, data) ← (openStore cipher key rooms empty disk.source (draws.nonces 0)
    (openFault failure)).2
  let (protocol, archive) ← split cipher key rooms empty safetyNumber data draws failure
  check failure .restoreCopy
  check failure .openRestored
  check failure .syncRestored
  .ok ⟨disk.source, protocol, archive⟩

end

/-! ### What is written -/

section

variable {Key Rooms : Type} {cipher : Cipher Key} {key : Bytes 16 → Key} {rooms : Codec Rooms}
  {empty : Rooms} {safetyNumber : Bytes 32 → String}

variable {disk : Disk} {hasParent : Bool} {draws : Draws} {failure : Failure}

end

/-! ### A profile that is migrated -/

namespace Sample

/-- A profile of the first format, without contacts. -/
def legacy : LegacyStoreData where
  identitySeed := Bytes.fill 32 7
  contacts := ⟨[]⟩
  conversations := ⟨[.direct "peer" []]⟩
  nodeState := some [1, 2, 3]

def rooms : Codec Unit := ⟨fun _ => [], fun raw => .ok ((), raw), fun _ _ => rfl⟩

def profile : Disk where
  source := (EncryptedStore.mk legacyMagic (Bytes.fill 16 1) () true).output sampleCipher
    legacyStoreDataCodec (Bytes.fill 12 0) legacy
  destination := none

def draws : Draws := ⟨Bytes.fill 16 2, Bytes.fill 16 3, fun _ => Bytes.fill 12 0⟩

end Sample

end Migration

end GChat
