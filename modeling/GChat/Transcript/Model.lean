import Mathlib.Logic.Function.Basic
import Mathlib.Order.Fin.Basic
import GChat.Store.Encrypted

/-!
# Transcripts

An append-only file of encrypted records behind a header with the identity of the
daemon. A record is its length in four bytes and the serialized ciphertext. Each
generation has its own salt and key; rotation starts the next one. Opening reads every
record, and whatever it cannot read is fatal.
-/

namespace GChat

namespace Transcript

open Foundation
open Store (Cipher)

inductive TranscriptPolicy where
  | standard
  | lab
deriving DecidableEq

inductive DeliveryState where
  | pending
  | received
  | delivered
  | failed
deriving DecidableEq

inductive ValidationResult where
  | notChecked
  | valid
  | invalid (reason : String)
deriving DecidableEq

structure TranscriptTimestamps where
  createdUnix : Fin (2 ^ 64)
  receivedUnix : Option (Fin (2 ^ 64))
  deliveredUnix : Option (Fin (2 ^ 64))
deriving DecidableEq

structure TranscriptEntry where
  peerIdentityHash : Bytes 32
  channel : Option String
  pseudonym : Option String
  sharedChannel : Bool
  contentType : String
  body : List UInt8
  deliveryState : DeliveryState
  timestamps : TranscriptTimestamps
  validation : ValidationResult
deriving DecidableEq

def isAsciiControl (c : Char) : Bool := c.toNat < 32 || c.toNat == 127

def TranscriptEntry.validate (entry : TranscriptEntry) (policy : TranscriptPolicy) :
    Except String Unit := do
  refuse (entry.contentType.toList.isEmpty ||
      entry.contentType.toList.any (fun c => 128 ≤ c.toNat) ||
      entry.contentType.toList.any isAsciiControl)
    "invalid transcript content type"
  refuse (entry.channel.isSome != entry.pseudonym.isSome)
    "channel and pseudonym must be present together"
  refuse (entry.sharedChannel && entry.channel.isNone) "shared transcript entry has no channel"
  refuse (entry.sharedChannel && policy != .lab)
    "shared channels require lab application policy"

structure EncryptedRecord where
  generation : Fin (2 ^ 32)
  salt : Bytes 16
  nonce : Bytes 12
  ciphertext : List UInt8

/-- The records as they are serialized. -/
def recordCodec : Codec EncryptedRecord :=
  ((Codec.below (2 ^ 32)).pair ((Codec.fixed 16).pair ((Codec.fixed 12).pair Codec.block))).narrow
    (fun (generation, salt, nonce, ciphertext) => .ok ⟨generation, salt, nonce, ciphertext⟩)
    (fun record => (record.generation, record.salt, record.nonce, record.ciphertext))
    fun _ => rfl

def deliveryStateCodec : Codec DeliveryState :=
  Codec.varint.narrow
    (fun
      | 0 => .ok .pending
      | 1 => .ok .received
      | 2 => .ok .delivered
      | 3 => .ok .failed
      | _ => .error "Serde Deserialization Error")
    (fun
      | .pending => 0
      | .received => 1
      | .delivered => 2
      | .failed => 3)
    fun state => by cases state <;> rfl

/-- The reason of an invalid result follows its tag. -/
def validationCodec : Codec ValidationResult where
  encode
    | .notChecked => Codec.varint.encode 0
    | .valid => Codec.varint.encode 1
    | .invalid reason => Codec.varint.encode 2 ++ Codec.text.encode reason
  decode bytes := do
    let (tag, rest) ← Codec.varint.decode bytes
    match tag with
    | 0 => .ok (.notChecked, rest)
    | 1 => .ok (.valid, rest)
    | 2 =>
        let (reason, rest) ← Codec.text.decode rest
        .ok (.invalid reason, rest)
    | _ => .error "Serde Deserialization Error"
  decode_encode result rest := by
    cases result with
    | notChecked => rfl
    | valid => rfl
    | invalid reason =>
        simp [List.append_assoc, Codec.decode_encode, bind, Except.bind]

def timestampsCodec : Codec TranscriptTimestamps :=
  ((Codec.below (2 ^ 64)).pair
      ((Codec.below (2 ^ 64)).option.pair (Codec.below (2 ^ 64)).option)).narrow
    (fun (created, received, delivered) => .ok ⟨created, received, delivered⟩)
    (fun timestamps =>
      (timestamps.createdUnix, timestamps.receivedUnix, timestamps.deliveredUnix))
    fun _ => rfl

/-- The entries as they are serialized. -/
def entryCodec : Codec TranscriptEntry :=
  ((Codec.fixed 32).pair (Codec.text.option.pair (Codec.text.option.pair (Codec.bool.pair
      (Codec.text.pair (Codec.block.pair (deliveryStateCodec.pair
        (timestampsCodec.pair validationCodec)))))))).narrow
    (fun (peer, channel, pseudonym, shared, contentType, body, state, timestamps, validation) =>
      .ok ⟨peer, channel, pseudonym, shared, contentType, body, state, timestamps, validation⟩)
    (fun entry =>
      (entry.peerIdentityHash, entry.channel, entry.pseudonym, entry.sharedChannel,
        entry.contentType, entry.body, entry.deliveryState, entry.timestamps, entry.validation))
    fun _ => rfl

def transcriptMagic : Bytes 6 := ⟨[71, 67, 67, 84, 88, 49], rfl⟩

def headerLen : ℕ := 6 + 32

def maxRecordBytes : ℕ := 16 * 1024 * 1024

def associatedData (daemonIdentityHash : Bytes 32) (generation : Fin (2 ^ 32)) : List UInt8 :=
  transcriptMagic.toList ++ daemonIdentityHash.toList ++ toBigEndian generation

def header (daemonIdentityHash : Bytes 32) : List UInt8 :=
  transcriptMagic.toList ++ daemonIdentityHash.toList

/-- A transcript that is open. -/
structure ApplicationTranscript (Key : Type) where
  daemonIdentityHash : Bytes 32
  generation : Fin (2 ^ 32)
  generationSalt : Bytes 16
  generationKey : Key
  policy : TranscriptPolicy

/-- What the reader knows after some records. The keys it keeps are those of the salts. -/
structure Reader where
  salts : Fin (2 ^ 32) → Option (Bytes 16)
  generation : Fin (2 ^ 32)
  entries : List TranscriptEntry

def Reader.start : Reader := ⟨fun _ => none, 0, []⟩

/-- Split the first record off: its length, and as many bytes. -/
def takeRecord (raw : List UInt8) : Except String (List UInt8 × List UInt8) :=
  if raw.length < 4 then .error "truncated transcript record length"
  else
    let length := fromBigEndian (raw.take 4)
    if maxRecordBytes < length then .error "transcript record exceeds limit"
    else if (raw.drop 4).length < length then .error "truncated transcript record"
    else .ok ((raw.drop 4).take length, (raw.drop 4).drop length)

theorem takeRecord_length {raw encoded rest : List UInt8}
    (h : takeRecord raw = .ok (encoded, rest)) : rest.length < raw.length := by
  unfold takeRecord at h
  split at h
  · cases h
  · dsimp only at h
    split at h
    · cases h
    · split at h
      · cases h
      · cases h
        simp only [List.length_drop]
        omega

section

variable {Key : Type} (cipher : Cipher Key) (records : Codec EncryptedRecord)
  (entries : Codec TranscriptEntry) (deriveKey : Bytes 16 → Key)

def decryptRecord (record : EncryptedRecord) (key : Key) (daemonIdentityHash : Bytes 32) :
    Except String TranscriptEntry := do
  let plain ← okOr
    (cipher.decrypt key record.nonce (associatedData daemonIdentityHash record.generation)
      record.ciphertext)
    "wrong passphrase or corrupted transcript"
  match entries.decode plain with
  | .error error => .error s!"invalid transcript entry: {error}"
  | .ok (entry, trailing) =>
      refuse (!trailing.isEmpty) "trailing bytes in transcript entry"
      .ok entry

/-- Read one record. -/
def Reader.record (daemonIdentityHash : Bytes 32) (policy : TranscriptPolicy) (reader : Reader)
    (encoded : List UInt8) : Except String Reader :=
  match records.decode encoded with
  | .error error => .error s!"invalid transcript record: {error}"
  | .ok (record, trailing) => do
      refuse (!trailing.isEmpty) "trailing bytes in transcript record"
      refuse ((reader.salts record.generation).any (· ≠ record.salt))
        "transcript generation changed encryption salt"
      let entry ← decryptRecord cipher entries record (deriveKey record.salt) daemonIdentityHash
      entry.validate policy
      .ok {
        salts := Function.update reader.salts record.generation (some record.salt)
        generation := max reader.generation record.generation
        entries := reader.entries ++ [entry] }

def readRecords (daemonIdentityHash : Bytes 32) (policy : TranscriptPolicy) (reader : Reader)
    (raw : List UInt8) : Except String Reader :=
  if raw.isEmpty then .ok reader
  else
    match _h : takeRecord raw with
    | .error message => .error message
    | .ok (encoded, rest) =>
        match reader.record cipher records entries deriveKey daemonIdentityHash policy encoded with
        | .error message => .error message
        | .ok reader => readRecords daemonIdentityHash policy reader rest
termination_by raw.length
decreasing_by exact takeRecord_length _h

/-- The reader after a whole file. -/
def readFile (raw : List UInt8) (expected : Bytes 32) (policy : TranscriptPolicy) :
    Except String Reader := do
  refuse (raw.length < headerLen || raw.take 6 ≠ transcriptMagic.toList)
    "not a command-center transcript"
  refuse ((raw.drop 6).take 32 ≠ expected.toList)
    "transcript belongs to a different daemon identity"
  readRecords cipher records entries deriveKey expected policy .start (raw.drop headerLen)

/-- A file that is opened for the first time. -/
def ApplicationTranscript.create (daemonIdentityHash : Bytes 32) (policy : TranscriptPolicy)
    (generationSalt : Bytes 16) : List UInt8 × ApplicationTranscript Key :=
  (header daemonIdentityHash,
    { daemonIdentityHash := daemonIdentityHash
      generation := 0
      generationSalt := generationSalt
      generationKey := deriveKey generationSalt
      policy := policy })

/-- Open a file. Its last generation goes on; a fresh salt is only used where it has none. -/
def ApplicationTranscript.open (raw : List UInt8) (expected : Bytes 32)
    (policy : TranscriptPolicy) (randomSalt : Bytes 16) :
    Except String (ApplicationTranscript Key × List TranscriptEntry) := do
  let reader ← readFile cipher records entries deriveKey raw expected policy
  let generationSalt := (reader.salts reader.generation).getD randomSalt
  .ok (
    { daemonIdentityHash := expected
      generation := reader.generation
      generationSalt := generationSalt
      generationKey := deriveKey generationSalt
      policy := policy },
    reader.entries)

/-- The bytes of the record of an entry, without their length. -/
def ApplicationTranscript.encode (transcript : ApplicationTranscript Key)
    (entry : TranscriptEntry) (nonce : Bytes 12) : Except String (List UInt8) := do
  entry.validate transcript.policy
  let aad := associatedData transcript.daemonIdentityHash transcript.generation
  let encoded := records.encode {
    generation := transcript.generation
    salt := transcript.generationSalt
    nonce := nonce
    ciphertext := cipher.encrypt transcript.generationKey nonce aad (entries.encode entry) }
  refuse (maxRecordBytes < encoded.length) "transcript record exceeds limit"
  refuse (2 ^ 32 ≤ encoded.length) "transcript record too large"
  .ok encoded

/-- A record as it stands in the file. -/
def frame (encoded : List UInt8) : List UInt8 := toBigEndian encoded.length ++ encoded

/-- Append an entry. Where the write fails, so many bytes of the record are in the file; all
of them, where it was the sync that failed. -/
def ApplicationTranscript.append (transcript : ApplicationTranscript Key)
    (file : List UInt8) (entry : TranscriptEntry) (nonce : Bytes 12)
    (fault : Option (ℕ × String)) : List UInt8 × Except String Unit :=
  match transcript.encode cipher records entries entry nonce with
  | .error message => (file, .error message)
  | .ok encoded =>
      match fault with
      | some (written, message) => (file ++ (frame encoded).take written, .error message)
      | none => (file ++ frame encoded, .ok ())

def ApplicationTranscript.rotate (transcript : ApplicationTranscript Key)
    (randomSalt : Bytes 16) : Except String (ApplicationTranscript Key) :=
  if h : transcript.generation.val + 1 < 2 ^ 32 then
    .ok { transcript with
      generation := ⟨transcript.generation.val + 1, h⟩
      generationSalt := randomSalt
      generationKey := deriveKey randomSalt }
  else .error "transcript generation exhausted"

end

end Transcript

end GChat
