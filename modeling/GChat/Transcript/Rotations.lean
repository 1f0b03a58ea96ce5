import GChat.Transcript.Appends
import Mathlib.Algebra.GroupWithZero.Nat

/-!
# Rotations

A key is derived from the passphrase and the salt of its generation, and deriving may fail.
Rotation raises the generation and takes the new salt before it derives the key. Whether deriving
fails depends on the passphrase alone, so no transcript that was created or opened fails there.
-/

namespace GChat

namespace Transcript

open Foundation
open Store (Cipher sampleCipher sampleCipher_lawful)

/-! ### Transcripts with keys that are derived -/

namespace Deriving

section

variable {Key : Type} (cipher : Cipher Key) (records : Codec EncryptedRecord)
  (entries : Codec TranscriptEntry) (derive : Bytes 16 → Except String Key)

/-- Read one record. A generation keeps its salt, so deriving its key again gives the same key. -/
def record (daemonIdentityHash : Bytes 32) (policy : TranscriptPolicy) (reader : Reader)
    (encoded : List UInt8) : Except String Reader :=
  match records.decode encoded with
  | .error error => .error s!"invalid transcript record: {error}"
  | .ok (record, trailing) => do
      refuse (!trailing.isEmpty) "trailing bytes in transcript record"
      refuse ((reader.salts record.generation).any (· ≠ record.salt))
        "transcript generation changed encryption salt"
      let key ← derive record.salt
      let entry ← decryptRecord cipher entries record key daemonIdentityHash
      entry.validate policy
      .ok {
        salts := Function.update reader.salts record.generation (some record.salt)
        generation := max reader.generation record.generation
        entries := reader.entries ++ [entry] }

def readRecords (daemonIdentityHash : Bytes 32) (policy : TranscriptPolicy) (reader : Reader)
    (raw : List UInt8) : Except String Reader :=
  if raw.isEmpty then .ok reader
  else
    match _h : takeRecord raw with
    | .error message => .error message
    | .ok (encoded, rest) =>
        match record cipher records entries derive daemonIdentityHash policy reader encoded with
        | .error message => .error message
        | .ok reader => readRecords daemonIdentityHash policy reader rest
termination_by raw.length
decreasing_by exact takeRecord_length _h

def readFile (raw : List UInt8) (expected : Bytes 32) (policy : TranscriptPolicy) :
    Except String Reader := do
  refuse (raw.length < headerLen || raw.take 6 ≠ transcriptMagic.toList)
    "not a command-center transcript"
  refuse ((raw.drop 6).take 32 ≠ expected.toList)
    "transcript belongs to a different daemon identity"
  readRecords cipher records entries derive expected policy .start (raw.drop headerLen)

/-- Open a file. A key that was derived for a record of the last generation is derived again
here, which makes no difference. -/
def «open» (raw : List UInt8) (expected : Bytes 32) (policy : TranscriptPolicy)
    (randomSalt : Bytes 16) : Except String (ApplicationTranscript Key × List TranscriptEntry) := do
  let reader ← readFile cipher records entries derive raw expected policy
  let generationSalt := (reader.salts reader.generation).getD randomSalt
  let generationKey ← derive generationSalt
  .ok (
    { daemonIdentityHash := expected
      generation := reader.generation
      generationSalt := generationSalt
      generationKey := generationKey
      policy := policy },
    reader.entries)

/-- There is a first generation. -/
local instance generations_neZero : NeZero (2 ^ 32) := ⟨by decide⟩

def create (daemonIdentityHash : Bytes 32) (policy : TranscriptPolicy)
    (generationSalt : Bytes 16) : Except String (List UInt8 × ApplicationTranscript Key) := do
  let generationKey ← derive generationSalt
  .ok (header daemonIdentityHash,
    { daemonIdentityHash := daemonIdentityHash
      generation := 0
      generationSalt := generationSalt
      generationKey := generationKey
      policy := policy })

/-- Where no key can be derived, the generation and the salt have changed and the key has not. -/
def rotate (transcript : ApplicationTranscript Key) (randomSalt : Bytes 16) :
    ApplicationTranscript Key × Except String (Fin (2 ^ 32)) :=
  if h : transcript.generation.val + 1 < 2 ^ 32 then
    let moved := { transcript with
      generation := ⟨transcript.generation.val + 1, h⟩
      generationSalt := randomSalt }
    match derive randomSalt with
    | .error message => (moved, .error message)
    | .ok key => ({ moved with generationKey := key }, .ok moved.generation)
  else (transcript, .error "transcript generation exhausted")

end

/-- Whether a key can be derived does not depend on the salt: the salts have one length, and the
parameters are fixed. -/
def SaltFree {Key : Type} (derive : Bytes 16 → Except String Key) : Prop :=
  ∀ salt other, (derive salt).isOk = (derive other).isOk

/-- Where one key could be derived, all can. -/
theorem SaltFree.total {Key : Type} {derive : Bytes 16 → Except String Key}
    (h : SaltFree derive) {salt : Bytes 16} {key : Key} (hkey : derive salt = .ok key) :
    ∃ deriveKey : Bytes 16 → Key, derive = fun salt => .ok (deriveKey salt) := by
  have hall : ∀ other, ∃ key, derive other = .ok key := by
    intro other
    have hok := h other salt
    rw [hkey] at hok
    cases hother : derive other with
    | error message =>
        rw [hother] at hok
        cases hok
    | ok key => exact ⟨key, rfl⟩
  choose deriveKey hderive using hall
  exact ⟨deriveKey, funext hderive⟩

/-! ### Where every key can be derived -/

section Total

variable {Key : Type} {cipher : Cipher Key} {records : Codec EncryptedRecord}
  {entries : Codec TranscriptEntry} {deriveKey : Bytes 16 → Key} {identity : Bytes 32}
  {policy : TranscriptPolicy}

theorem record_total (reader : Reader) (encoded : List UInt8) :
    record cipher records entries (fun salt => .ok (deriveKey salt)) identity policy reader
      encoded = reader.record cipher records entries deriveKey identity policy encoded := rfl

theorem readRecords_total (reader : Reader) (raw : List UInt8) :
    readRecords cipher records entries (fun salt => .ok (deriveKey salt)) identity policy reader
      raw = Transcript.readRecords cipher records entries deriveKey identity policy reader raw := by
  induction hlength : raw.length using Nat.strong_induction_on generalizing reader raw with
  | _ n ih =>
      cases hraw : raw with
      | nil =>
          rw [readRecords, Transcript.readRecords_nil, List.isEmpty_nil, if_pos rfl]
      | cons b tail =>
          have hne : ¬ raw.isEmpty = true := by simp [hraw]
          rw [← hraw, readRecords, if_neg hne]
          cases htake : takeRecord raw with
          | error message =>
              rw [readRecords_cut (by simp [hraw]) htake]
          | ok pair =>
              obtain ⟨encoded, rest⟩ := pair
              rw [readRecords_record htake, ← record_total]
              split
              next hother => cases hother
              next hother =>
                cases hother
                cases record cipher records entries (fun salt => .ok (deriveKey salt)) identity
                    policy reader encoded with
                | error message => rfl
                | ok next => exact ih rest.length (hlength ▸ takeRecord_length htake) next rest rfl

theorem open_total (raw : List UInt8) (randomSalt : Bytes 16) :
    Deriving.open cipher records entries (fun salt => .ok (deriveKey salt)) raw identity policy
      randomSalt = ApplicationTranscript.open cipher records entries deriveKey raw identity policy
        randomSalt := by
  unfold Deriving.open ApplicationTranscript.open readFile Transcript.readFile
  rw [readRecords_total]
  rfl

/-- A rotation fails only where the generations are exhausted. -/
theorem rotate_total (transcript : ApplicationTranscript Key) (randomSalt : Bytes 16) :
    rotate (fun salt => .ok (deriveKey salt)) transcript randomSalt =
      match transcript.rotate deriveKey randomSalt with
      | .ok rotated => (rotated, .ok rotated.generation)
      | .error message => (transcript, .error message) := by
  unfold rotate ApplicationTranscript.rotate
  by_cases h : transcript.generation.val + 1 < 2 ^ 32
  · rw [dif_pos h, dif_pos h]
  · rw [dif_neg h, dif_neg h]

end Total

end Deriving

/-! ### Runs -/

/-- A file, the transcript that has it open, the entries appended successfully, and the generation
of the last of them. -/
structure Book (Key : Type) where
  file : List UInt8
  transcript : Option (ApplicationTranscript Key)
  appended : List TranscriptEntry
  last : Fin (2 ^ 32)

inductive Access where
  | append (entry : TranscriptEntry) (nonce : Bytes 12)
  | rotate (randomSalt : Bytes 16)
  | close
  | open (randomSalt : Bytes 16)

section

variable {Key : Type} (cipher : Cipher Key) (records : Codec EncryptedRecord)
  (entries : Codec TranscriptEntry) (derive : Bytes 16 → Except String Key) (identity : Bytes 32)
  (policy : TranscriptPolicy)

/-- A file that is open is locked, and cannot be opened again. -/
def Book.step (s : Book Key) : Access → Book Key
  | .append entry nonce =>
      match s.transcript with
      | none => s
      | some transcript =>
          match transcript.append cipher records entries s.file entry nonce none with
          | (file, .ok _) =>
              { s with
                file := file, appended := s.appended ++ [entry], last := transcript.generation }
          | (file, .error _) => { s with file := file }
  | .rotate randomSalt =>
      match s.transcript with
      | none => s
      | some transcript =>
          { s with transcript := some (Deriving.rotate derive transcript randomSalt).1 }
  | .close => { s with transcript := none }
  | .open randomSalt =>
      match s.transcript with
      | some _ => s
      | none =>
          { s with
            transcript := (Deriving.open cipher records entries derive s.file identity policy
              randomSalt).toOption.map Prod.fst }

/-- Opening returns the entries that were appended, in order, and the generation of the last; and
a rotation that fails leaves the transcript as it was. -/
structure Book.RoundTrip (s : Book Key) : Prop where
  opens : ∀ randomSalt, ∃ transcript, Deriving.open cipher records entries derive s.file identity
    policy randomSalt = .ok (transcript, s.appended) ∧ transcript.generation = s.last
  rotates : ∀ transcript, s.transcript = some transcript → ∀ randomSalt message,
    (Deriving.rotate derive transcript randomSalt).2 = .error message →
      (Deriving.rotate derive transcript randomSalt).1 = transcript

end

section Runs

variable {Key : Type} {cipher : Cipher Key} {records : Codec EncryptedRecord}
  {entries : Codec TranscriptEntry} {deriveKey : Bytes 16 → Key} {identity : Bytes 32}
  {policy : TranscriptPolicy}

/-- The file reads as what was appended, and the transcript goes on from there. -/
def Book.Faithful (cipher : Cipher Key) (records : Codec EncryptedRecord)
    (entries : Codec TranscriptEntry) (deriveKey : Bytes 16 → Key) (identity : Bytes 32)
    (policy : TranscriptPolicy) (s : Book Key) : Prop :=
  ∃ reader, readFile cipher records entries deriveKey s.file identity policy = .ok reader ∧
    reader.entries = s.appended ∧ reader.generation = s.last ∧
    ∀ transcript, s.transcript = some transcript →
      transcript.Fits deriveKey identity policy reader ∧ s.last ≤ transcript.generation

theorem open_last {raw : List UInt8} {reader : Reader}
    (h : readFile cipher records entries deriveKey raw identity policy = .ok reader)
    (randomSalt : Bytes 16) :
    ∃ transcript, ApplicationTranscript.open cipher records entries deriveKey raw identity policy
      randomSalt = .ok (transcript, reader.entries) ∧ transcript.generation = reader.generation := by
  unfold ApplicationTranscript.open
  rw [h]
  exact ⟨_, rfl, rfl⟩

theorem Book.Faithful.append (hcipher : cipher.Lawful) {s : Book Key}
    (hs : s.Faithful cipher records entries deriveKey identity policy) {derive}
    {entry : TranscriptEntry} {nonce : Bytes 12} :
    (s.step cipher records entries derive identity policy (.append entry nonce)).Faithful cipher
      records entries deriveKey identity policy := by
  unfold Book.step
  cases htranscript : s.transcript with
  | none => exact hs
  | some transcript =>
      dsimp only
      unfold ApplicationTranscript.append
      cases hencode : transcript.encode cipher records entries entry nonce with
      | error message =>
          dsimp only
          rw [← htranscript]
          exact hs
      | ok encoded =>
          obtain ⟨reader, hread, hentries, hlast, htranscripts⟩ := hs
          obtain ⟨hfits, hle⟩ := htranscripts transcript htranscript
          refine ⟨_, readFile_frame hcipher hread hfits hencode, ?_, ?_, ?_⟩
          · rw [hentries]
          · rw [hlast]
            exact max_eq_right hle
          · intro other hother
            cases hother
            exact ⟨hfits.record entry, le_rfl⟩

theorem Book.Faithful.step (hcipher : cipher.Lawful) {s : Book Key}
    (hs : s.Faithful cipher records entries deriveKey identity policy) (access : Access) :
    (s.step cipher records entries (fun salt => .ok (deriveKey salt)) identity policy
      access).Faithful cipher records entries deriveKey identity policy := by
  cases access with
  | append entry nonce => exact hs.append hcipher
  | rotate randomSalt =>
      unfold Book.step
      cases htranscript : s.transcript with
      | none => exact hs
      | some transcript =>
          obtain ⟨reader, hread, hentries, hlast, htranscripts⟩ := hs
          obtain ⟨hfits, hle⟩ := htranscripts transcript htranscript
          refine ⟨reader, hread, hentries, hlast, fun other hother => ?_⟩
          cases hother
          rw [Deriving.rotate_total]
          cases hrotate : transcript.rotate deriveKey randomSalt with
          | error message => exact ⟨hfits, hle⟩
          | ok rotated =>
              refine ⟨hfits.rotate hrotate, hle.trans ?_⟩
              unfold ApplicationTranscript.rotate at hrotate
              split at hrotate
              · cases hrotate
                exact Nat.le_succ _
              · cases hrotate
  | close =>
      obtain ⟨reader, hread, hentries, hlast, -⟩ := hs
      exact ⟨reader, hread, hentries, hlast, nofun⟩
  | «open» randomSalt =>
      unfold Book.step
      cases htranscript : s.transcript with
      | some transcript => exact hs
      | none =>
          obtain ⟨reader, hread, hentries, hlast, -⟩ := hs
          refine ⟨reader, hread, hentries, hlast, fun transcript hopened => ?_⟩
          dsimp only at hopened
          rw [Deriving.open_total] at hopened
          obtain ⟨opened, hopen, hgeneration⟩ := open_last hread randomSalt
          rw [hopen] at hopened
          cases hopened
          obtain ⟨other, hother, -, hfits⟩ := open_cases hopen
          cases hread.symm.trans hother
          exact ⟨hfits, (hgeneration.trans hlast).ge⟩

/-- After any appends, rotations and restarts, opening returns the entries whose append succeeded
and the generation of the last, and a rotation that fails has changed nothing. -/
theorem rotations_round_trip {derive : Bytes 16 → Except String Key} (hcipher : cipher.Lawful)
    (hderive : Deriving.SaltFree derive) {salt : Bytes 16} {file : List UInt8}
    {transcript : ApplicationTranscript Key}
    (hcreate : Deriving.create derive identity policy salt = .ok (file, transcript))
    (accesses : List Access) :
    (accesses.foldl (Book.step cipher records entries derive identity policy)
      ⟨file, some transcript, [], 0⟩).RoundTrip cipher records entries derive identity policy := by
  obtain ⟨key, hkey, hcreated⟩ := bind_eq_ok.mp hcreate
  cases hcreated
  obtain ⟨deriveKey, rfl⟩ := hderive.total hkey
  cases hkey
  have hstart : (Book.mk (header identity)
      (some ⟨identity, 0, salt, deriveKey salt, policy⟩) [] 0).Faithful cipher records entries
        deriveKey identity policy := by
    refine ⟨.start, readFile_header identity, rfl, rfl, fun other hother => ?_⟩
    cases hother
    exact ⟨⟨rfl, rfl, rfl, nofun⟩, le_rfl⟩
  have hrun : ∀ (accesses : List Access) (s : Book Key),
      s.Faithful cipher records entries deriveKey identity policy →
      (accesses.foldl (Book.step cipher records entries (fun salt => .ok (deriveKey salt)) identity
        policy) s).Faithful cipher records entries deriveKey identity policy := by
    intro accesses
    induction accesses with
    | nil => exact fun _ hs => hs
    | cons access accesses ih => exact fun s hs => ih _ (hs.step hcipher access)
  obtain ⟨reader, hread, hentries, hlast, -⟩ := hrun accesses _ hstart
  refine ⟨fun randomSalt => ?_, fun other _ randomSalt message hrotate => ?_⟩
  · obtain ⟨opened, hopen, hgeneration⟩ := open_last hread randomSalt
    rw [Deriving.open_total, hopen, hentries]
    exact ⟨opened, rfl, hgeneration.trans hlast⟩
  · rw [Deriving.rotate_total] at hrotate ⊢
    cases h : other.rotate deriveKey randomSalt with
    | error message => rfl
    | ok rotated =>
        rw [h] at hrotate
        cases hrotate

end Runs

/-- Appends in three generations, the second of them empty, with a restart in between. -/
def sampleAccesses : List Access :=
  [.append (sampleEntry [1]) (Bytes.fill 12 0), .rotate (Bytes.fill 16 2), .close,
    .open (Bytes.fill 16 3), .rotate (Bytes.fill 16 4), .rotate (Bytes.fill 16 5),
    .append (sampleEntry [2]) (Bytes.fill 12 0), .close, .open (Bytes.fill 16 6),
    .append (sampleEntry [3]) (Bytes.fill 12 0)]

theorem sampleAccesses_round_trip :
    (sampleAccesses.foldl (Book.step sampleCipher recordCodec entryCodec (fun _ => .ok ())
      sampleIdentity .standard) ⟨header sampleIdentity,
        some ⟨sampleIdentity, 0, Bytes.fill 16 1, (), .standard⟩, [], 0⟩).RoundTrip sampleCipher
          recordCodec entryCodec (fun _ => .ok ()) sampleIdentity .standard :=
  rotations_round_trip sampleCipher_lawful (fun _ _ => rfl) rfl sampleAccesses

end Transcript

end GChat
