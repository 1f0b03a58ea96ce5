import GChat.Foundation.Machine
import GChat.Store.Saves
import GChat.Transcript.Framing

/-!
# Runs of appends

Appends, any of which may fail after any number of bytes, rotations and restarts. What was
appended stays readable exactly as long as no failed append leaves a part of its record
in the file.
-/

namespace GChat

namespace Transcript

open Foundation
open Store (Cipher sampleCipher sampleCipher_lawful)

/-- A file, the transcript that has it open, and the entries appended successfully. -/
structure Kept (Key : Type) where
  file : List UInt8
  transcript : Option (ApplicationTranscript Key)
  appended : List TranscriptEntry

inductive Event where
  | append (entry : TranscriptEntry) (nonce : Bytes 12) (fault : Option (ℕ × String))
  | rotate (randomSalt : Bytes 16)
  | reopen (randomSalt : Bytes 16)

section

variable {Key : Type} (cipher : Cipher Key) (records : Codec EncryptedRecord)
  (entries : Codec TranscriptEntry) (deriveKey : Bytes 16 → Key) (identity : Bytes 32)
  (policy : TranscriptPolicy)

def Kept.step (s : Kept Key) : Event → Kept Key
  | .append entry nonce fault =>
      match s.transcript with
      | none => s
      | some transcript =>
          match transcript.append cipher records entries s.file entry nonce fault with
          | (file, .ok _) => { s with file := file, appended := s.appended ++ [entry] }
          | (file, .error _) => { s with file := file }
  | .rotate randomSalt =>
      match s.transcript with
      | none => s
      | some transcript =>
          match transcript.rotate deriveKey randomSalt with
          | .ok rotated => { s with transcript := some rotated }
          | .error _ => s
  | .reopen randomSalt =>
      { s with
        transcript := (ApplicationTranscript.open cipher records entries deriveKey s.file identity
          policy randomSalt).toOption.map Prod.fst }

/-- A later open succeeds, and returns every entry that was appended, in order. -/
def Kept.Readable (s : Kept Key) : Prop :=
  ∀ randomSalt, ∃ transcript read,
    ApplicationTranscript.open cipher records entries deriveKey s.file identity policy randomSalt =
      .ok (transcript, read) ∧ s.appended.Sublist read

/-- An append that fails in its write leaves nothing of its record, or all of it. -/
def Event.Whole (s : Kept Key) : Event → Prop
  | .append entry nonce (some (written, _)) =>
      ∀ transcript encoded, s.transcript = some transcript →
        transcript.encode cipher records entries entry nonce = .ok encoded →
        written = 0 ∨ 4 + encoded.length ≤ written
  | _ => True

end

/-- The reader is at the last generation it has seen. -/
def Reader.Bounded (reader : Reader) : Prop :=
  ∀ generation salt, reader.salts generation = some salt → generation ≤ reader.generation

section Runs

variable {Key : Type} {cipher : Cipher Key} {records : Codec EncryptedRecord}
  {entries : Codec TranscriptEntry} {deriveKey : Bytes 16 → Key} {identity : Bytes 32}
  {policy : TranscriptPolicy}

/-- The transcript goes on where the reader of its file is. -/
structure ApplicationTranscript.Fits (deriveKey : Bytes 16 → Key) (identity : Bytes 32)
    (policy : TranscriptPolicy) (transcript : ApplicationTranscript Key) (reader : Reader) :
    Prop where
  daemonIdentityHash : transcript.daemonIdentityHash = identity
  policy : transcript.policy = policy
  generationKey : transcript.generationKey = deriveKey transcript.generationSalt
  salts : ∀ generation salt, reader.salts generation = some salt →
    generation ≤ transcript.generation ∧
      (generation = transcript.generation → salt = transcript.generationSalt)

/-- The file can be read, its entries contain the appended ones, and the transcript fits. -/
def Kept.Faithful (cipher : Cipher Key) (records : Codec EncryptedRecord)
    (entries : Codec TranscriptEntry) (deriveKey : Bytes 16 → Key) (identity : Bytes 32)
    (policy : TranscriptPolicy) (s : Kept Key) : Prop :=
  ∃ reader, readFile cipher records entries deriveKey s.file identity policy = .ok reader ∧
    reader.Bounded ∧ s.appended.Sublist reader.entries ∧
    ∀ transcript, s.transcript = some transcript →
      transcript.Fits deriveKey identity policy reader

/-- What reading one record adds. -/
theorem record_cases {reader next : Reader} {encoded : List UInt8}
    (h : reader.record cipher records entries deriveKey identity policy encoded = .ok next) :
    ∃ (record : EncryptedRecord) (entry : TranscriptEntry), next =
      { salts := Function.update reader.salts record.generation (some record.salt)
        generation := max reader.generation record.generation
        entries := reader.entries ++ [entry] } := by
  unfold Reader.record at h
  split at h
  · cases h
  · rename_i record trailing _
    obtain ⟨-, -, h⟩ := bind_eq_ok.mp h
    obtain ⟨-, -, h⟩ := bind_eq_ok.mp h
    obtain ⟨entry, -, h⟩ := bind_eq_ok.mp h
    obtain ⟨-, -, h⟩ := bind_eq_ok.mp h
    cases h
    exact ⟨record, entry, rfl⟩

theorem Reader.Bounded.record {reader next : Reader} (hreader : reader.Bounded)
    {encoded : List UInt8}
    (h : reader.record cipher records entries deriveKey identity policy encoded = .ok next) :
    next.Bounded := by
  obtain ⟨record, entry, rfl⟩ := record_cases h
  intro generation salt hsalt
  dsimp only at hsalt ⊢
  by_cases hgeneration : generation = record.generation
  · rw [hgeneration]
    exact le_max_right _ _
  · rw [Function.update_of_ne hgeneration] at hsalt
    exact (hreader generation salt hsalt).trans (le_max_left _ _)

theorem Reader.Bounded.readRecords {reader next : Reader} (hreader : reader.Bounded)
    {raw : List UInt8}
    (h : readRecords cipher records entries deriveKey identity policy reader raw = .ok next) :
    next.Bounded := by
  induction hlength : raw.length using Nat.strong_induction_on generalizing reader raw with
  | _ n ih =>
      cases hraw : raw with
      | nil =>
          rw [hraw, readRecords_nil] at h
          cases h
          exact hreader
      | cons b tail =>
          cases htake : takeRecord raw with
          | error message =>
              rw [readRecords_cut (by simp [hraw]) htake] at h
              cases h
          | ok split =>
              obtain ⟨encoded, rest⟩ := split
              rw [readRecords_record htake] at h
              obtain ⟨middle, hrecord, hrest⟩ := bind_eq_ok.mp h
              have hshorter := takeRecord_length htake
              exact ih rest.length (hlength ▸ hshorter) (hreader.record hrecord) hrest rfl

theorem Reader.Bounded.readFile {reader : Reader} {raw : List UInt8}
    (h : readFile cipher records entries deriveKey raw identity policy = .ok reader) :
    reader.Bounded := by
  unfold Transcript.readFile at h
  obtain ⟨-, -, h⟩ := bind_eq_ok.mp h
  obtain ⟨-, -, h⟩ := bind_eq_ok.mp h
  have hstart : Reader.start.Bounded := by
    intro generation salt hsalt
    cases hsalt
  exact hstart.readRecords h

/-- Appended bytes are read by a reader that has read the file. -/
theorem readFile_append {raw : List UInt8} {reader : Reader}
    (h : readFile cipher records entries deriveKey raw identity policy = .ok reader)
    (more : List UInt8) :
    readFile cipher records entries deriveKey (raw ++ more) identity policy =
      readRecords cipher records entries deriveKey identity policy reader more := by
  unfold readFile at h ⊢
  obtain ⟨⟨⟩, hmagic, h⟩ := bind_eq_ok.mp h
  obtain ⟨⟨⟩, hidentity, h⟩ := bind_eq_ok.mp h
  have hlength : headerLen ≤ raw.length := by
    have hshort := refuse_eq_ok.mp hmagic
    simp only [Bool.or_eq_false_iff, decide_eq_false_iff_not, not_lt] at hshort
    exact hshort.1
  have hmagic' : refuse ((raw ++ more).length < headerLen ||
      (raw ++ more).take 6 ≠ transcriptMagic.toList) "not a command-center transcript" =
        .ok () := by
    rw [refuse_eq_ok] at hmagic ⊢
    rw [List.take_append_of_le_length (by unfold headerLen at hlength; omega)]
    simp only [Bool.or_eq_false_iff, decide_eq_false_iff_not, not_lt] at hmagic ⊢
    exact ⟨by rw [List.length_append]; omega, hmagic.2⟩
  have hidentity' : refuse (((raw ++ more).drop 6).take 32 ≠ identity.toList)
      "transcript belongs to a different daemon identity" = .ok () := by
    rwa [List.drop_append_of_le_length (by unfold headerLen at hlength; omega),
      List.take_append_of_le_length (by rw [List.length_drop]; unfold headerLen at hlength; omega)]
  rw [hmagic', hidentity', List.drop_append_of_le_length hlength]
  exact readRecords_append h more

theorem encode_cases {transcript : ApplicationTranscript Key} {entry : TranscriptEntry}
    {nonce : Bytes 12} {encoded : List UInt8}
    (h : transcript.encode cipher records entries entry nonce = .ok encoded) :
    entry.validate transcript.policy = .ok () ∧ encoded.length ≤ maxRecordBytes ∧
      encoded = records.encode {
        generation := transcript.generation
        salt := transcript.generationSalt
        nonce := nonce
        ciphertext := cipher.encrypt transcript.generationKey nonce
          (associatedData transcript.daemonIdentityHash transcript.generation)
          (entries.encode entry) } := by
  unfold ApplicationTranscript.encode at h
  obtain ⟨_, hvalid, h⟩ := bind_eq_ok.mp h
  obtain ⟨_, hmax, h⟩ := bind_eq_ok.mp h
  obtain ⟨_, -, h⟩ := bind_eq_ok.mp h
  have hmax := of_decide_eq_false (refuse_eq_ok.mp hmax)
  rw [Except.ok.inj h] at hmax
  exact ⟨hvalid, not_lt.mp hmax, (Except.ok.inj h).symm⟩

/-- The record of an entry is read back by a reader the transcript fits. -/
theorem record_encode (hcipher : cipher.Lawful) {transcript : ApplicationTranscript Key}
    {reader : Reader} (hfits : transcript.Fits deriveKey identity policy reader)
    {entry : TranscriptEntry} {nonce : Bytes 12} {encoded : List UInt8}
    (h : transcript.encode cipher records entries entry nonce = .ok encoded) :
    reader.record cipher records entries deriveKey identity policy encoded = .ok
      { salts := Function.update reader.salts transcript.generation
          (some transcript.generationSalt)
        generation := max reader.generation transcript.generation
        entries := reader.entries ++ [entry] } := by
  obtain ⟨hvalid, -, rfl⟩ := encode_cases h
  obtain ⟨rfl, rfl, hkey, hsalts⟩ := hfits
  have hsalt : (reader.salts transcript.generation).any
      (fun salt => salt ≠ transcript.generationSalt) = false := by
    cases hknown : reader.salts transcript.generation with
    | none => rfl
    | some salt =>
        obtain ⟨-, hsame⟩ := hsalts _ _ hknown
        simp [hsame rfl]
  have hplain : decryptRecord cipher entries
      { generation := transcript.generation
        salt := transcript.generationSalt
        nonce := nonce
        ciphertext := cipher.encrypt transcript.generationKey nonce
          (associatedData transcript.daemonIdentityHash transcript.generation)
          (entries.encode entry) }
      (deriveKey transcript.generationSalt) transcript.daemonIdentityHash = .ok entry := by
    unfold decryptRecord
    rw [← hkey, hcipher.decrypt_encrypt]
    simp [entries.decode_encode_self, okOr, refuse, bind, Except.bind]
  unfold Reader.record
  rw [records.decode_encode_self]
  dsimp only
  rw [hsalt, hplain]
  simp [hvalid, refuse, bind, Except.bind]

/-- The transcript fits a reader that has read one of its records. -/
theorem ApplicationTranscript.Fits.record {transcript : ApplicationTranscript Key}
    {reader : Reader} (hfits : transcript.Fits deriveKey identity policy reader)
    (entry : TranscriptEntry) :
    transcript.Fits deriveKey identity policy
      { salts := Function.update reader.salts transcript.generation
          (some transcript.generationSalt)
        generation := max reader.generation transcript.generation
        entries := reader.entries ++ [entry] } := by
  refine ⟨hfits.daemonIdentityHash, hfits.policy, hfits.generationKey, ?_⟩
  intro generation salt hsalt
  dsimp only at hsalt
  by_cases hgeneration : generation = transcript.generation
  · rw [hgeneration, Function.update_self] at hsalt
    cases hsalt
    exact ⟨hgeneration.le, fun _ => rfl⟩
  · rw [Function.update_of_ne hgeneration] at hsalt
    exact hfits.salts generation salt hsalt

/-- A rotated transcript is past every generation of the file. -/
theorem ApplicationTranscript.Fits.rotate {transcript rotated : ApplicationTranscript Key}
    {reader : Reader} (hfits : transcript.Fits deriveKey identity policy reader)
    {randomSalt : Bytes 16} (h : transcript.rotate deriveKey randomSalt = .ok rotated) :
    rotated.Fits deriveKey identity policy reader := by
  unfold ApplicationTranscript.rotate at h
  split at h
  · rename_i hbound
    cases h
    refine ⟨hfits.daemonIdentityHash, hfits.policy, rfl, ?_⟩
    intro generation salt hsalt
    obtain ⟨hle, -⟩ := hfits.salts generation salt hsalt
    have hlt : generation.val < transcript.generation.val + 1 := Nat.lt_succ_of_le hle
    exact ⟨hlt.le, fun heq => absurd (congrArg Fin.val heq) hlt.ne⟩
  · cases h

theorem open_cases {raw : List UInt8} {randomSalt : Bytes 16}
    {transcript : ApplicationTranscript Key} {read : List TranscriptEntry}
    (h : ApplicationTranscript.open cipher records entries deriveKey raw identity policy
      randomSalt = .ok (transcript, read)) :
    ∃ reader, readFile cipher records entries deriveKey raw identity policy = .ok reader ∧
      read = reader.entries ∧ transcript.Fits deriveKey identity policy reader := by
  unfold ApplicationTranscript.open at h
  obtain ⟨reader, hread, h⟩ := bind_eq_ok.mp h
  cases h
  refine ⟨reader, hread, rfl, rfl, rfl, rfl, ?_⟩
  intro generation salt hsalt
  refine ⟨Reader.Bounded.readFile hread generation salt hsalt, ?_⟩
  intro hgeneration
  dsimp only at hgeneration ⊢
  rw [← hgeneration, hsalt, Option.getD_some]

theorem open_readFile {raw : List UInt8} {reader : Reader}
    (h : readFile cipher records entries deriveKey raw identity policy = .ok reader)
    (randomSalt : Bytes 16) :
    ∃ transcript, ApplicationTranscript.open cipher records entries deriveKey raw identity policy
      randomSalt = .ok (transcript, reader.entries) := by
  unfold ApplicationTranscript.open
  rw [h]
  exact ⟨_, rfl⟩

theorem readFile_header (daemonIdentityHash : Bytes 32) :
    readFile cipher records entries deriveKey (header daemonIdentityHash) daemonIdentityHash
      policy = .ok Reader.start := by
  have hlength : (header daemonIdentityHash).length = headerLen := by
    rw [header, List.length_append, daemonIdentityHash.length_toList]
    rfl
  have hmagic : (header daemonIdentityHash).take 6 = transcriptMagic.toList :=
    List.take_left' rfl
  have hdrop : (header daemonIdentityHash).drop 6 = daemonIdentityHash.toList :=
    List.drop_left' rfl
  have hidentity : daemonIdentityHash.toList.take 32 = daemonIdentityHash.toList :=
    List.take_of_length_le daemonIdentityHash.length_toList.le
  have hrest : (header daemonIdentityHash).drop headerLen = [] :=
    List.drop_of_length_le hlength.le
  unfold readFile
  rw [hmagic, hdrop, hidentity, hrest, hlength, readRecords_nil]
  simp [refuse, bind, Except.bind]

/-- A created transcript is its file as it would be opened. -/
theorem open_create (daemonIdentityHash : Bytes 32) (generationSalt : Bytes 16) :
    ApplicationTranscript.open cipher records entries deriveKey
      (ApplicationTranscript.create deriveKey daemonIdentityHash policy generationSalt).1
      daemonIdentityHash policy generationSalt =
        .ok ((ApplicationTranscript.create deriveKey daemonIdentityHash policy
          generationSalt).2, []) := by
  unfold ApplicationTranscript.open ApplicationTranscript.create
  rw [readFile_header]
  rfl

theorem Kept.Faithful.readable {s : Kept Key}
    (h : s.Faithful cipher records entries deriveKey identity policy) :
    s.Readable cipher records entries deriveKey identity policy := by
  obtain ⟨reader, hread, -, hsub, -⟩ := h
  intro randomSalt
  obtain ⟨transcript, hopen⟩ := open_readFile hread randomSalt
  exact ⟨transcript, reader.entries, hopen, hsub⟩

/-- A file with another record of the open transcript. -/
theorem readFile_frame (hcipher : cipher.Lawful) {transcript : ApplicationTranscript Key}
    {reader : Reader} {file : List UInt8}
    (hread : readFile cipher records entries deriveKey file identity policy = .ok reader)
    (hfits : transcript.Fits deriveKey identity policy reader) {entry : TranscriptEntry}
    {nonce : Bytes 12} {encoded : List UInt8}
    (h : transcript.encode cipher records entries entry nonce = .ok encoded) :
    readFile cipher records entries deriveKey (file ++ frame encoded) identity policy = .ok
      { salts := Function.update reader.salts transcript.generation
          (some transcript.generationSalt)
        generation := max reader.generation transcript.generation
        entries := reader.entries ++ [entry] } := by
  obtain ⟨-, hmax, -⟩ := encode_cases h
  have htake := takeRecord_frame hmax []
  rw [List.append_nil] at htake
  rw [readFile_append hread, readRecords_record htake, record_encode hcipher hfits h]
  exact readRecords_nil _

/-- A file that ends in a part of a record cannot be read. -/
theorem readFile_cut {reader : Reader} {file : List UInt8}
    (hread : readFile cipher records entries deriveKey file identity policy = .ok reader)
    {encoded : List UInt8} (hmax : encoded.length ≤ maxRecordBytes) {written : ℕ}
    (hpos : 0 < written) (hcut : written < 4 + encoded.length) :
    ∃ message, readFile cipher records entries deriveKey
      (file ++ (frame encoded).take written) identity policy = .error message := by
  obtain ⟨message, hmessage⟩ := takeRecord_cut hmax hcut
  have hpart : (frame encoded).take written ≠ [] := by
    intro hempty
    have hlength := congrArg List.length hempty
    rw [List.length_take, length_frame, List.length_nil] at hlength
    omega
  exact ⟨message, by rw [readFile_append hread, readRecords_cut hpart hmessage]⟩

/-- The record of an append is in the file as a whole. -/
theorem Kept.Faithful.framed (hcipher : cipher.Lawful) {s : Kept Key}
    (hs : s.Faithful cipher records entries deriveKey identity policy)
    {transcript : ApplicationTranscript Key} (htranscript : s.transcript = some transcript)
    {entry : TranscriptEntry} {nonce : Bytes 12} {encoded : List UInt8}
    (h : transcript.encode cipher records entries entry nonce = .ok encoded)
    {appended : List TranscriptEntry}
    (happended : appended = s.appended ∨ appended = s.appended ++ [entry]) :
    (Kept.mk (s.file ++ frame encoded) s.transcript appended).Faithful cipher records entries
      deriveKey identity policy := by
  obtain ⟨reader, hread, -, hsub, hfits⟩ := hs
  have hnext := readFile_frame hcipher hread (hfits transcript htranscript) h
  refine ⟨_, hnext, Reader.Bounded.readFile hnext, ?_, ?_⟩
  · obtain rfl | rfl := happended
    · exact hsub.trans (List.sublist_append_left _ _)
    · exact hsub.append (List.Sublist.refl _)
  · intro other hother
    cases htranscript.symm.trans hother
    exact (hfits transcript htranscript).record entry

section Append

variable {s : Kept Key} {transcript : ApplicationTranscript Key} {entry : TranscriptEntry}
  {nonce : Bytes 12} {encoded : List UInt8}

theorem Kept.step_refused (htranscript : s.transcript = some transcript) {error : String}
    (h : transcript.encode cipher records entries entry nonce = .error error)
    (fault : Option (ℕ × String)) :
    s.step cipher records entries deriveKey identity policy (.append entry nonce fault) = s := by
  unfold Kept.step ApplicationTranscript.append
  rw [htranscript]
  dsimp only
  rw [h, ← htranscript]

theorem Kept.step_appended (htranscript : s.transcript = some transcript)
    (h : transcript.encode cipher records entries entry nonce = .ok encoded) :
    s.step cipher records entries deriveKey identity policy (.append entry nonce none) =
      ⟨s.file ++ frame encoded, s.transcript, s.appended ++ [entry]⟩ := by
  unfold Kept.step ApplicationTranscript.append
  rw [htranscript]
  dsimp only
  rw [h]

theorem Kept.step_written (htranscript : s.transcript = some transcript)
    (h : transcript.encode cipher records entries entry nonce = .ok encoded)
    (written : ℕ) (message : String) :
    s.step cipher records entries deriveKey identity policy
        (.append entry nonce (some (written, message))) =
      ⟨s.file ++ (frame encoded).take written, s.transcript, s.appended⟩ := by
  unfold Kept.step ApplicationTranscript.append
  rw [htranscript]
  dsimp only
  rw [h]

theorem Kept.Faithful.append (hcipher : cipher.Lawful)
    (hs : s.Faithful cipher records entries deriveKey identity policy)
    {fault : Option (ℕ × String)}
    (hwhole : (Event.append entry nonce fault).Whole cipher records entries s) :
    (s.step cipher records entries deriveKey identity policy
      (.append entry nonce fault)).Faithful cipher records entries deriveKey identity policy := by
  cases htranscript : s.transcript with
  | none =>
      unfold Kept.step
      rw [htranscript]
      exact hs
  | some transcript =>
      cases hencode : transcript.encode cipher records entries entry nonce with
      | error message => rwa [Kept.step_refused htranscript hencode]
      | ok encoded =>
          cases fault with
          | none =>
              rw [Kept.step_appended htranscript hencode]
              exact hs.framed hcipher htranscript hencode (Or.inr rfl)
          | some fault =>
              obtain ⟨written, message⟩ := fault
              rw [Kept.step_written htranscript hencode]
              obtain rfl | hall := hwhole transcript encoded htranscript hencode
              · rwa [List.take_zero, List.append_nil]
              · rw [List.take_of_length_le (by rw [length_frame]; exact hall)]
                exact hs.framed hcipher htranscript hencode (Or.inl rfl)

end Append

theorem Kept.Faithful.step (hcipher : cipher.Lawful) {s : Kept Key}
    (hs : s.Faithful cipher records entries deriveKey identity policy) {event : Event}
    (hwhole : event.Whole cipher records entries s) :
    (s.step cipher records entries deriveKey identity policy event).Faithful cipher records entries
      deriveKey identity policy := by
  cases event with
  | append entry nonce fault => exact hs.append hcipher hwhole
  | rotate randomSalt =>
      unfold Kept.step
      cases htranscript : s.transcript with
      | none => exact hs
      | some transcript =>
          dsimp only
          cases hrotate : transcript.rotate deriveKey randomSalt with
          | error message => exact hs
          | ok rotated =>
              obtain ⟨reader, hread, hbounded, hsub, hfits⟩ := hs
              refine ⟨reader, hread, hbounded, hsub, ?_⟩
              intro other hother
              cases hother
              exact (hfits transcript htranscript).rotate hrotate
  | reopen randomSalt =>
      obtain ⟨reader, hread, hbounded, hsub, -⟩ := hs
      refine ⟨reader, hread, hbounded, hsub, ?_⟩
      intro transcript htranscript
      obtain ⟨⟨other, read⟩, hopen, rfl⟩ := Option.map_eq_some_iff.mp htranscript
      obtain ⟨again, hagain, -, hfits⟩ := open_cases (toOption_eq_some.mp hopen)
      cases hread.symm.trans hagain
      exact hfits

/-- After an append that leaves a part of its record, nothing can be read. -/
theorem Kept.Faithful.unreadable {s : Kept Key}
    (hs : s.Faithful cipher records entries deriveKey identity policy) {event : Event}
    (hcut : ¬ event.Whole cipher records entries s) :
    ¬ (s.step cipher records entries deriveKey identity policy event).Readable cipher records
      entries deriveKey identity policy := by
  obtain ⟨reader, hread, -, -, -⟩ := hs
  cases event with
  | append entry nonce fault =>
      cases fault with
      | none => exact absurd trivial hcut
      | some fault =>
          obtain ⟨written, message⟩ := fault
          simp only [Event.Whole, not_forall, not_or, not_le] at hcut
          obtain ⟨transcript, encoded, htranscript, hencode, hpos, hlt⟩ := hcut
          obtain ⟨-, hmax, -⟩ := encode_cases hencode
          obtain ⟨error, herror⟩ := readFile_cut hread hmax (Nat.pos_of_ne_zero hpos) hlt
          intro hreadable
          obtain ⟨opened, read, hopen, -⟩ := hreadable (Bytes.fill 16 0)
          obtain ⟨other, hother, -⟩ := open_cases hopen
          rw [Kept.step_written htranscript hencode, herror] at hother
          cases hother
  | rotate randomSalt => exact absurd trivial hcut
  | reopen randomSalt => exact absurd trivial hcut

theorem opened_faithful {file : List UInt8} {randomSalt : Bytes 16}
    {transcript : ApplicationTranscript Key} {read : List TranscriptEntry}
    (hopen : ApplicationTranscript.open cipher records entries deriveKey file identity policy
      randomSalt = .ok (transcript, read)) :
    (Kept.mk file (some transcript) read).Faithful cipher records entries deriveKey identity
      policy := by
  obtain ⟨reader, hread, rfl, hfits⟩ := open_cases hopen
  refine ⟨reader, hread, Reader.Bounded.readFile hread, List.Sublist.refl _, ?_⟩
  intro other hother
  cases hother
  exact hfits

/-- From a file that can be opened: everything appended stays readable in every state of a run
exactly when every append that fails leaves nothing of its record, or all of it. -/
theorem appends_readable_iff (hcipher : cipher.Lawful) {file : List UInt8}
    {randomSalt : Bytes 16} {transcript : ApplicationTranscript Key}
    {read : List TranscriptEntry}
    (hopen : ApplicationTranscript.open cipher records entries deriveKey file identity policy
      randomSalt = .ok (transcript, read)) (events : List Event) :
    (∀ n, ((events.take n).foldl (Kept.step cipher records entries deriveKey identity policy)
        ⟨file, some transcript, read⟩).Readable cipher records entries deriveKey identity
          policy) ↔
      ∀ (n : ℕ) (event : Event), events[n]? = some event →
        event.Whole cipher records entries ((events.take n).foldl
          (Kept.step cipher records entries deriveKey identity policy)
            ⟨file, some transcript, read⟩) := by
  exact Machine.forall_take_iff_of (A := fun _ _ => True)
    (C := fun s (event : Event) => event.Whole cipher records entries s)
    (opened_faithful hopen) (fun s hs => hs.readable)
    (fun s event hs _ hwhole => hs.step hcipher hwhole)
    (fun s event hs _ hcut => hs.unreadable hcut) (fun _ _ _ => trivial)

end Runs

section Sample

def sampleIdentity : Bytes 32 := Bytes.fill 32 7

def sampleEntry (body : List UInt8) : TranscriptEntry where
  peerIdentityHash := Bytes.fill 32 9
  channel := none
  pseudonym := none
  sharedChannel := false
  contentType := "text/plain"
  body := body
  deliveryState := .delivered
  timestamps := ⟨10, some 11, some 12⟩
  validation := .valid

/-- A transcript that was just created. -/
def sampleKept : Kept Unit :=
  let created := ApplicationTranscript.create (fun _ => ()) sampleIdentity .standard
    (Bytes.fill 16 1)
  ⟨created.1, some created.2, []⟩

def Kept.run (events : List Event) : Kept Unit :=
  events.foldl (Kept.step sampleCipher recordCodec entryCodec (fun _ => ()) sampleIdentity
    .standard) sampleKept

/-- An append that writes nothing, between two that succeed, a rotation and a restart. -/
def nothingWritten : List Event :=
  [.append (sampleEntry [1]) (Bytes.fill 12 0) none,
    .append (sampleEntry [2]) (Bytes.fill 12 0)
      (some (0, "No space left on device (os error 28)")),
    .rotate (Bytes.fill 16 2), .append (sampleEntry [3]) (Bytes.fill 12 0) none,
    .reopen (Bytes.fill 16 3)]

theorem nothingWritten_readable :
    (Kept.run nothingWritten).Readable sampleCipher recordCodec entryCodec (fun _ => ())
      sampleIdentity .standard := by
  have hwhole : ∀ (n : ℕ) (event : Event), nothingWritten[n]? = some event →
      event.Whole sampleCipher recordCodec entryCodec (Kept.run (nothingWritten.take n)) := by
    intro n event h
    match n with
    | 1 =>
        cases h
        exact fun _ _ _ _ => Or.inl rfl
    | 0 | 2 | 3 | 4 =>
        cases h
        trivial
    | n + 5 => cases h
  exact (appends_readable_iff sampleCipher_lawful (open_create sampleIdentity (Bytes.fill 16 1))
    nothingWritten).mpr hwhole 5

example : (Kept.run nothingWritten).appended = [sampleEntry [1], sampleEntry [3]] := by
  decide +kernel

/-- The write stops after three bytes of the length. -/
def lengthCut : List Event :=
  [.append (sampleEntry [1]) (Bytes.fill 12 0) none,
    .append (sampleEntry [2]) (Bytes.fill 12 0)
      (some (3, "No space left on device (os error 28)"))]

theorem sampleKept_faithful :
    sampleKept.Faithful sampleCipher recordCodec entryCodec (fun _ => ()) sampleIdentity
      .standard :=
  opened_faithful (open_create sampleIdentity (Bytes.fill 16 1))

theorem lengthCut_unreadable :
    ¬ ∀ events, (Kept.run events).Readable sampleCipher recordCodec entryCodec (fun _ => ())
      sampleIdentity .standard := by
  intro h
  have hwhole : (Event.append (sampleEntry [1]) (Bytes.fill 12 0) none).Whole sampleCipher
      recordCodec entryCodec sampleKept := trivial
  have hfirst : (Kept.run (lengthCut.take 1)).Faithful sampleCipher recordCodec entryCodec
      (fun _ => ()) sampleIdentity .standard :=
    sampleKept_faithful.append sampleCipher_lawful hwhole
  have hencoded : (ApplicationTranscript.encode sampleCipher recordCodec entryCodec
      ⟨sampleIdentity, 0, Bytes.fill 16 1, (), .standard⟩ (sampleEntry [2])
      (Bytes.fill 12 0)).toOption.isSome = true := by
    decide +kernel
  obtain ⟨encoded, hencode⟩ := Option.isSome_iff_exists.mp hencoded
  have hcut : ¬ (Event.append (sampleEntry [2]) (Bytes.fill 12 0)
      (some (3, "No space left on device (os error 28)"))).Whole sampleCipher recordCodec
        entryCodec (Kept.run (lengthCut.take 1)) := by
    intro hwhole
    obtain hnone | hall := hwhole _ encoded rfl (toOption_eq_some.mp hencode)
    · cases hnone
    · omega
  exact hfirst.unreadable hcut (h lengthCut)

end Sample

end Transcript

end GChat
