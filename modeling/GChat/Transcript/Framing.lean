import GChat.Transcript.Model

/-!
# Framing

What is read of a file goes on being read when more is appended, a whole frame is read as
its record, and a frame that was cut is fatal wherever it was cut.
-/

namespace GChat

namespace Transcript

open Foundation
open Store (Cipher)

theorem length_frame (encoded : List UInt8) : (frame encoded).length = 4 + encoded.length := by
  simp [frame]

/-- The length of a record is read back. -/
theorem fromBigEndian_frame {encoded : List UInt8} (h : encoded.length ≤ maxRecordBytes) :
    fromBigEndian (toBigEndian encoded.length) = encoded.length := by
  apply fromBigEndian_toBigEndian
  have hmax : maxRecordBytes < 2 ^ 32 := by decide
  omega

theorem takeRecord_frame {encoded : List UInt8} (h : encoded.length ≤ maxRecordBytes)
    (rest : List UInt8) : takeRecord (frame encoded ++ rest) = .ok (encoded, rest) := by
  have htake : (frame encoded ++ rest).take 4 = toBigEndian encoded.length := by
    rw [frame, List.append_assoc]
    exact List.take_left' rfl
  have hdrop : (frame encoded ++ rest).drop 4 = encoded ++ rest := by
    rw [frame, List.append_assoc]
    exact List.drop_left' rfl
  unfold takeRecord
  rw [htake, hdrop, fromBigEndian_frame h, if_neg, if_neg (by omega), if_neg,
    List.take_left, List.drop_left]
  · simp
  · simp [frame]

theorem takeRecord_append {raw encoded rest : List UInt8}
    (h : takeRecord raw = .ok (encoded, rest)) (more : List UInt8) :
    takeRecord (raw ++ more) = .ok (encoded, rest ++ more) := by
  unfold takeRecord at h ⊢
  split at h
  · cases h
  · rename_i hfour
    have htake : (raw ++ more).take 4 = raw.take 4 := List.take_append_of_le_length (by omega)
    have hdrop : (raw ++ more).drop 4 = raw.drop 4 ++ more :=
      List.drop_append_of_le_length (by omega)
    dsimp only at h ⊢
    split at h
    · cases h
    · rename_i hmax
      split at h
      · cases h
      · rename_i hlength
        cases h
        rw [htake, hdrop, if_neg (by rw [List.length_append]; omega), if_neg hmax,
          if_neg (by rw [List.length_append]; omega),
          List.take_append_of_le_length (by omega), List.drop_append_of_le_length (by omega)]

/-- A frame that was cut is not read as a record. -/
theorem takeRecord_cut {encoded : List UInt8} (h : encoded.length ≤ maxRecordBytes) {written : ℕ}
    (hcut : written < 4 + encoded.length) :
    ∃ message, takeRecord ((frame encoded).take written) = .error message := by
  unfold takeRecord
  by_cases hfour : written < 4
  · rw [if_pos (by rw [List.length_take, length_frame]; omega)]
    exact ⟨_, rfl⟩
  · have htake : ((frame encoded).take written).take 4 = toBigEndian encoded.length := by
      rw [List.take_take, Nat.min_eq_left (by omega)]
      exact List.take_left' rfl
    rw [if_neg (by rw [List.length_take, length_frame]; omega), htake, fromBigEndian_frame h]
    dsimp only
    rw [if_neg (by omega), if_pos (by
      rw [List.length_drop, List.length_take, length_frame]
      omega)]
    exact ⟨_, rfl⟩

section Reading

variable {Key : Type} {cipher : Cipher Key} {records : Codec EncryptedRecord}
  {entries : Codec TranscriptEntry} {deriveKey : Bytes 16 → Key} {daemonIdentityHash : Bytes 32}
  {policy : TranscriptPolicy}

theorem readRecords_nil (reader : Reader) :
    readRecords cipher records entries deriveKey daemonIdentityHash policy reader [] =
      .ok reader := by
  rw [readRecords]
  rfl

/-- Reading starts with the first record. -/
theorem readRecords_record {raw encoded rest : List UInt8}
    (h : takeRecord raw = .ok (encoded, rest)) (reader : Reader) :
    readRecords cipher records entries deriveKey daemonIdentityHash policy reader raw =
      reader.record cipher records entries deriveKey daemonIdentityHash policy encoded >>= fun next =>
        readRecords cipher records entries deriveKey daemonIdentityHash policy next rest := by
  have hraw : raw.isEmpty = false := by
    cases raw with
    | nil => cases h
    | cons b raw => rfl
  rw [readRecords, hraw, if_neg (by simp)]
  split
  · rename_i message hother
    cases h.symm.trans hother
  · rename_i other tail hother
    cases h.symm.trans hother
    cases reader.record cipher records entries deriveKey daemonIdentityHash policy encoded with
    | error message => rfl
    | ok next => rfl

theorem readRecords_cut {raw : List UInt8} {message : String} (hraw : raw ≠ [])
    (h : takeRecord raw = .error message) (reader : Reader) :
    readRecords cipher records entries deriveKey daemonIdentityHash policy reader raw =
      .error message := by
  rw [readRecords, if_neg (by simpa using hraw)]
  split
  · rename_i other hother
    cases h.symm.trans hother
    rfl
  · rename_i encoded rest hother
    cases h.symm.trans hother

/-- What was read is read again when more is appended. -/
theorem readRecords_append {reader next : Reader} {raw : List UInt8}
    (h : readRecords cipher records entries deriveKey daemonIdentityHash policy reader raw =
      .ok next) (more : List UInt8) :
    readRecords cipher records entries deriveKey daemonIdentityHash policy reader (raw ++ more) =
      readRecords cipher records entries deriveKey daemonIdentityHash policy next more := by
  induction hlength : raw.length using Nat.strong_induction_on generalizing reader raw with
  | _ n ih =>
      cases hraw : raw with
      | nil =>
          rw [hraw, readRecords_nil] at h
          cases h
          rfl
      | cons b tail =>
          rw [← hraw]
          cases htake : takeRecord raw with
          | error message =>
              rw [readRecords_cut (by simp [hraw]) htake] at h
              cases h
          | ok split =>
              obtain ⟨encoded, rest⟩ := split
              rw [readRecords_record htake] at h
              obtain ⟨middle, hrecord, hrest⟩ := bind_eq_ok.mp h
              have hshorter := takeRecord_length htake
              rw [readRecords_record (takeRecord_append htake more), hrecord]
              exact ih rest.length (hlength ▸ hshorter) hrest rfl

end Reading

end Transcript

end GChat
