import GChat.Files.Pieces

/-!
# Every way in and out moves the same pieces

The page uploads what the native client imports, the mobile application stages what the native
client saves, and a file that was imported is saved as it was.
-/

namespace GChat

namespace Files

open Foundation Dialect

/-- The files whose pieces have numbers of 32 bits. -/
def addressable : ℕ := 2 ^ 32 * pieceBytes

theorem pieceBytes_pos : 0 < pieceBytes := by decide

theorem index_lt {n piece : ℕ} (hlt : piece * pieceBytes < n) (hn : n ≤ addressable) :
    piece < 2 ^ 32 :=
  Nat.lt_of_mul_lt_mul_right (hlt.trans_le hn)

theorem ofNat_succ (n : ℕ) : UInt32.ofNat (n + 1) = UInt32.ofNat n + 1 := by
  rw [UInt32.ofNat_add]
  rfl

section

variable {σ : Type} {client : Client σ}

/-! ### Into the cache -/

/-- Both ended well, or both did not, and the service is in the same state. -/
def Alike (first : Except String (List UInt8) × σ) (second : Except String Unit × σ) : Prop :=
  first.2 = second.2 ∧ (first.1 = .ok [] ∧ second.1 = .ok () ∨
    (∃ message, first.1 = .error message) ∧ ∃ message, second.1 = .error message)

/-- The page writes a frame exactly where the native client does, and the same one. -/
theorem encodeFileIo_cases (header : PageIo) {piece : UInt32} (hpiece : piece.toNat = header.piece)
    (bytes : List UInt8) :
    (∃ out, encodeFileIo header bytes = .ok out ∧
      encodeIo ⟨header.instanceId, header.id, piece, header.upload⟩ bytes = .ok out) ∨
    (∃ message, encodeFileIo header bytes = .error message) ∧
      ∃ message, encodeIo ⟨header.instanceId, header.id, piece, header.upload⟩ bytes =
        .error message := by
  cases hpage : encodeFileIo header bytes with
  | ok out =>
      rcases encodeFileIo_eq_ok_iff.mp hpage with ⟨piece', hpiece', hencode⟩
      rw [UInt32.toNat_inj.mp (hpiece'.trans hpiece.symm)] at hencode
      exact Or.inl ⟨out, rfl, hencode⟩
  | error message =>
      refine Or.inr ⟨⟨message, rfl⟩, ?_⟩
      cases hencode : encodeIo ⟨header.instanceId, header.id, piece, header.upload⟩ bytes with
      | ok out =>
          rw [encodeFileIo_eq_ok_iff.mpr ⟨piece, hpiece, hencode⟩] at hpage
          cases hpage
      | error message => exact ⟨message, rfl⟩

theorem importPieces_zero (id : String) (source : List UInt8) (piece : UInt32) (s : σ) :
    importPieces client id 0 source piece s = (.ok source, s) := by
  rw [importPieces, dif_pos rfl]

theorem importPieces_ok {id : String} {remaining : ℕ} {source : List UInt8} {piece : UInt32}
    {s t : σ} {out : List UInt8} (hpos : remaining ≠ 0)
    (henough : min remaining pieceBytes ≤ source.length)
    (h : exchange client (encodeIo ⟨client.instanceId, id, piece, true⟩
      (source.take (min remaining pieceBytes))) s = (.ok out, t)) :
    importPieces client id remaining source piece s =
      importPieces client id (remaining - min remaining pieceBytes)
        (source.drop (min remaining pieceBytes)) (piece + 1) t := by
  rw [importPieces, dif_neg hpos, if_neg (by omega), h, andThen_ok]

theorem importPieces_error {id : String} {remaining : ℕ} {source : List UInt8} {piece : UInt32}
    {s t : σ} {message : String} (hpos : remaining ≠ 0)
    (henough : min remaining pieceBytes ≤ source.length)
    (h : exchange client (encodeIo ⟨client.instanceId, id, piece, true⟩
      (source.take (min remaining pieceBytes))) s = (.error message, t)) :
    importPieces client id remaining source piece s = (.error message, t) := by
  rw [importPieces, dif_neg hpos, if_neg (by omega), h, andThen_error]

theorem uploadPieces_end {id : String} {file : List UInt8} {offset : ℕ}
    (h : file.length ≤ offset) (piece : ℕ) (s : σ) :
    uploadPieces client id file offset piece s = (.ok (), s) := by
  rw [uploadPieces, dif_neg (by omega)]

theorem uploadPieces_ok {id : String} {file : List UInt8} {offset piece : ℕ} {s t : σ}
    {out : List UInt8} (hlt : offset < file.length)
    (h : exchange client (encodeFileIo ⟨client.instanceId, id, piece, true⟩
      ((file.drop offset).take 262144)) s = (.ok out, t)) :
    uploadPieces client id file offset piece s =
      uploadPieces client id file (offset + 262144) (piece + 1) t := by
  rw [uploadPieces, dif_pos hlt, h, andThen_ok]

theorem uploadPieces_error {id : String} {file : List UInt8} {offset piece : ℕ} {s t : σ}
    {message : String} (hlt : offset < file.length)
    (h : exchange client (encodeFileIo ⟨client.instanceId, id, piece, true⟩
      ((file.drop offset).take 262144)) s = (.error message, t)) :
    uploadPieces client id file offset piece s = (.error message, t) := by
  rw [uploadPieces, dif_pos hlt, h, andThen_error]

/-- The piece of a file with a number. -/
def pieceOf (file : List UInt8) (piece : ℕ) : List UInt8 :=
  (file.drop (piece * pieceBytes)).take pieceBytes

theorem take_remaining (file : List UInt8) (piece : ℕ) :
    (file.drop (piece * pieceBytes)).take (min (file.length - piece * pieceBytes) pieceBytes) =
      pieceOf file piece := by
  rw [pieceOf, ← List.length_drop, Nat.min_comm, ← List.take_eq_take_min]

theorem next_offset (piece : ℕ) : piece * pieceBytes + pieceBytes = (piece + 1) * pieceBytes :=
  (Nat.succ_mul piece pieceBytes).symm

theorem left_behind (n piece : ℕ) :
    n - piece * pieceBytes - min (n - piece * pieceBytes) pieceBytes =
      n - (piece + 1) * pieceBytes := by
  rw [← next_offset]
  omega

theorem drop_behind (file : List UInt8) (piece : ℕ) :
    (file.drop (piece * pieceBytes)).drop (min (file.length - piece * pieceBytes) pieceBytes) =
      file.drop ((piece + 1) * pieceBytes) := by
  rw [List.drop_drop, ← next_offset]
  rcases Nat.le_total (file.length - piece * pieceBytes) pieceBytes with h | h
  · rw [Nat.min_eq_left h, List.drop_of_length_le (by omega), List.drop_of_length_le (by omega)]
  · rw [Nat.min_eq_right h]

/-- The page and the native client go through a file in the same way, from any piece on. -/
theorem upload_alike (id : String) {file : List UInt8} (hfile : file.length ≤ addressable)
    (left : ℕ) : ∀ (piece : ℕ) (s : σ), file.length - piece * pieceBytes = left →
      Alike (importPieces client id (file.length - piece * pieceBytes)
          (file.drop (piece * pieceBytes)) (UInt32.ofNat piece) s)
        (uploadPieces client id file (piece * pieceBytes) piece s) := by
  induction left using Nat.strong_induction_on with
  | _ left ih =>
      intro piece s hleft
      have hpos := pieceBytes_pos
      by_cases hlt : piece * pieceBytes < file.length
      · have hindex : (UInt32.ofNat piece).toNat = piece :=
          UInt32.toNat_ofNat_of_lt' (index_lt hlt hfile)
        have hne : file.length - piece * pieceBytes ≠ 0 := by omega
        have henough : min (file.length - piece * pieceBytes) pieceBytes ≤
            (file.drop (piece * pieceBytes)).length := by
          rw [List.length_drop]
          omega
        have himport := take_remaining file piece
        rcases encodeFileIo_cases ⟨client.instanceId, id, piece, true⟩ hindex
            (pieceOf file piece) with ⟨out, hpage, hencode⟩ | ⟨⟨message, hpage⟩, other, hencode⟩
        · rcases hanswer : client.fileIo s out with ⟨answer, t⟩
          cases answer with
          | error message =>
              rw [importPieces_error hne henough (by rw [himport, hencode]; exact hanswer),
                uploadPieces_error hlt (by rw [← hanswer]; exact congrArg (exchange client · s) hpage)]
              exact ⟨rfl, Or.inr ⟨⟨message, rfl⟩, message, rfl⟩⟩
          | ok answer =>
              rw [importPieces_ok hne henough (by rw [himport, hencode]; exact hanswer),
                uploadPieces_ok hlt (by rw [← hanswer]; exact congrArg (exchange client · s) hpage),
                left_behind, drop_behind, ← ofNat_succ]
              have hnext := ih (file.length - (piece + 1) * pieceBytes) (by
                rw [← next_offset]
                omega) (piece + 1) t rfl
              rw [← next_offset] at hnext ⊢
              exact hnext
        · rw [importPieces_error hne henough (t := s) (by rw [himport, hencode]; rfl),
            uploadPieces_error hlt (t := s) (congrArg (exchange client · s) hpage)]
          exact ⟨rfl, Or.inr ⟨⟨other, rfl⟩, message, rfl⟩⟩
      · have hzero : file.length - piece * pieceBytes = 0 := by omega
        rw [hzero, importPieces_zero, uploadPieces_end (by omega),
          List.drop_of_length_le (by omega)]
        exact ⟨rfl, Or.inl ⟨rfl, rfl⟩⟩

/-! ### Out of the cache -/

theorem savePieces_zero (id : String) (piece : UInt32) (output : List UInt8) (s : σ) :
    savePieces client id 0 piece output s = (.ok output, s) := by
  rw [savePieces, dif_pos rfl]

theorem savePieces_error {id : String} {remaining : ℕ} {piece : UInt32} {output : List UInt8}
    {s t : σ} {message : String} (hpos : remaining ≠ 0)
    (h : exchange client (encodeIo ⟨client.instanceId, id, piece, false⟩ []) s =
      (.error message, t)) :
    savePieces client id remaining piece output s = (.error message, t) := by
  rw [savePieces, dif_neg hpos, h, andThen_error]

theorem savePieces_ok {id : String} {remaining : ℕ} {piece : UInt32} {output data : List UInt8}
    {s t : σ} (hpos : remaining ≠ 0)
    (h : exchange client (encodeIo ⟨client.instanceId, id, piece, false⟩ []) s = (.ok data, t)) :
    savePieces client id remaining piece output s =
      if data.length ≠ min remaining pieceBytes then (.error "Invalid exported piece length", t)
      else savePieces client id (remaining - min remaining pieceBytes) (piece + 1)
        (output ++ data) t := by
  rw [savePieces, dif_neg hpos, h, andThen_ok]

/-- The mobile application and the native client take a file out in the same way, from any piece
on. -/
theorem stage_eq_save (id : String) {size : ℕ} (hsize : size ≤ addressable) (left : ℕ) :
    ∀ (piece : ℕ) (output : List UInt8) (s : σ), size - piece * pieceBytes = left →
      stagePieces client id size (piece * pieceBytes) output s =
        savePieces client id (size - piece * pieceBytes) (UInt32.ofNat piece) output s := by
  induction left using Nat.strong_induction_on with
  | _ left ih =>
      intro piece output s hleft
      have hpos := pieceBytes_pos
      by_cases hlt : piece * pieceBytes < size
      · have hne : size - piece * pieceBytes ≠ 0 := by omega
        have hindex : piece * pieceBytes / pieceBytes = piece := Nat.mul_div_cancel piece hpos
        have hpiece : pieceSize size (piece * pieceBytes) =
            .ok (UInt32.ofNat piece, min (size - piece * pieceBytes) pieceBytes) := by
          refine pieceSize_eq_ok.mpr ⟨hlt, Nat.mul_mod_left _ _, ?_, by rw [hindex], rfl⟩
          rw [hindex]
          exact index_lt hlt hsize
        rw [stagePieces, if_pos hlt]
        split
        next message h =>
          rw [hpiece] at h
          cases h
        next number expected h =>
          rw [hpiece] at h
          obtain ⟨rfl, rfl⟩ := Prod.mk.inj (Except.ok.inj h)
          rcases hanswer : exchange client
              (encodeIo ⟨client.instanceId, id, UInt32.ofNat piece, false⟩ []) s with ⟨answer, t⟩
          cases answer with
          | error message =>
              rw [savePieces_error hne hanswer, andThen_error]
          | ok data =>
              rw [savePieces_ok hne hanswer, andThen_ok]
              by_cases hlength : data.length = min (size - piece * pieceBytes) pieceBytes
              · rw [dif_neg (not_not.mpr hlength), if_neg (not_not.mpr hlength), left_behind,
                  ← ofNat_succ]
                rcases Nat.le_total (size - piece * pieceBytes) pieceBytes with hle | hle
                · have hover : size ≤ (piece + 1) * pieceBytes := by
                    rw [← next_offset]
                    omega
                  rw [hlength, Nat.min_eq_left hle, Nat.add_sub_cancel' hlt.le, stagePieces,
                    if_neg (Nat.lt_irrefl size), Nat.sub_eq_zero_of_le hover, savePieces_zero]
                · rw [hlength, Nat.min_eq_right hle, next_offset]
                  refine ih (size - (piece + 1) * pieceBytes) ?_ (piece + 1) (output ++ data) t rfl
                  rw [← next_offset]
                  omega
              · rw [dif_pos hlength, if_pos hlength]
      · rw [stagePieces, if_neg hlt, Nat.sub_eq_zero_of_le (by omega), savePieces_zero]

/-- Uploading a file ends as importing its bytes does and leaves the service in the same state,
and staging a file gives what saving it gives, for every service and every file whose pieces can
be numbered. -/
theorem paths_agree (client : Client σ) (id : String) (s : σ) :
    (∀ file : List UInt8, file.length ≤ addressable →
      Alike (importPieces client id file.length file 0 s) (uploadPieces client id file 0 0 s)) ∧
    ∀ size ≤ addressable, stagePieces client id size 0 [] s = savePieces client id size 0 [] s := by
  constructor
  · intro file hfile
    have hall := @upload_alike σ client id file hfile _ 0 s rfl
    rwa [Nat.zero_mul, Nat.sub_zero, List.drop_zero] at hall
  · intro size hsize
    have hall := @stage_eq_save σ client id size hsize _ 0 [] s rfl
    rwa [Nat.zero_mul, Nat.sub_zero] at hall

end

end Files

end GChat
