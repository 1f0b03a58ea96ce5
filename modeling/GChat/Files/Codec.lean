import GChat.Files.Frames

/-!
# Frames are read as they were written

The reader takes a frame apart into the header and the bytes it was made of, and takes nothing
else. The page and the service write the same frames, as far as the piece fits 32 bits.
-/

namespace GChat

namespace Files

open Foundation

/-! ### Values -/

theorem skipSpace_cons {c : Char} (h : isSpace c = false) (chars : List Char) :
    skipSpace (c :: chars) = c :: chars := by
  rw [skipSpace, List.dropWhile_cons, h]
  rfl

theorem skipSpace_quote (text : String) (rest : List Char) :
    skipSpace (JsonText.quote text ++ rest) = JsonText.quote text ++ rest :=
  skipSpace_cons (by decide) _

theorem isDigit_of_mem_decimal {n : ℕ} {c : Char} (h : c ∈ decimal n) : c.isDigit = true :=
  Nat.isDigit_of_mem_toDigits (by decide) (by decide) h

theorem isSpace_of_isDigit {c : Char} (h : c.isDigit = true) : isSpace c = false := by
  by_contra hspace
  rw [Bool.not_eq_false, isSpace, Bool.or_eq_true, Bool.or_eq_true, Bool.or_eq_true] at hspace
  rcases hspace with ((hc | hc) | hc) | hc <;>
    · rw [beq_iff_eq.mp hc] at h
      exact absurd h (by decide)

theorem decimal_ne_nil (n : ℕ) : decimal n ≠ [] := Nat.toDigits_ne_nil

theorem skipSpace_decimal (n : ℕ) (rest : List Char) :
    skipSpace (decimal n ++ rest) = decimal n ++ rest := by
  cases hchars : decimal n with
  | nil => exact absurd hchars (decimal_ne_nil n)
  | cons c chars =>
      have hc : c ∈ decimal n := by
        rw [hchars]
        exact List.mem_cons_self
      exact skipSpace_cons (isSpace_of_isDigit (isDigit_of_mem_decimal hc)) _

theorem skipSpace_boolText (value : Bool) (rest : List Char) :
    skipSpace (boolText value ++ rest) = boolText value ++ rest := by
  cases value with
  | false => exact skipSpace_cons (by decide) _
  | true => exact skipSpace_cons (by decide) _

theorem readBool_boolText (value : Bool) (rest : List Char) :
    readBool (boolText value ++ rest) = some (value, rest) := by
  cases value with
  | false => rfl
  | true => rfl

/-- A number is read up to a character that is no digit. -/
theorem readNumber_decimal {c : Char} (piece : UInt32) (hc : c.isDigit = false)
    (rest : List Char) :
    readNumber (decimal piece.toNat ++ c :: rest) = some (piece, c :: rest) := by
  have hall : ∀ d ∈ decimal piece.toNat, d.isDigit = true := by
    intro d hd
    exact isDigit_of_mem_decimal hd
  have htake : (decimal piece.toNat ++ c :: rest).takeWhile Char.isDigit =
      decimal piece.toNat := by
    rw [List.takeWhile_append_of_pos hall, List.takeWhile_cons_of_neg (by simp [hc]),
      List.append_nil]
  have hdrop : (decimal piece.toNat ++ c :: rest).dropWhile Char.isDigit = c :: rest := by
    rw [List.dropWhile_append_of_pos hall, List.dropWhile_cons_of_neg (by simp [hc])]
  have hplain := (plainDecimal_decimal piece.toNat).2
  unfold readNumber
  rw [htake, hdrop]
  dsimp only
  rw [if_neg (decimal_ne_nil _), if_neg fun h => h.2 (hplain h.1),
    readDigits_decimal piece.toNat_lt, Option.map_some, UInt32.ofNat_toNat]

/-! ### Members -/

/-- A member that is followed by another one. -/
theorem readMembers_next {draft n : Draft} {name : String} {value rest : List Char}
    (hvalue : skipSpace (value ++ ',' :: rest) = value ++ ',' :: rest)
    (hrest : skipSpace rest = rest)
    (h : readValue draft name (value ++ ',' :: rest) = some (n, ',' :: rest)) (fuel : ℕ) :
    readMembers (fuel + 1) draft (JsonText.quote name ++ ':' :: (value ++ ',' :: rest)) =
      readMembers fuel n rest := by
  have hcolon : readColon (':' :: (value ++ ',' :: rest)) = some (value ++ ',' :: rest) := by
    rw [readColon, skipSpace_cons (by decide)]
    exact congrArg some hvalue
  rw [readMembers, JsonText.readString_quote]
  simp only [Option.bind_eq_bind, Option.bind_some, hcolon, h]
  rw [skipSpace_cons (by decide)]
  exact congrArg (readMembers fuel n) hrest

/-- The member that is followed by the closing brace. -/
theorem readMembers_last {draft n : Draft} {name : String} {value rest : List Char}
    (hvalue : skipSpace (value ++ '}' :: rest) = value ++ '}' :: rest)
    (h : readValue draft name (value ++ '}' :: rest) = some (n, '}' :: rest)) (fuel : ℕ) :
    readMembers (fuel + 1) draft (JsonText.quote name ++ ':' :: (value ++ '}' :: rest)) =
      some (n, rest) := by
  have hcolon : readColon (':' :: (value ++ '}' :: rest)) = some (value ++ '}' :: rest) := by
    rw [readColon, skipSpace_cons (by decide)]
    exact congrArg some hvalue
  rw [readMembers, JsonText.readString_quote]
  simp only [Option.bind_eq_bind, Option.bind_some, hcolon, h]
  rw [skipSpace_cons (by decide)]
  rfl

theorem readMembers_text (header : FileIo) (fuel : ℕ) :
    readMembers (fuel + 4) .empty (membersText header.instanceId header.id header.piece.toNat
      header.upload) =
      some (⟨some header.instanceId, some header.id, some header.piece, some header.upload⟩,
        []) := by
  rw [membersText, readMembers_next (skipSpace_quote _ _) (skipSpace_quote _ _) (n :=
      ⟨some header.instanceId, none, none, none⟩) (by simp [readValue, Draft.empty]),
    readMembers_next (skipSpace_quote _ _) (skipSpace_quote _ _) (n :=
      ⟨some header.instanceId, some header.id, none, none⟩) (by simp [readValue]),
    readMembers_next (skipSpace_decimal _ _) (skipSpace_quote _ _) (n :=
      ⟨some header.instanceId, some header.id, some header.piece, none⟩)
      (by simp [readValue, readNumber_decimal header.piece (c := ',') (by decide)]),
    readMembers_last (skipSpace_boolText _ _) (n :=
      ⟨some header.instanceId, some header.id, some header.piece, some header.upload⟩)
      (by simp [readValue, readBool_boolText])]

theorem readHeader_object {rest : List Char} {d : Draft}
    (h : readMembers rest.length .empty (skipSpace rest) = some (d, [])) :
    readHeader ('{' :: rest) = d.complete := by
  rw [readHeader, skipSpace_cons (by decide)]
  change (readMembers rest.length .empty (skipSpace rest)).bind _ = _
  rw [h]
  rfl

/-- A header is read as it was written. -/
theorem readHeader_text (header : FileIo) : readHeader header.text = some header := by
  have hlength : 4 ≤ (membersText header.instanceId header.id header.piece.toNat
      header.upload).length := by
    simp only [membersText, List.length_append, List.length_cons]
    omega
  rcases Nat.exists_eq_add_of_le' hlength with ⟨fuel, hfuel⟩
  refine readHeader_object (d := ⟨some header.instanceId, some header.id, some header.piece,
    some header.upload⟩) ?_
  rw [hfuel, membersText, skipSpace_quote, ← membersText]
  exact readMembers_text header fuel

/-! ### Frames -/

theorem length_frame (text bytes : List UInt8) :
    (frame text bytes).length = 8 + (text.length + bytes.length) := by
  simp [frame, ioMagic, toBigEndian16]
  omega

theorem fromBigEndian_toBigEndian16 {n : ℕ} (h : n < 2 ^ 16) :
    fromBigEndian (toBigEndian16 n) = n := by
  simp only [fromBigEndian, toBigEndian16, List.foldl_cons, List.foldl_nil, UInt8.toNat_ofNat']
  omega

theorem toBigEndian16_fromBigEndian {bytes : List UInt8} (h : bytes.length = 2) :
    toBigEndian16 (fromBigEndian bytes) = bytes := by
  rcases List.length_eq_two.mp h with ⟨a, b, rfl⟩
  have ha := a.toNat_lt
  have hb := b.toNat_lt
  simp only [fromBigEndian, toBigEndian16, List.foldl_cons, List.foldl_nil, List.cons.injEq,
    ← UInt8.toNat_inj, UInt8.toNat_ofNat', and_true]
  omega

/-- The text of a header, as it stands in a frame. -/
def Reads (text : List UInt8) (header : FileIo) : Prop :=
  (fromUtf8 text).bind (fun text => readHeader text.toList) = some header

theorem reads_text (header : FileIo) : Reads (utf8 (String.ofList header.text)) header := by
  rw [Reads, fromUtf8_utf8, Option.bind_some, String.toList_ofList, readHeader_text]

/-- A frame is accepted exactly if it is made of a header that is read and of bytes that both
keep within their bounds. -/
theorem decodeIo_eq_ok_iff {bytes : List UInt8} {header : FileIo} {payload : List UInt8} :
    decodeIo bytes = .ok (header, payload) ↔
      ∃ text, bytes = frame text payload ∧ text.length ≤ 512 ∧ payload.length ≤ pieceBytes ∧
        Reads text header := by
  constructor
  · intro h
    unfold decodeIo at h
    obtain ⟨_, hmagic, h⟩ := bind_eq_ok.mp h
    obtain ⟨_, hlength, h⟩ := bind_eq_ok.mp h
    obtain ⟨read, hread, h⟩ := bind_eq_ok.mp h
    rw [refuse_eq_ok] at hmagic hlength
    rw [okOr_eq_ok] at hread
    injection h with h
    injection h with hheader hpayload
    subst hheader
    simp only [Bool.or_eq_false_iff, decide_eq_false_iff_not, not_lt, not_not] at hmagic hlength
    obtain ⟨⟨hshort, -⟩, hmagic⟩ := hmagic
    obtain ⟨⟨hn, henough⟩, hrest⟩ := hlength
    generalize hsize : fromBigEndian ((bytes.drop 6).take 2) = n at *
    have htext : ((bytes.drop 8).take n).length = n := by
      rw [List.length_take, List.length_drop]
      omega
    have htwo : toBigEndian16 n = (bytes.drop 6).take 2 := by
      rw [← hsize]
      refine toBigEndian16_fromBigEndian ?_
      rw [List.length_take, List.length_drop]
      omega
    have hpay : payload.length ≤ pieceBytes := by
      rw [← hpayload, List.length_drop]
      exact hrest
    refine ⟨(bytes.drop 8).take n, ?_, htext.le.trans hn, hpay, hread⟩
    rw [frame, htext, htwo, ← hmagic, ← hpayload, ← List.drop_drop, List.take_append_drop,
      ← List.drop_drop (i := 2) (j := 6), List.take_append_drop, List.take_append_drop]
  · rintro ⟨text, rfl, htext, hpayload, hread⟩
    have hsize : ((frame text payload).drop 6).take 2 = toBigEndian16 text.length := rfl
    have hbehind : (frame text payload).drop 8 = text ++ payload := rfl
    have hpiece : pieceBytes = 262144 := rfl
    have hlimit : ioLimit = 263168 := rfl
    unfold decodeIo
    rw [hsize, fromBigEndian_toBigEndian16 (by omega), hbehind]
    dsimp only
    rw [List.take_left]
    refine bind_eq_ok.mpr ⟨(), refuse_eq_ok.mpr ?_, bind_eq_ok.mpr ⟨(), refuse_eq_ok.mpr ?_,
      bind_eq_ok.mpr ⟨header, okOr_eq_ok.mpr hread, ?_⟩⟩⟩
    · have hmagic : (frame text payload).take 6 = ioMagic := rfl
      rw [hmagic, length_frame]
      simp
      omega
    · rw [length_frame]
      simp
      omega
    · rw [← List.drop_drop, hbehind, List.drop_left]

theorem encodeIo_eq_ok_iff {header : FileIo} {bytes out : List UInt8} :
    encodeIo header bytes = .ok out ↔
      (utf8 (String.ofList header.text)).length ≤ 512 ∧ bytes.length ≤ pieceBytes ∧
        out = frame (utf8 (String.ofList header.text)) bytes := by
  unfold encodeIo
  constructor
  · intro h
    obtain ⟨_, hlength, h⟩ := bind_eq_ok.mp h
    rw [refuse_eq_ok] at hlength
    injection h with h
    simp only [Bool.or_eq_false_iff, decide_eq_false_iff_not, not_lt] at hlength
    exact ⟨hlength.1, hlength.2, h.symm⟩
  · rintro ⟨htext, hbytes, rfl⟩
    refine bind_eq_ok.mpr ⟨(), refuse_eq_ok.mpr ?_, rfl⟩
    simp only [Bool.or_eq_false_iff, decide_eq_false_iff_not, not_lt]
    exact ⟨htext, hbytes⟩

/-- The page writes the frames of the service, for the pieces that have a number there. -/
theorem encodeFileIo_eq_ok_iff {header : PageIo} {bytes out : List UInt8} :
    encodeFileIo header bytes = .ok out ↔
      ∃ piece : UInt32, piece.toNat = header.piece ∧
        encodeIo ⟨header.instanceId, header.id, piece, header.upload⟩ bytes = .ok out := by
  have hwide : header.piece ≤ 0xffffffff ↔ ∃ piece : UInt32, piece.toNat = header.piece := by
    constructor
    · intro h
      have hlt : header.piece < UInt32.size := by
        rw [show UInt32.size = 4294967296 from rfl]
        omega
      exact ⟨UInt32.ofNat header.piece, UInt32.toNat_ofNat_of_lt' hlt⟩
    · rintro ⟨piece, hpiece⟩
      have hlt := piece.toNat_lt
      omega
  unfold encodeFileIo
  constructor
  · intro h
    obtain ⟨_, hlength, h⟩ := bind_eq_ok.mp h
    rw [refuse_eq_ok] at hlength
    injection h with h
    simp only [Bool.or_eq_false_iff, decide_eq_false_iff_not, not_lt] at hlength
    rcases hwide.mp hlength.2 with ⟨piece, hpiece⟩
    refine ⟨piece, hpiece, encodeIo_eq_ok_iff.mpr ?_⟩
    rw [FileIo.text, hpiece]
    exact ⟨hlength.1.1, hlength.1.2, h.symm⟩
  · rintro ⟨piece, hpiece, h⟩
    obtain ⟨htext, hbytes, rfl⟩ := encodeIo_eq_ok_iff.mp h
    rw [FileIo.text, hpiece] at htext ⊢
    refine bind_eq_ok.mpr ⟨(), refuse_eq_ok.mpr ?_, rfl⟩
    simp only [Bool.or_eq_false_iff, decide_eq_false_iff_not, not_lt]
    exact ⟨⟨htext, hbytes⟩, hwide.mpr ⟨piece, hpiece⟩⟩

theorem decodeIo_encodeIo {header : FileIo} {bytes out : List UInt8}
    (h : encodeIo header bytes = .ok out) : decodeIo out = .ok (header, bytes) := by
  obtain ⟨htext, hbytes, rfl⟩ := encodeIo_eq_ok_iff.mp h
  exact decodeIo_eq_ok_iff.mpr ⟨_, rfl, htext, hbytes, reads_text header⟩

end Files

end GChat
