import GChat.Foundation.Outcome
import GChat.Recovery.Preview

/-!
# The round trip of a preview

The token of a preview is read back with the members behind it, and no text makes the command
panic. The identifiers of an accepted token are the written ones. Its epoch is a number as a text,
so it is the written one exactly if that text is plain.
-/

namespace GChat

namespace Recovery

open Foundation

/-! ### Digits -/

theorem utf8Size_of_isLowerHex {c : Char} (h : isLowerHex c = true) : c.utf8Size = 1 := by
  have hbound : c.toNat ≤ 127 := by
    simp only [isLowerHex, Bool.or_eq_true, Bool.and_eq_true, decide_eq_true_eq] at h
    omega
  have hval : c.val ≤ 127 := UInt32.le_iff_toNat_le.mpr hbound
  exact if_pos hval

theorem byteSize_of_all {text : List Char} (h : text.all isLowerHex = true) :
    byteSize text = text.length := by
  induction text with
  | nil => rfl
  | cons c text ih =>
      rw [List.all_cons, Bool.and_eq_true] at h
      rw [byteSize_cons, utf8Size_of_isLowerHex h.1, ih h.2, List.length_cons, Nat.add_comm]

/-- A slice of one-byte characters. -/
theorem sliceRange_of_all {text : List Char} (h : text.all isLowerHex = true) {start stop : ℕ}
    (hstart : start ≤ stop) (hstop : stop ≤ text.length) :
    sliceRange text start stop = .ok ((text.take stop).drop start) := by
  have hall : ∀ n, (text.take n).all isLowerHex = true := by
    intro n
    rw [List.all_eq_true] at h ⊢
    exact fun c hc => h c (List.mem_of_mem_take hc)
  have hfront : splitAtByte text stop = some (text.take stop, text.drop stop) := by
    have hsplit := splitAtByte_append (text.take stop) (text.drop stop)
    rwa [List.take_append_drop, byteSize_of_all (hall stop), List.length_take,
      Nat.min_eq_left hstop] at hsplit
  have hback : splitAtByte (text.take stop) start =
      some (text.take start, (text.take stop).drop start) := by
    have htake : (text.take stop).take start = text.take start := by
      rw [List.take_take, Nat.min_eq_left hstart]
    have hsplit := splitAtByte_append ((text.take stop).take start) ((text.take stop).drop start)
    rwa [List.take_append_drop, htake, byteSize_of_all (hall start), List.length_take,
      Nat.min_eq_left (hstart.trans hstop)] at hsplit
  rw [sliceRange, hfront]
  dsimp only
  rw [hback]

theorem digitValue_of_isLowerHex {c : Char} (h : isLowerHex c = true) :
    ∃ digit, digit < 16 ∧ digitValue 16 c = some digit ∧ hexDigit digit = c := by
  simp only [isLowerHex, Bool.or_eq_true, Bool.and_eq_true, decide_eq_true_eq] at h
  rcases h with ⟨hlow, hhigh⟩ | ⟨hlow, hhigh⟩
  · refine ⟨c.toNat - 48, by omega, ?_, ?_⟩
    · rw [digitValue, if_pos ⟨hlow, hhigh⟩, Option.filter_some, if_pos (by simp; omega)]
    · rw [hexDigit, if_pos (by omega), Nat.add_sub_cancel' hlow, Char.ofNat_toNat]
  · refine ⟨c.toNat - 87, by omega, ?_, ?_⟩
    · rw [digitValue, if_neg (by omega), if_pos ⟨hlow, by omega⟩, Option.filter_some,
        if_pos (by simp; omega)]
    · rw [hexDigit, if_neg (by omega), Nat.add_sub_cancel' (by omega), Char.ofNat_toNat]

theorem isLowerHex_hexDigit {n : ℕ} (h : n < 16) : isLowerHex (hexDigit n) = true := by
  have hall : ∀ d : Fin 16, isLowerHex (hexDigit d) = true := by decide
  exact hall ⟨n, h⟩

theorem all_hexChars (data : List UInt8) : (hexChars data).all isLowerHex = true := by
  induction data with
  | nil => rfl
  | cons b data ih =>
      have hb := b.toNat_lt
      rw [hexChars_cons, List.all_cons, List.all_cons, isLowerHex_hexDigit (by omega),
        isLowerHex_hexDigit (by omega), ih]
      rfl

theorem hexChars_append (front back : List UInt8) :
    hexChars (front ++ back) = hexChars front ++ hexChars back :=
  List.flatMap_append

/-! ### Bytes -/

/-- Two digits are the byte that is written with them. -/
theorem hexPair_of_all {text : List Char} (h : text.all isLowerHex = true) {index : ℕ}
    (hindex : index * 2 + 2 ≤ text.length) :
    ∃ b, hexPair text index = .ok b ∧
      hexByte b = (text.take (index * 2 + 2)).drop (index * 2) := by
  have hslice := sliceRange_of_all h (Nat.le_add_right _ 2) hindex
  have hlength : ((text.take (index * 2 + 2)).drop (index * 2)).length = 2 := by
    rw [List.length_drop, List.length_take, Nat.min_eq_left hindex, Nat.add_sub_cancel_left]
  obtain ⟨c, d, hpair⟩ := List.length_eq_two.mp hlength
  have hmem : ∀ x ∈ [c, d], isLowerHex x = true := by
    intro x hx
    rw [← hpair] at hx
    exact List.all_eq_true.mp h x (List.mem_of_mem_take (List.mem_of_mem_drop hx))
  have hc : isLowerHex c = true := hmem c (by simp)
  obtain ⟨high, hhigh, hvalue, hchar⟩ := digitValue_of_isLowerHex hc
  obtain ⟨low, hlow, hvalue', hchar'⟩ := digitValue_of_isLowerHex (hmem d (by simp))
  have hplus : [c, d].head? ≠ some '+' := by
    intro heq
    rw [List.head?_cons] at heq
    rw [Option.some.inj heq] at hc
    exact absurd hc (by decide)
  have hread : fromStrRadix 16 256 [c, d] = some (16 * high + low) := by
    rw [fromStrRadix_of_ne (List.cons_ne_nil _ _) hplus, readDigits, hvalue]
    dsimp only
    rw [if_pos (by omega), readDigits, hvalue']
    dsimp only
    rw [Nat.mul_zero, Nat.zero_add, if_pos (by omega), readDigits]
  have hnat : (UInt8.ofNat (16 * high + low)).toNat = 16 * high + low := by
    rw [UInt8.toNat_ofNat']
    omega
  refine ⟨UInt8.ofNat (16 * high + low), ?_, ?_⟩
  · rw [hexPair, hslice, hpair]
    dsimp only
    rw [hread]
  · have hdiv : (16 * high + low) / 16 = high := by omega
    have hmod : (16 * high + low) % 16 = low := by omega
    rw [hexByte, hnat, hdiv, hmod, hchar, hchar', hpair]

/-- The bytes of the first digits. -/
theorem mapM_hexPair {text : List Char} (h : text.all isLowerHex = true) {n : ℕ}
    (hn : n * 2 ≤ text.length) :
    ∃ data, (List.range n).mapM (hexPair text) = .ok data ∧ hexChars data = text.take (n * 2) ∧
      data.length = n := by
  induction n with
  | zero => exact ⟨[], rfl, by rw [Nat.zero_mul]; rfl, rfl⟩
  | succ n ih =>
      obtain ⟨data, hdata, htext, hlength⟩ := ih (by omega)
      obtain ⟨b, hb, hbyte⟩ := hexPair_of_all h (by omega : n * 2 + 2 ≤ text.length)
      refine ⟨data ++ [b], ?_, ?_, ?_⟩
      · rw [List.range_succ, List.mapM_append, hdata, List.mapM_cons, List.mapM_nil, hb]
        rfl
      · have hsingle : hexChars [b] = hexByte b := List.append_nil _
        have hfront : (text.take (n * 2 + 2)).take (n * 2) = text.take (n * 2) := by
          rw [List.take_take, Nat.min_eq_left (Nat.le_add_right _ 2)]
        rw [hexChars_append, htext, hsingle, hbyte, ← hfront, List.take_append_drop,
          Nat.succ_mul]
      · rw [List.length_append, hlength, List.length_singleton]

/-- A text of the right length is the written form of its bytes. -/
theorem bytes_of_all {n : ℕ} {text : List Char} (hsize : byteSize text = n * 2)
    (h : text.all isLowerHex = true) : ∃ b, bytes n text = .ok b ∧ hexChars b.toList = text := by
  have hlength : text.length = n * 2 := by rw [← byteSize_of_all h, hsize]
  obtain ⟨data, hdata, htext, hn⟩ := mapM_hexPair (n := n) h hlength.ge
  refine ⟨⟨data, hn⟩, ?_, ?_⟩
  · rw [bytes, if_neg (by rw [h, hsize]; simp), hdata]
    dsimp only
    rw [dif_pos hn]
  · rw [htext, List.take_of_length_le hlength.le]

theorem bytes_eq_ok {n : ℕ} {text : List Char} {b : Bytes n} :
    bytes n text = .ok b ↔ text = hexChars b.toList := by
  constructor
  · intro h
    by_cases hbad : byteSize text ≠ n * 2 ∨ text.all isLowerHex = false
    · rw [bytes, if_pos hbad] at h
      cases h
    · rw [not_or, not_not, Bool.not_eq_false] at hbad
      obtain ⟨b', hb', htext⟩ := bytes_of_all hbad.1 hbad.2
      rw [hb'] at h
      cases h
      exact htext.symm
  · rintro rfl
    have hall := all_hexChars b.toList
    have hsize : byteSize (hexChars b.toList) = n * 2 := by
      rw [byteSize_of_all hall, length_hexChars, b.length_toList, Nat.mul_comm]
    obtain ⟨b', hb', htext⟩ := bytes_of_all hsize hall
    rw [hb', Bytes.toList_injective (hexChars_injective htext)]

theorem bytes_ne_panic (n : ℕ) (text : List Char) : bytes n text ≠ .error .panic := by
  intro h
  by_cases hbad : byteSize text ≠ n * 2 ∨ text.all isLowerHex = false
  · rw [bytes, if_pos hbad] at h
    cases h
  · rw [not_or, not_not, Bool.not_eq_false] at hbad
    obtain ⟨b, hb, -⟩ := bytes_of_all hbad.1 hbad.2
    rw [hb] at h
    cases h

/-! ### Words and fields -/

/-- Some white space and nothing else. -/
def IsGap (text : String) : Prop := text ≠ "" ∧ text.toList.all isWhitespace = true

instance (text : String) : Decidable (IsGap text) := inferInstanceAs (Decidable (_ ∧ _))

def IsWord (text : String) : Prop := text ≠ "" ∧ text.toList.all (fun c => !isWhitespace c) = true

/-- The token with the words behind it, each behind its gap. -/
def arguments (token : String) (selected : List (String × String)) : String :=
  token ++ String.ofList (selected.flatMap fun entry => entry.1.toList ++ entry.2.toList)

theorem wordsFrom_word {front : List Char} (h : front.all (fun c => !isWhitespace c) = true)
    (word text : List Char) : wordsFrom word (front ++ text) =
      wordsFrom (front.reverse ++ word) text := by
  induction front generalizing word with
  | nil => rfl
  | cons c front ih =>
      rw [List.all_cons, Bool.and_eq_true, Bool.not_eq_true'] at h
      rw [List.cons_append, wordsFrom, h.1, if_neg Bool.false_ne_true, ih h.2, List.reverse_cons,
        List.append_assoc, List.singleton_append]

theorem wordsFrom_blank {blank : List Char} (h : blank.all isWhitespace = true)
    (text : List Char) : wordsFrom [] (blank ++ text) = wordsFrom [] text := by
  induction blank with
  | nil => rfl
  | cons c blank ih =>
      rw [List.all_cons, Bool.and_eq_true] at h
      rw [List.cons_append, wordsFrom, if_pos h.1, ih h.2]
      rfl

/-- A gap ends the word before it. -/
theorem wordsFrom_gap {gap : String} (h : IsGap gap) {word : List Char} (hword : word ≠ [])
    (text : List Char) :
    wordsFrom word (gap.toList ++ text) = word.reverse :: wordsFrom [] text := by
  rcases h with ⟨hne, hall⟩
  cases hgap : gap.toList with
  | nil => exact absurd (String.toList_eq_nil_iff.mp hgap) hne
  | cons c blank =>
      rw [hgap, List.all_cons, Bool.and_eq_true] at hall
      have hempty : word.isEmpty = false := by rwa [List.isEmpty_eq_false_iff]
      rw [List.cons_append, wordsFrom, if_pos hall.1, hempty, if_neg Bool.false_ne_true,
        wordsFrom_blank hall.2]

theorem wordsFrom_selected {selected : List (String × String)}
    (h : ∀ entry ∈ selected, IsGap entry.1 ∧ IsWord entry.2) {word : List Char} (hword : word ≠ []) :
    wordsFrom word (selected.flatMap fun entry => entry.1.toList ++ entry.2.toList) =
      word.reverse :: selected.map fun entry => entry.2.toList := by
  induction selected generalizing word with
  | nil =>
      have hempty : word.isEmpty = false := by rwa [List.isEmpty_eq_false_iff]
      rw [List.flatMap_nil, wordsFrom, hempty, if_neg Bool.false_ne_true, List.map_nil]
  | cons entry selected ih =>
      have hentry := h entry List.mem_cons_self
      have hne : entry.2.toList.reverse ≠ [] := by
        rw [Ne, List.reverse_eq_nil_iff, String.toList_eq_nil_iff]
        exact hentry.2.1
      rw [List.flatMap_cons, List.append_assoc, wordsFrom_gap hentry.1 hword,
        wordsFrom_word hentry.2.2, List.append_nil,
        ih (fun e he => h e (List.mem_cons_of_mem entry he)) hne, List.reverse_reverse,
        List.map_cons]

/-- The token and the words are the words of the arguments. -/
theorem splitWhitespace_arguments {token : String} {selected : List (String × String)}
    (htoken : IsWord token) (h : ∀ entry ∈ selected, IsGap entry.1 ∧ IsWord entry.2) :
    splitWhitespace (arguments token selected) = token :: selected.map Prod.snd := by
  have hne : token.toList.reverse ≠ [] := by
    rw [Ne, List.reverse_eq_nil_iff, String.toList_eq_nil_iff]
    exact htoken.1
  rw [splitWhitespace, arguments, String.toList_append, String.toList_ofList,
    wordsFrom_word htoken.2, List.append_nil, wordsFrom_selected h hne, List.reverse_reverse,
    List.map_cons, String.ofList_toList, List.map_map]
  congr 1
  exact List.map_congr_left fun entry _ => String.ofList_toList

/-- A character that can stand in a field of a token. -/
def isFieldChar (c : Char) : Bool := !isWhitespace c && c != '.'

theorem all_isFieldChar {text : List Char} (h : text.all isLowerHex = true) :
    text.all isFieldChar = true := by
  have hdigit : ∀ d : Fin 16, isFieldChar (hexDigit d) = true := by decide
  rw [List.all_eq_true] at h ⊢
  intro c hc
  obtain ⟨digit, hlt, -, rfl⟩ := digitValue_of_isLowerHex (h c hc)
  exact hdigit ⟨digit, hlt⟩

theorem all_decimal (n : ℕ) : (decimal n).all isLowerHex = true := by
  induction n using Nat.strong_induction_on with
  | _ n ih =>
      have hdigit : ∀ d : Fin 10, isLowerHex (Nat.digitChar d) = true := by decide
      rcases Nat.lt_or_ge n 10 with hlt | hge
      · rw [decimal_of_lt hlt, List.all_cons, hdigit ⟨n, hlt⟩]
        rfl
      · have hlt : n % 10 < 10 := Nat.mod_lt _ (by decide)
        have hn : 10 * (n / 10) + n % 10 = n := Nat.div_add_mod n 10
        rw [← hn, decimal_append (by omega) hlt, List.all_append, ih (n / 10) (by omega),
          List.all_cons, hdigit ⟨n % 10, hlt⟩]
        rfl

theorem mem_intercalate {separator c : Char} {fields : List (List Char)}
    (h : c ∈ [separator].intercalate fields) : c = separator ∨ ∃ field ∈ fields, c ∈ field := by
  induction fields with
  | nil => exact absurd h List.not_mem_nil
  | cons field fields ih =>
      cases fields with
      | nil =>
          rw [List.intercalate_singleton] at h
          exact Or.inr ⟨field, List.mem_cons_self, h⟩
      | cons next fields =>
          rw [List.intercalate_cons_cons, List.mem_append, List.mem_append, List.mem_singleton] at h
          rcases h with (h | h) | h
          · exact Or.inr ⟨field, List.mem_cons_self, h⟩
          · exact Or.inl h
          · rcases ih h with h | ⟨other, hmem, hc⟩
            · exact Or.inl h
            · exact Or.inr ⟨other, List.mem_cons_of_mem field hmem, hc⟩

section Token

variable (channelId : Bytes 32) (epoch : List Char) (pendingCommit : Option (Bytes 16))
  (revision : Bytes 32)

/-- The fields of a token with any text as its epoch. -/
def fieldsWith : List (List Char) :=
  [hexChars channelId.toList, epoch, (pendingCommit.map fun id => hexChars id.toList).getD ['-'],
    hexChars revision.toList]

def tokenWith : String :=
  String.ofList (['.'].intercalate (fieldsWith channelId epoch pendingCommit revision))

theorem expected_eq (number : UInt64) : expected channelId number pendingCommit revision =
    (tokenWith channelId (decimal number.toNat) pendingCommit revision).toList := by
  simp only [expected, tokenWith, fieldsWith, String.toList_ofList, List.intercalate_cons_cons,
    List.intercalate_singleton, List.append_assoc, List.singleton_append]

variable {epoch}

theorem isFieldChar_of_mem_fieldsWith (hepoch : epoch.all isFieldChar = true) :
    ∀ field ∈ fieldsWith channelId epoch pendingCommit revision,
      field.all isFieldChar = true := by
  intro field h
  simp only [fieldsWith, List.mem_cons, List.not_mem_nil, or_false] at h
  rcases h with rfl | rfl | rfl | rfl
  · exact all_isFieldChar (all_hexChars _)
  · exact hepoch
  · cases pendingCommit with
    | none => rfl
    | some id => exact all_isFieldChar (all_hexChars _)
  · exact all_isFieldChar (all_hexChars _)

/-- A written token is split into its fields. -/
theorem splitOn_tokenWith (hepoch : epoch.all isFieldChar = true) :
    (tokenWith channelId epoch pendingCommit revision).toList.splitOn '.' =
      fieldsWith channelId epoch pendingCommit revision := by
  rw [tokenWith, String.toList_ofList]
  apply List.splitOn_intercalate '.'
  · intro field hfield hdot
    have hall := isFieldChar_of_mem_fieldsWith channelId pendingCommit revision hepoch field hfield
    exact absurd (List.all_eq_true.mp hall _ hdot) (by decide)
  · exact List.cons_ne_nil _ _

theorem isWord_tokenWith (hepoch : epoch.all isFieldChar = true) :
    IsWord (tokenWith channelId epoch pendingCommit revision) := by
  have hfield := isFieldChar_of_mem_fieldsWith channelId pendingCommit revision hepoch
  constructor
  · intro h
    have hfields := splitOn_tokenWith channelId pendingCommit revision hepoch
    rw [h, String.toList_empty, List.splitOn_nil] at hfields
    cases congrArg List.length hfields
  · rw [tokenWith, String.toList_ofList, List.all_eq_true]
    intro c hc
    rcases mem_intercalate hc with rfl | ⟨field, hmem, hc⟩
    · decide
    · exact (Bool.and_eq_true_iff.mp (List.all_eq_true.mp (hfield field hmem) c hc)).1

end Token

theorem isWord_hex (id : Bytes 32) : IsWord (hex id.toList) := by
  constructor
  · intro h
    have hlength := congrArg (fun text => text.toList.length) h
    rw [toList_hex, length_hexChars, id.length_toList] at hlength
    cases hlength
  · rw [toList_hex, List.all_eq_true]
    intro c hc
    have hall := all_isFieldChar (all_hexChars id.toList)
    exact (Bool.and_eq_true_iff.mp (List.all_eq_true.mp hall c hc)).1

/-! ### Requests -/

theorem parseEpoch_decimal (epoch : UInt64) : parseEpoch (decimal epoch.toNat) = .ok epoch := by
  rw [parseEpoch, fromStrRadix_decimal epoch.toNat_lt]
  dsimp only
  rw [UInt64.ofNat_toNat]

theorem parsePending_getD (pendingCommit : Option (Bytes 16)) :
    parsePending ((pendingCommit.map fun id => hexChars id.toList).getD ['-']) =
      .ok pendingCommit := by
  cases pendingCommit with
  | none => rfl
  | some id =>
      have hne : hexChars id.toList ≠ ['-'] := by
        intro h
        have hlength := congrArg List.length h
        rw [length_hexChars, id.length_toList] at hlength
        cases hlength
      rw [Option.map_some, Option.getD_some, parsePending, if_neg hne, bytes_eq_ok.mpr rfl]
      rfl

/-- The pending commit of a field that is read is the one it is written with. -/
theorem parsePending_eq_ok {text : List Char} {pendingCommit : Option (Bytes 16)}
    (h : parsePending text = .ok pendingCommit) :
    text = (pendingCommit.map fun id => hexChars id.toList).getD ['-'] := by
  unfold parsePending at h
  split at h
  next htext =>
    cases h
    exact htext
  · cases hid : bytes 16 text with
    | error failure =>
        rw [hid] at h
        cases h
    | ok id =>
        rw [hid] at h
        cases h
        exact bytes_eq_ok.mp hid

theorem mapM_bytes (ids : List (Bytes 32)) :
    (ids.map fun id => hex id.toList).mapM (fun word => bytes 32 word.toList) = .ok ids := by
  induction ids with
  | nil => rfl
  | cons id ids ih =>
      rw [List.map_cons, List.mapM_cons, toList_hex, bytes_eq_ok.mpr rfl, ih]
      rfl

/-- The selected members, each behind its gap. -/
def selectedIds (selected : List (String × Bytes 32)) : List (String × String) :=
  selected.map fun entry => (entry.1, hex entry.2.toList)

section Arguments

variable {selected : List (String × Bytes 32)}

theorem splitWhitespace_selected {token : String} (htoken : IsWord token)
    (hgap : ∀ entry ∈ selected, IsGap entry.1) :
    splitWhitespace (arguments token (selectedIds selected)) =
      token :: (selected.map Prod.snd).map fun id => hex id.toList := by
  have hwords : ∀ entry ∈ selectedIds selected, IsGap entry.1 ∧ IsWord entry.2 := by
    intro entry hentry
    obtain ⟨e, he, rfl⟩ := List.mem_map.mp hentry
    exact ⟨hgap e he, isWord_hex e.2⟩
  rw [splitWhitespace_arguments htoken hwords, selectedIds, List.map_map, List.map_map]
  rfl

/-- A token with members behind it is read with any text of its epoch. -/
theorem parse_tokenWith (channelId : Bytes 32) {epoch : List Char} {number : UInt64}
    (pendingCommit : Option (Bytes 16)) (revision : Bytes 32)
    (hepoch : epoch.all isFieldChar = true) (hnumber : parseEpoch epoch = .ok number)
    (hne : selected ≠ []) (hlength : selected.length ≤ 128)
    (hgap : ∀ entry ∈ selected, IsGap entry.1) :
    parse (arguments (tokenWith channelId epoch pendingCommit revision) (selectedIds selected)) =
      .ok ⟨channelId, number, pendingCommit, revision, selected.map Prod.snd⟩ := by
  have hcount : ((selected.map Prod.snd).isEmpty ||
      decide (128 < (selected.map Prod.snd).length)) = false := by
    rw [Bool.or_eq_false_iff, decide_eq_false_iff_not, List.length_map, List.isEmpty_eq_false_iff]
    exact ⟨fun h => hne (List.map_eq_nil_iff.mp h), by omega⟩
  rw [parse, splitWhitespace_selected (isWord_tokenWith _ _ _ hepoch) hgap]
  dsimp only
  rw [splitOn_tokenWith _ _ _ hepoch, fieldsWith, mapM_bytes]
  dsimp only [bind, Except.bind]
  rw [hcount, if_neg Bool.false_ne_true, bytes_eq_ok.mpr rfl, hnumber, parsePending_getD,
    bytes_eq_ok.mpr rfl]

/-- A written preview with members behind it is read as it was shown. -/
theorem parse_arguments (channel : String) (status : MembershipRecoveryStatus)
    (hne : selected ≠ []) (hlength : selected.length ≤ 128)
    (hgap : ∀ entry ∈ selected, IsGap entry.1) :
    parse (arguments (output channel status).expected (selectedIds selected)) =
      .ok ⟨status.channelId, status.epoch, status.pendingCommit, status.revision,
        selected.map Prod.snd⟩ := by
  dsimp only [output]
  rw [expected_eq, String.ofList_toList]
  exact parse_tokenWith _ _ _ (all_isFieldChar (all_decimal _)) (parseEpoch_decimal _) hne hlength
    hgap

end Arguments

/-! ### No panic -/

section Panic

variable {α β : Type}

theorem ok_ne_panic (a : α) : (.ok a : Except Failure α) ≠ .error .panic := nofun

theorem refused_ne_panic (message : String) :
    (.error (.refused message) : Except Failure α) ≠ .error .panic := nofun

theorem bind_ne_panic {x : Except Failure α} {f : α → Except Failure β}
    (hx : x ≠ .error .panic) (hf : ∀ a, f a ≠ .error .panic) : x >>= f ≠ .error .panic := by
  intro h
  rcases bind_eq_error.mp h with h | ⟨a, -, h⟩
  · exact hx h
  · exact hf a h

theorem mapM_ne_panic {read : α → Except Failure β} (h : ∀ a, read a ≠ .error .panic)
    (list : List α) : list.mapM read ≠ .error .panic := by
  induction list with
  | nil => exact ok_ne_panic _
  | cons a list ih =>
      rw [List.mapM_cons]
      exact bind_ne_panic (h a) fun b => bind_ne_panic ih fun bs => ok_ne_panic _

end Panic

theorem parseEpoch_ne_panic (text : List Char) : parseEpoch text ≠ .error .panic := by
  unfold parseEpoch
  split
  · exact refused_ne_panic _
  · exact ok_ne_panic _

theorem parsePending_ne_panic (text : List Char) : parsePending text ≠ .error .panic := by
  unfold parsePending
  split
  · exact ok_ne_panic _
  · intro h
    cases hid : bytes 16 text with
    | error failure =>
        rw [hid] at h
        cases h
        exact bytes_ne_panic 16 text hid
    | ok id =>
        rw [hid] at h
        cases h

theorem parse_ne_panic (args : String) : parse args ≠ .error .panic := by
  unfold parse
  split
  · exact refused_ne_panic _
  · split
    · refine bind_ne_panic (mapM_ne_panic (fun word : String => bytes_ne_panic 32 word.toList) _) ?_
      intro removeMembers
      split
      · exact refused_ne_panic _
      · refine bind_ne_panic (bytes_ne_panic 32 _) fun channelId => ?_
        refine bind_ne_panic (parseEpoch_ne_panic _) fun epoch => ?_
        refine bind_ne_panic (parsePending_ne_panic _) fun pendingCommit => ?_
        exact bind_ne_panic (bytes_ne_panic 32 _) fun revision => ok_ne_panic _
    · exact refused_ne_panic _

/-! ### Accepted tokens -/

/-- What a request is read from. -/
structure Accepted (token : String) (request : MembershipRecoveryRequest) (epoch : List Char) :
    Prop where
  fields : token.toList.splitOn '.' =
    fieldsWith request.channelId epoch request.pendingCommit request.revision
  epoch : parseEpoch epoch = .ok request.epoch

theorem accepted_of_parse {args token : String} {words : List String}
    {request : MembershipRecoveryRequest} (hwords : splitWhitespace args = token :: words)
    (h : parse args = .ok request) : ∃ epoch, Accepted token request epoch := by
  rw [parse, hwords] at h
  dsimp only at h
  split at h
  next channel epoch pending revision hfields =>
    obtain ⟨removeMembers, -, h⟩ := bind_eq_ok.mp h
    split at h
    · cases h
    · obtain ⟨channelId, hchannel, h⟩ := bind_eq_ok.mp h
      obtain ⟨number, hepoch, h⟩ := bind_eq_ok.mp h
      obtain ⟨pendingCommit, hpending, h⟩ := bind_eq_ok.mp h
      obtain ⟨revisionId, hrevision, h⟩ := bind_eq_ok.mp h
      cases h
      refine ⟨epoch, ?_, hepoch⟩
      rw [hfields, bytes_eq_ok.mp hchannel, parsePending_eq_ok hpending,
        bytes_eq_ok.mp hrevision, fieldsWith]
  · cases h

theorem parseEpoch_eq_ok {text : List Char} {epoch : UInt64} (h : parseEpoch text = .ok epoch) :
    fromStrRadix 10 (2 ^ 64) text = some epoch.toNat := by
  unfold parseEpoch at h
  split at h
  · cases h
  next value hvalue =>
    cases h
    rw [hvalue, UInt64.toNat_ofNat', Nat.mod_eq_of_lt (fromStrRadix_lt (by decide) hvalue)]

/-- The text of the epoch of a token. -/
def epochField (token : String) : List Char := (token.toList.splitOn '.').getD 1 []

namespace Accepted

variable {token : String} {request : MembershipRecoveryRequest} {epoch : List Char}

theorem epochField_eq (h : Accepted token request epoch) : epochField token = epoch := by
  rw [epochField, h.fields]
  rfl

/-- An accepted token is the written one exactly if its epoch is plain. -/
theorem eq_expected_iff (h : Accepted token request epoch) :
    token.toList = expected request.channelId request.epoch request.pendingCommit
      request.revision ↔ PlainDecimal (epochField token) := by
  rw [h.epochField_eq, ← eq_decimal_iff (parseEpoch_eq_ok h.epoch)]
  constructor
  · intro htoken
    have hfields := h.fields
    rw [htoken, expected_eq, splitOn_tokenWith _ _ _ (all_isFieldChar (all_decimal _)), fieldsWith,
      fieldsWith, List.cons.injEq, List.cons.injEq] at hfields
    exact hfields.2.1.symm
  · rintro rfl
    have hjoined : ['.'].intercalate (token.toList.splitOn '.') = token.toList :=
      List.intercalate_splitOn '.'
    rw [h.fields] at hjoined
    rw [← hjoined, expected_eq, tokenWith, String.toList_ofList]

end Accepted

/-- No text makes the command panic, and a preview with any members behind it is read back. The
token of an accepted text is the written one of the request exactly if its epoch has no plus sign
and no superfluous zero, and of such tokens only one denotes a preview. -/
theorem previews_round_trip (args : String) :
    parse args ≠ .error .panic ∧
    (∀ (channel : String) (status : MembershipRecoveryStatus) (selected : List (String × Bytes 32)),
      selected ≠ [] → selected.length ≤ 128 → (∀ entry ∈ selected, IsGap entry.1) →
      args = arguments (output channel status).expected (selectedIds selected) →
      parse args = .ok ⟨status.channelId, status.epoch, status.pendingCommit, status.revision,
        selected.map Prod.snd⟩) ∧
    ∀ (token : String) (words : List String) (request : MembershipRecoveryRequest),
      splitWhitespace args = token :: words → parse args = .ok request →
      (token.toList = expected request.channelId request.epoch request.pendingCommit
        request.revision ↔ PlainDecimal (epochField token)) ∧
      ∀ (args' token' : String) (words' : List String) (request' : MembershipRecoveryRequest),
        splitWhitespace args' = token' :: words' → parse args' = .ok request' →
        request.channelId = request'.channelId → request.epoch = request'.epoch →
        request.pendingCommit = request'.pendingCommit → request.revision = request'.revision →
        PlainDecimal (epochField token) → PlainDecimal (epochField token') → token = token' := by
  refine ⟨parse_ne_panic args, ?_, ?_⟩
  · rintro channel status selected hne hlength hgap rfl
    exact parse_arguments channel status hne hlength hgap
  · intro token words request hwords h
    obtain ⟨epoch, haccepted⟩ := accepted_of_parse hwords h
    refine ⟨haccepted.eq_expected_iff, ?_⟩
    intro args' token' words' request' hwords' h' hchannel hepoch hpending hrevision hplain hplain'
    obtain ⟨epoch', haccepted'⟩ := accepted_of_parse hwords' h'
    apply String.toList_injective
    rw [haccepted.eq_expected_iff.mpr hplain, haccepted'.eq_expected_iff.mpr hplain', hchannel,
      hepoch, hpending, hrevision]

namespace Sample

def status : MembershipRecoveryStatus := ⟨.fill 32 1, 3, none, .fill 32 3, [], 2⟩

/-- A member behind a tab and a space. -/
def selected : List (String × Bytes 32) := [("\t ", .fill 32 4)]

def request : MembershipRecoveryRequest :=
  ⟨status.channelId, status.epoch, none, status.revision, [.fill 32 4]⟩

/-- The token of `status` with another text as the epoch. -/
def token (epoch : String) : String :=
  tokenWith status.channelId epoch.toList status.pendingCommit status.revision

def args (epoch : String) : String := arguments (token epoch) (selectedIds selected)

end Sample

theorem parse_sample {epoch : String} (hepoch : epoch.toList.all isFieldChar = true)
    (hnumber : parseEpoch epoch.toList = .ok 3) :
    splitWhitespace (Sample.args epoch) = [Sample.token epoch, hex (Bytes.fill 32 4).toList] ∧
      parse (Sample.args epoch) = .ok Sample.request ∧
      epochField (Sample.token epoch) = epoch.toList := by
  refine ⟨?_, ?_, ?_⟩
  · exact splitWhitespace_selected (isWord_tokenWith _ _ _ hepoch) (by decide)
  · exact parse_tokenWith _ _ _ hepoch hnumber (by decide) (by decide) (by decide)
  · rw [epochField, Sample.token, splitOn_tokenWith _ _ _ hepoch]
    rfl

theorem previews_round_trip_sample :
    parse (arguments (output "test" Sample.status).expected (selectedIds Sample.selected)) =
      .ok Sample.request ∧
    (Sample.token "3").toList = expected Sample.request.channelId Sample.request.epoch
      Sample.request.pendingCommit Sample.request.revision := by
  obtain ⟨hwords, hparse, hfield⟩ :=
    parse_sample (by decide : "3".toList.all isFieldChar = true) (by decide)
  refine ⟨(previews_round_trip _).2.1 "test" Sample.status Sample.selected (by decide) (by decide)
    (by decide) rfl, ?_⟩
  refine ((previews_round_trip _).2.2 _ _ _ hwords hparse).1.mpr ?_
  rw [hfield]
  decide

/-- A sign or a zero before the epoch makes another token of the same preview. -/
theorem signed_epoch_accepted :
    parse (Sample.args "+3") = .ok Sample.request ∧
    parse (Sample.args "03") = .ok Sample.request ∧
    splitWhitespace (Sample.args "+3") = [Sample.token "+3", hex (Bytes.fill 32 4).toList] ∧
    splitWhitespace (Sample.args "03") = [Sample.token "03", hex (Bytes.fill 32 4).toList] ∧
    (Sample.token "+3").toList ≠ expected Sample.request.channelId Sample.request.epoch
      Sample.request.pendingCommit Sample.request.revision ∧
    Sample.token "+3" ≠ Sample.token "03" := by
  obtain ⟨hwords, hparse, hfield⟩ :=
    parse_sample (by decide : "+3".toList.all isFieldChar = true) (by decide)
  obtain ⟨hwords', hparse', hfield'⟩ :=
    parse_sample (by decide : "03".toList.all isFieldChar = true) (by decide)
  refine ⟨hparse, hparse', hwords, hwords', ?_, ?_⟩
  · intro heq
    obtain ⟨epoch, haccepted⟩ := accepted_of_parse hwords hparse
    have hplain := haccepted.eq_expected_iff.mp heq
    rw [hfield] at hplain
    exact absurd hplain (by decide)
  · intro heq
    rw [heq, hfield'] at hfield
    exact absurd hfield (by decide)

end Recovery

end GChat
