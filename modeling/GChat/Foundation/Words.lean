import Mathlib.Data.List.TakeWhile
import GChat.Foundation.Text

/-!
# Words of a text

A text is split at its white space: into all its words, or into the first word
and what follows it.
-/

namespace Foundation

/-- The words of a text; `word` holds the letters of the word being read, last
first. -/
def wordsFrom : List Char → List Char → List (List Char)
  | word, [] => if word.isEmpty then [] else [word.reverse]
  | word, c :: text =>
      if isWhitespace c then
        if word.isEmpty then wordsFrom [] text else word.reverse :: wordsFrom [] text
      else wordsFrom (c :: word) text

def splitWhitespace (text : String) : List String :=
  (wordsFrom [] text.toList).map String.ofList

def toAsciiLowercase (text : String) : String :=
  String.ofList (text.toList.map toAsciiLower)

def trimWhitespace (text : String) : String :=
  String.ofList ((text.toList.dropWhile isWhitespace).reverse.dropWhile isWhitespace).reverse

/-- The text before the first white space, without leading white space, and the
text after that white space. -/
def splitHead (text : String) : String × String :=
  let text := text.toList.dropWhile isWhitespace
  (String.ofList (text.takeWhile fun c => !isWhitespace c),
    String.ofList ((text.dropWhile fun c => !isWhitespace c).drop 1))

theorem eqIgnoreAsciiCase_iff {a b : String} :
    eqIgnoreAsciiCase a b = true ↔ toAsciiLowercase a = toAsciiLowercase b := by
  rw [eqIgnoreAsciiCase, beq_iff_eq, toAsciiLowercase, toAsciiLowercase, String.ofList_inj]

theorem toAsciiLowercase_append (a b : String) :
    toAsciiLowercase (a ++ b) = toAsciiLowercase a ++ toAsciiLowercase b := by
  apply String.toList_injective
  simp [toAsciiLowercase]

theorem toAsciiLower_idem (c : Char) : toAsciiLower (toAsciiLower c) = toAsciiLower c := by
  by_cases hupper : (65 ≤ c.toNat && c.toNat ≤ 90) = true
  · have hlower : toAsciiLower c = Char.ofNat (c.toNat + 32) := if_pos hupper
    simp only [Bool.and_eq_true, decide_eq_true_eq] at hupper
    have hvalid : (c.toNat + 32).isValidChar := Or.inl (by omega)
    have hnat : (toAsciiLower c).toNat = c.toNat + 32 := by
      rw [hlower, Char.ofNat, dif_pos hvalid]
      rfl
    rw [toAsciiLower, if_neg]
    simp only [hnat, Bool.and_eq_true, decide_eq_true_eq]
    omega
  · have hlower : toAsciiLower c = c := if_neg hupper
    rw [hlower, hlower]

theorem toAsciiLowercase_idem (text : String) :
    toAsciiLowercase (toAsciiLowercase text) = toAsciiLowercase text := by
  apply String.toList_injective
  simp [toAsciiLowercase, toAsciiLower_idem]

/-- The first word of a word is the word. -/
theorem splitHead_word (text : String) : (splitHead (splitHead text).1).1 = (splitHead text).1 := by
  simp only [splitHead, String.toList_ofList]
  generalize text.toList.dropWhile isWhitespace = l
  have hdrop : (l.takeWhile fun c => !isWhitespace c).dropWhile isWhitespace =
      l.takeWhile fun c => !isWhitespace c := by
    cases l with
    | nil => rfl
    | cons c l =>
        cases hc : isWhitespace c with
        | true => simp [hc]
        | false => simp [hc]
  rw [hdrop, List.takeWhile_idem]

/-- What follows the first word and a space does not change it. -/
theorem splitHead_append {text : String} (h : (splitHead text).1 ≠ "") (rest : String) :
    (splitHead (text ++ " " ++ rest)).1 = (splitHead text).1 := by
  have hspace : isWhitespace ' ' = true := by decide
  have hempty : (text.toList.dropWhile isWhitespace).isEmpty = false := by
    cases hl : text.toList.dropWhile isWhitespace with
    | nil =>
        rw [splitHead, hl] at h
        exact absurd rfl h
    | cons c l => rfl
  have htext : (text ++ " " ++ rest).toList = text.toList ++ ' ' :: rest.toList := by simp
  simp only [splitHead, htext, List.dropWhile_append]
  rw [hempty, if_neg (by simp), List.takeWhile_append]
  split
  · rename_i hall
    have hself := List.takeWhile_prefix (p := fun c => !isWhitespace c)
      (l := text.toList.dropWhile isWhitespace)
    rw [hself.eq_of_length hall]
    simp [hspace]
  · rfl

/-- Without its first word a text is another. -/
theorem splitHead_rest_ne {text : String} (h : (splitHead text).1 ≠ "") :
    (splitHead text).2 ≠ text := by
  intro heq
  have hlength := congrArg (fun t => t.toList.length) heq
  simp only [splitHead, String.toList_ofList, List.length_drop] at hlength
  have hleading := (List.dropWhile_suffix isWhitespace (l := text.toList)).length_le
  have hsplit := congrArg List.length (List.takeWhile_append_dropWhile
    (p := fun c => !isWhitespace c) (l := text.toList.dropWhile isWhitespace))
  rw [List.length_append] at hsplit
  have hword : (text.toList.dropWhile isWhitespace).takeWhile (fun c => !isWhitespace c) ≠ [] := by
    intro hnil
    rw [splitHead, hnil] at h
    exact h rfl
  have hpos := List.length_pos_iff.mpr hword
  omega

/-- What follows a slash at the very start of the text. -/
def afterSlash (text : String) : Option String :=
  match text.toList with
  | '/' :: rest => some (String.ofList rest)
  | _ => none

theorem afterSlash_eq_some {text rest : String} (h : afterSlash text = some rest) :
    text.toList = '/' :: rest.toList := by
  unfold afterSlash at h
  split at h
  · rename_i chars htext
    cases h
    rw [htext, String.toList_ofList]
  · cases h

/-- The first word of a text that starts with a slash starts with it. -/
theorem splitHead_of_slash {text rest : String} (h : afterSlash text = some rest) :
    (splitHead text).1 =
        String.ofList ('/' :: rest.toList.takeWhile fun c => !isWhitespace c) ∧
      (splitHead text).2 =
        String.ofList ((rest.toList.dropWhile fun c => !isWhitespace c).drop 1) := by
  have hslash : isWhitespace '/' = false := by decide
  have htext := afterSlash_eq_some h
  constructor
  · simp [splitHead, htext, hslash]
  · simp [splitHead, htext, hslash]

/-- Unless white space follows the slash, what follows it is the rest of the first word. -/
theorem splitHead_afterSlash {text rest : String} (h : afterSlash text = some rest)
    (hword : (splitHead text).1 ≠ "/") :
    (splitHead text).1 = "/" ++ (splitHead rest).1 ∧ (splitHead text).2 = (splitHead rest).2 := by
  obtain ⟨hfirst, hsecond⟩ := splitHead_of_slash h
  cases hrest : rest.toList with
  | nil =>
      rw [hfirst, hrest] at hword
      exact absurd rfl hword
  | cons c tail =>
      cases hc : isWhitespace c with
      | true =>
          rw [hfirst, hrest, List.takeWhile_cons, hc] at hword
          exact absurd rfl hword
      | false =>
          rw [hfirst, hsecond, hrest]
          constructor
          · apply String.toList_injective
            simp [splitHead, hrest, hc]
          · simp [splitHead, hrest, hc]

/-- The texts with a separator between them. -/
def joinWith (separator : String) : List String → String
  | [] => ""
  | [text] => text
  | text :: next :: texts => text ++ separator ++ joinWith separator (next :: texts)

theorem joinWith_cons (separator text : String) {texts : List String} (h : texts ≠ []) :
    joinWith separator (text :: texts) = text ++ separator ++ joinWith separator texts := by
  cases texts with
  | nil => exact absurd rfl h
  | cons next texts => rfl

/-- Replacing one of the texts changes the length as the lengths of the two differ. -/
theorem length_joinWith_replace (separator a b : String) (before after : List String) :
    (joinWith separator (before ++ a :: after)).length + b.length =
      (joinWith separator (before ++ b :: after)).length + a.length := by
  induction before with
  | nil =>
      rw [List.nil_append, List.nil_append]
      cases after with
      | nil =>
          rw [joinWith, joinWith]
          omega
      | cons next texts =>
          rw [joinWith, joinWith]
          simp only [String.length_append]
          omega
  | cons text before ih =>
      rw [List.cons_append, List.cons_append, joinWith_cons _ _ (by simp),
        joinWith_cons _ _ (by simp)]
      simp only [String.length_append]
      omega

/-- The word being read comes first. -/
theorem head_wordsFrom {word : List Char} (h : word ≠ []) (text : List Char) :
    (wordsFrom word text).head? =
      some (word.reverse ++ text.takeWhile fun c => !isWhitespace c) := by
  induction text generalizing word with
  | nil => simp [wordsFrom, h]
  | cons c text ih =>
      cases hc : isWhitespace c with
      | true => simp [wordsFrom, hc, h]
      | false => simp [wordsFrom, hc, ih (List.cons_ne_nil c word)]

/-- The first word of a text that starts with a slash, by either way of splitting. -/
theorem head_splitWhitespace {text rest : String} (h : afterSlash text = some rest) :
    (splitWhitespace text).head? = some (splitHead text).1 := by
  have hslash : isWhitespace '/' = false := by decide
  have htext := afterSlash_eq_some h
  obtain ⟨hfirst, -⟩ := splitHead_of_slash h
  rw [hfirst, splitWhitespace, htext]
  simp [wordsFrom, hslash, head_wordsFrom]

example : splitWhitespace "  /contact\tadd x" = ["/contact", "add", "x"] := by decide

end Foundation
