import GChat.Foundation.Bytes
import Mathlib.Data.List.Basic
import Mathlib.Data.String.Basic
import Mathlib.Tactic.IntervalCases

/-!
# Texts in JSON

How a text is written between quotes, and how such a text is read back. The writer escapes quotes,
backslashes and control characters; the reader takes every escape, surrogate pairs included.
-/

namespace Foundation

namespace JsonText

/-! ### Writing -/

def escapeControl : ℕ → List Char
  | 8 => ['\\', 'b']
  | 9 => ['\\', 't']
  | 10 => ['\\', 'n']
  | 12 => ['\\', 'f']
  | 13 => ['\\', 'r']
  | n => ['\\', 'u', '0', '0', hexDigit (n / 16), hexDigit (n % 16)]

def escapeChar (c : Char) : List Char :=
  if c = '"' then ['\\', '"']
  else if c = '\\' then ['\\', '\\']
  else if c.toNat < 32 then escapeControl c.toNat
  else [c]

def quote (text : String) : List Char := '"' :: (text.toList.flatMap escapeChar ++ ['"'])

/-! ### Reading -/

def hexValue (c : Char) : Option ℕ :=
  if 48 ≤ c.toNat ∧ c.toNat ≤ 57 then some (c.toNat - 48)
  else if 97 ≤ c.toNat ∧ c.toNat ≤ 102 then some (c.toNat - 87)
  else if 65 ≤ c.toNat ∧ c.toNat ≤ 70 then some (c.toNat - 55)
  else none

def hexNumber (a b c d : Char) : Option ℕ := do
  some (((← hexValue a) * 16 + (← hexValue b)) * 256 + ((← hexValue c) * 16 + (← hexValue d)))

/-- The escapes of one character. -/
def simpleEscape : Char → Option Char
  | '"' => some '"'
  | '\\' => some '\\'
  | '/' => some '/'
  | 'b' => some (Char.ofNat 8)
  | 'f' => some (Char.ofNat 12)
  | 'n' => some (Char.ofNat 10)
  | 'r' => some (Char.ofNat 13)
  | 't' => some (Char.ofNat 9)
  | _ => none

/-- The character of a surrogate pair. -/
def pairChar (high low : ℕ) : Option Char :=
  if 0xDC00 ≤ low ∧ low < 0xE000 then
    some (Char.ofNat (0x10000 + (high - 0xD800) * 0x400 + (low - 0xDC00)))
  else none

def push (c : Char) (result : List Char × List Char) : List Char × List Char :=
  (c :: result.1, result.2)

/-- The characters up to the closing quote, and what follows it. -/
def readQuoted : List Char → Option (List Char × List Char)
  | [] => none
  | c :: rest =>
      if c = '"' then some ([], rest)
      else if c.toNat < 32 then none
      else if c ≠ '\\' then (readQuoted rest).map (push c)
      else
        match rest with
        | [] => none
        | e :: rest =>
            match simpleEscape e with
            | some c => (readQuoted rest).map (push c)
            | none =>
                if e ≠ 'u' then none
                else
                  match rest with
                  | a :: b :: c :: d :: rest =>
                      match hexNumber a b c d with
                      | none => none
                      | some n =>
                          if n < 0xD800 ∨ 0xE000 ≤ n then
                            (readQuoted rest).map (push (Char.ofNat n))
                          else if 0xDC00 ≤ n then none
                          else
                            match rest with
                            | '\\' :: 'u' :: a :: b :: c :: d :: rest =>
                                match (hexNumber a b c d).bind (pairChar n) with
                                | none => none
                                | some c => (readQuoted rest).map (push c)
                            | _ => none
                  | _ => none
termination_by structural chars => chars

/-- A quoted text at the front, and what follows it. -/
def readString : List Char → Option (String × List Char)
  | '"' :: rest => (readQuoted rest).map fun result => (String.ofList result.1, result.2)
  | _ => none

/-! ### What is written is read -/

theorem readQuoted_simple {e c : Char} (h : simpleEscape e = some c) (rest : List Char) :
    readQuoted ('\\' :: e :: rest) = (readQuoted rest).map (push c) := by
  rw [readQuoted.eq_def]
  simp [h]

theorem readQuoted_unicode {a b c d : Char} {n : ℕ} (h : hexNumber a b c d = some n)
    (hn : n < 0xD800) (rest : List Char) :
    readQuoted ('\\' :: 'u' :: a :: b :: c :: d :: rest) =
      (readQuoted rest).map (push (Char.ofNat n)) := by
  rw [readQuoted.eq_def]
  simp [h, hn, simpleEscape]

theorem readQuoted_plain {c : Char} (hquote : c ≠ '"') (hslash : c ≠ '\\')
    (hcontrol : ¬ c.toNat < 32) (rest : List Char) :
    readQuoted (c :: rest) = (readQuoted rest).map (push c) := by
  rw [readQuoted.eq_def]
  simp [hquote, hslash, hcontrol]

theorem readQuoted_control {n : ℕ} (hn : n < 32) (rest : List Char) :
    readQuoted (escapeControl n ++ rest) = (readQuoted rest).map (push (Char.ofNat n)) := by
  interval_cases n <;>
    first
    | exact readQuoted_simple rfl rest
    | exact readQuoted_unicode rfl (by decide) rest

theorem readQuoted_escapeChar (c : Char) (rest : List Char) :
    readQuoted (escapeChar c ++ rest) = (readQuoted rest).map (push c) := by
  unfold escapeChar
  by_cases hquote : c = '"'
  · rw [if_pos hquote, hquote]
    exact readQuoted_simple rfl rest
  by_cases hslash : c = '\\'
  · rw [if_neg hquote, if_pos hslash, hslash]
    exact readQuoted_simple rfl rest
  by_cases hcontrol : c.toNat < 32
  · rw [if_neg hquote, if_neg hslash, if_pos hcontrol, readQuoted_control hcontrol,
      Char.ofNat_toNat]
  · rw [if_neg hquote, if_neg hslash, if_neg hcontrol, List.singleton_append,
      readQuoted_plain hquote hslash hcontrol]

theorem readQuoted_flatMap (chars rest : List Char) :
    readQuoted (chars.flatMap escapeChar ++ '"' :: rest) = some (chars, rest) := by
  induction chars with
  | nil =>
      rw [List.flatMap_nil, List.nil_append, readQuoted.eq_def]
      exact if_pos rfl
  | cons c chars ih =>
      rw [List.flatMap_cons, List.append_assoc, readQuoted_escapeChar, ih]
      rfl

@[simp]
theorem readString_quote (text : String) (rest : List Char) :
    readString (quote text ++ rest) = some (text, rest) := by
  rw [quote, List.cons_append, List.append_assoc, readString, List.singleton_append,
    readQuoted_flatMap, Option.map_some, String.ofList_toList]

/-- A quoted text is followed by what follows it in one way only. -/
theorem quote_append_inj {s t : String} {rest rest' : List Char}
    (h : quote s ++ rest = quote t ++ rest') : s = t ∧ rest = rest' := by
  have hread := readString_quote s rest
  rw [h, readString_quote] at hread
  injection hread with hread
  injection hread with htext hrest
  exact ⟨htext.symm, hrest.symm⟩

/-! ### Lists of texts -/

/-- The list of the texts, as it is written without spaces. -/
def stringify (texts : List String) : String :=
  String.ofList ('[' :: ((texts.map quote).intersperse [',']).flatten ++ [']'])

theorem stringify_three_inj {a b c a' b' c' : String}
    (h : stringify [a, b, c] = stringify [a', b', c']) : a = a' ∧ b = b' ∧ c = c' := by
  have hchars := String.ofList_injective h
  simp only [List.map_cons, List.map_nil, List.intersperse_cons_cons, List.intersperse_singleton,
    List.flatten_cons, List.flatten_nil, List.append_nil, List.cons_append, List.nil_append,
    List.append_assoc, List.cons.injEq, true_and] at hchars
  obtain ⟨ha, hchars⟩ := quote_append_inj hchars
  injection hchars with _ hchars
  obtain ⟨hb, hchars⟩ := quote_append_inj hchars
  injection hchars with _ hchars
  exact ⟨ha, hb, (quote_append_inj hchars).1⟩

end JsonText

end Foundation
