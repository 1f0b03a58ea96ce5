import Mathlib.Data.List.Basic

/-!
# Lossy UTF-8 decoding

`fromUtf8Lossy` reads bytes as UTF-8 and writes one replacement character for
each maximal ill-formed subsequence. It is a state machine over single bytes:
between characters, or inside one with its code so far, the number of
continuation bytes still due, and the range allowed for the next of them.
-/

namespace Foundation

inductive Utf8State where
  | start
  | inside (code remaining low high : ℕ)
deriving DecidableEq

def replacementChar : Char := Char.ofNat 0xFFFD

/-- What a byte emits and opens when no character is in progress. -/
def utf8Lead (b : ℕ) : List Char × Utf8State :=
  if b < 0x80 then ([Char.ofNat b], .start)
  else if 0xC2 ≤ b ∧ b ≤ 0xDF then ([], .inside (b - 0xC0) 1 0x80 0xBF)
  else if 0xE0 ≤ b ∧ b ≤ 0xEF then
    -- the first continuation byte excludes overlong forms and surrogates
    ([], .inside (b - 0xE0) 2 (if b = 0xE0 then 0xA0 else 0x80)
      (if b = 0xED then 0x9F else 0xBF))
  else if 0xF0 ≤ b ∧ b ≤ 0xF4 then
    ([], .inside (b - 0xF0) 3 (if b = 0xF0 then 0x90 else 0x80)
      (if b = 0xF4 then 0x8F else 0xBF))
  else ([replacementChar], .start)

def utf8Step : Utf8State → ℕ → List Char × Utf8State
  | .start, b => utf8Lead b
  | .inside code remaining low high, b =>
      if low ≤ b ∧ b ≤ high then
        let code := code * 64 + (b - 0x80)
        if remaining = 1 then ([Char.ofNat code], .start)
        else ([], .inside code (remaining - 1) 0x80 0xBF)
      else
        -- the unfinished prefix is one ill-formed subsequence; `b` starts over
        (replacementChar :: (utf8Lead b).1, (utf8Lead b).2)

def utf8Chars : Utf8State → List UInt8 → List Char
  | .start, [] => []
  | .inside .., [] => [replacementChar]
  | state, b :: bytes =>
      let (emitted, state) := utf8Step state b.toNat
      emitted ++ utf8Chars state bytes

/-- The text of a byte string, with ill-formed parts replaced. -/
def fromUtf8Lossy (bytes : List UInt8) : String := String.ofList (utf8Chars .start bytes)

example : fromUtf8Lossy [0x68, 0xC3, 0xA9, 0xE2, 0x82, 0x41] = "hé\uFFFDA" := by decide

end Foundation
