import Mathlib.Data.List.Basic
import Mathlib.Data.Nat.Notation

/-!
# Code units of UTF-16

A character of the basic plane is one unit, any other is a pair of surrogates. The units of a pair
are no units of characters of the basic plane.
-/

namespace Foundation

/-- The code units of a character. -/
def charUnits (c : Char) : List ℕ :=
  if c.toNat < 0x10000 then [c.toNat]
  else [0xD800 + (c.toNat - 0x10000) / 0x400, 0xDC00 + (c.toNat - 0x10000) % 0x400]

def codeUnits (chars : List Char) : List ℕ := chars.flatMap charUnits

@[simp] theorem codeUnits_nil : codeUnits [] = [] := rfl

@[simp] theorem codeUnits_cons (c : Char) (chars : List Char) :
    codeUnits (c :: chars) = charUnits c ++ codeUnits chars := rfl

theorem charUnits_of_lt {c : Char} (h : c.toNat < 0x10000) : charUnits c = [c.toNat] := if_pos h

/-- A character is one unit of the basic plane, or a pair of surrogates. -/
theorem charUnits_cases (c : Char) :
    charUnits c = [c.toNat] ∨
      ∃ high low, charUnits c = [high, low] ∧ 0xD800 ≤ high ∧ 0xD800 ≤ low ∧ 0x10000 ≤ c.toNat := by
  unfold charUnits
  split
  · exact .inl rfl
  next h => exact .inr ⟨_, _, rfl, Nat.le_add_right _ _, by omega, Nat.not_lt.mp h⟩

end Foundation
