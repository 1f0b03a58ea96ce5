import Mathlib.Algebra.BigOperators.Group.List.Basic
import Mathlib.Algebra.GroupWithZero.Nat
import Mathlib.Data.String.Basic

/-!
# Byte positions between characters

A text is sliced at a byte position. `splitAtByte` has a value only at the positions between two
characters, and these are the sizes of the fronts of the text.
-/

namespace Foundation

/-- The bytes of the characters in UTF-8. -/
def byteSize (chars : List Char) : ℕ := (chars.map Char.utf8Size).sum

/-- The text before a byte position and behind it. There is none inside a character. -/
def splitAtByte : List Char → ℕ → Option (List Char × List Char)
  | chars, 0 => some ([], chars)
  | [], _ + 1 => none
  | c :: chars, n + 1 =>
      if c.utf8Size ≤ n + 1 then
        (splitAtByte chars (n + 1 - c.utf8Size)).map fun pieces => (c :: pieces.1, pieces.2)
      else none

@[simp] theorem byteSize_nil : byteSize [] = 0 := rfl

@[simp] theorem byteSize_cons (c : Char) (chars : List Char) :
    byteSize (c :: chars) = c.utf8Size + byteSize chars := by
  rw [byteSize, List.map_cons, List.sum_cons, ← byteSize]

theorem byteSize_append (front back : List Char) :
    byteSize (front ++ back) = byteSize front + byteSize back := by
  rw [byteSize, List.map_append, List.sum_append, ← byteSize, ← byteSize]

theorem length_le_byteSize (chars : List Char) : chars.length ≤ byteSize chars := by
  induction chars with
  | nil => exact le_rfl
  | cons c chars ih =>
      have hpos := c.utf8Size_pos
      rw [byteSize_cons, List.length_cons]
      omega

/-- A text is split behind any of its fronts. -/
@[simp] theorem splitAtByte_append (front back : List Char) :
    splitAtByte (front ++ back) (byteSize front) = some (front, back) := by
  induction front with
  | nil =>
      cases back with
      | nil => rfl
      | cons c back => rfl
  | cons c front ih =>
      obtain ⟨n, hn⟩ : ∃ n, c.utf8Size + byteSize front = n + 1 :=
        Nat.exists_eq_add_of_lt (Nat.add_pos_left c.utf8Size_pos (byteSize front)) |>.imp
          fun n hn => by omega
      rw [byteSize_cons, List.cons_append, hn, splitAtByte, if_pos (by omega), ← hn,
        Nat.add_sub_cancel_left, ih, Option.map_some]

end Foundation
