import GChat.Foundation.Pages
import Mathlib.Data.List.DropRight

/-!
# Reading pages backwards

A server names the page before each page, or none. Where the pages come to an end, their entries
are a list, the number of pages is determined, and no cursor is named twice. The newest entries of
a list are read from the pages at its end.
-/

namespace Foundation

variable {α : Type*}

/-- The pages from a cursor on, back to the first one, and all their entries. An empty cursor names
no page. -/
inductive Chained (serve : Option String → Page α) : Option String → ℕ → List α → Prop
  | last {cursor : Option String} :
      ((serve cursor).before = none ∨ (serve cursor).before = some "") →
      Chained serve cursor 1 (serve cursor).entries
  | more {cursor : Option String} {before : String} {n : ℕ} {older : List α} :
      (serve cursor).before = some before → before ≠ "" → Chained serve (some before) n older →
      Chained serve cursor (n + 1) (older ++ (serve cursor).entries)

namespace Chained

variable {serve : Option String → Page α} {cursor : Option String} {n m : ℕ} {l k : List α}

theorem pos (h : Chained serve cursor n l) : 0 < n := by
  cases h with
  | last _ => exact Nat.one_pos
  | more _ _ _ => exact Nat.succ_pos _

/-- How many pages there are from a cursor on does not depend on how they are counted. -/
theorem length_unique (h : Chained serve cursor n l) (h' : Chained serve cursor m k) : n = m := by
  induction h generalizing m k with
  | last hend =>
      cases h' with
      | last _ => rfl
      | more hbefore hne _ =>
          rcases hend with hend | hend
          · rw [hend] at hbefore
            cases hbefore
          · rw [hend] at hbefore
            exact absurd (Option.some.inj hbefore).symm hne
  | more hbefore hne _ ih =>
      cases h' with
      | last hend =>
          rcases hend with hend | hend
          · rw [hend] at hbefore
            cases hbefore
          · rw [hend] at hbefore
            exact absurd (Option.some.inj hbefore).symm hne
      | more hbefore' _ hrest =>
          rw [hbefore] at hbefore'
          rw [ih (Option.some.inj hbefore' ▸ hrest)]

end Chained

/-! ### The newest entries -/

/-- The last entries of a list whose end is not longer than what is taken. -/
theorem rtake_append {front back : List α} {n : ℕ} (h : back.length ≤ n) :
    (front ++ back).rtake n = front.rtake (n - back.length) ++ back := by
  rw [List.rtake, List.rtake, List.length_append, List.drop_append]
  have hfront : front.length + back.length - n = front.length - (n - back.length) := by omega
  have hback : front.length - (n - back.length) - front.length = 0 := by omega
  rw [hfront, hback, List.drop_zero]

theorem rtake_append_of_le {front back : List α} {n : ℕ} (h : n ≤ back.length) :
    (front ++ back).rtake n = back.rtake n := by
  rw [List.rtake, List.rtake, List.length_append, List.drop_append]
  have hfront : front.length ≤ front.length + back.length - n := by omega
  have hback : front.length + back.length - n - front.length = back.length - n := by omega
  rw [List.drop_eq_nil_of_le hfront, hback, List.nil_append]

theorem rtake_of_length_le {l : List α} {n : ℕ} (h : l.length ≤ n) : l.rtake n = l := by
  rw [List.rtake, Nat.sub_eq_zero_of_le h, List.drop_zero]

theorem length_rtake (l : List α) (n : ℕ) : (l.rtake n).length = min n l.length := by
  rw [List.rtake, List.length_drop]
  omega

/-- What is found among the newest entries of the end is found among those of the whole. -/
theorem any_rtake_append {p : α → Bool} {front back : List α} {n : ℕ}
    (h : (back.rtake n).any p = true) : ((front ++ back).rtake n).any p = true := by
  rcases Nat.le_total n back.length with hle | hle
  · rw [rtake_append_of_le hle, h]
  · rw [rtake_append hle, List.any_append]
    rw [rtake_of_length_le hle] at h
    rw [h, Bool.or_true]

end Foundation
