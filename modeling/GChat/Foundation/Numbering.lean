import Mathlib.Data.List.Basic

/-!
# Numbers that are saved before they are used

Under each key numbers are saved and used. What has happened is a list, newest first. The numbers
are fresh where each use is above all uses before it under its key, and follows a save of the same
number there.
-/

namespace Foundation

inductive Numbering (κ : Type*) where
  | saved (key : κ) (number : ℕ)
  | used (key : κ) (number : ℕ)

namespace Numbering

variable {κ : Type*} {past : List (Numbering κ)} {k l : κ} {m n : ℕ}

/-- All numbers used under a key are below `n`. -/
def Below (past : List (Numbering κ)) (k : κ) (n : ℕ) : Prop :=
  ∀ m, used k m ∈ past → m < n

/-- Each use is above the earlier ones under its key, and of a number saved there before. -/
def Fresh : List (Numbering κ) → Prop
  | [] => True
  | used k n :: past => Below past k n ∧ saved k n ∈ past ∧ Fresh past
  | saved _ _ :: past => Fresh past

theorem Below.mono (h : Below past k n) (hle : n ≤ m) : Below past k m :=
  fun i hi => Nat.lt_of_lt_of_le (h i hi) hle

@[simp] theorem below_saved : Below (saved l m :: past) k n ↔ Below past k n := by
  simp [Below]

theorem Below.used (h : Below past k n) (hlt : l = k → m < n) : Below (used l m :: past) k n := by
  intro i hi
  rcases List.mem_cons.mp hi with heq | hi
  · cases heq
    exact hlt rfl
  · exact h i hi

end Numbering

end Foundation
