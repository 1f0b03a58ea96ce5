import Mathlib.Data.List.Forall2

/-!
# Lists side by side

Two lists that are made from one list are related element by element exactly if the elements
they make are, also where an element makes several, as many on both sides.
-/

namespace Foundation

variable {α β γ : Type*} {R : α → β → Prop}

theorem forall₂_map_iff (l : List γ) (f : γ → α) (g : γ → β) :
    List.Forall₂ R (l.map f) (l.map g) ↔ ∀ x ∈ l, R (f x) (g x) := by
  rw [List.forall₂_map_left_iff, List.forall₂_map_right_iff, List.forall₂_same]

theorem forall₂_append_iff {l k : List α} {l' k' : List β} (h : l.length = l'.length) :
    List.Forall₂ R (l ++ k) (l' ++ k') ↔ List.Forall₂ R l l' ∧ List.Forall₂ R k k' := by
  induction l generalizing l' with
  | nil =>
      cases List.length_eq_zero_iff.mp h.symm
      simp
  | cons x l ih =>
      cases l' with
      | nil => cases h
      | cons y l' =>
          simp only [List.cons_append, List.forall₂_cons, ih (Nat.succ.inj h), and_assoc]

theorem forall₂_flatMap_iff (l : List γ) (f : γ → List α) (g : γ → List β)
    (h : ∀ x ∈ l, (f x).length = (g x).length) :
    List.Forall₂ R (l.flatMap f) (l.flatMap g) ↔ ∀ x ∈ l, List.Forall₂ R (f x) (g x) := by
  induction l with
  | nil => simp
  | cons x l ih =>
      obtain ⟨hx, hl⟩ := List.forall_mem_cons.mp h
      rw [List.flatMap_cons, List.flatMap_cons, forall₂_append_iff hx, ih hl,
        List.forall_mem_cons]

end Foundation
