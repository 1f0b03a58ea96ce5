import Mathlib.Data.List.Basic
import Mathlib.Order.Defs.LinearOrder
import Mathlib.Order.Lattice

/-!
# Stable sorting by a key

A list that is sorted by a key is determined by its parts of one key each, and a stable
sort keeps these parts. So two lists with the same parts are sorted to the same list,
whatever the order in which entries of different keys come.
-/

namespace Foundation

variable {α κ : Type*} [LinearOrder κ] {key : α → κ}

/-- Sort by a key; entries of one key keep their order. -/
def sortBy (key : α → κ) (l : List α) : List α := l.mergeSort fun a b => key a ≤ key b

/-- The entries of one key. -/
def part (key : α → κ) (k : κ) (l : List α) : List α := l.filter fun a => key a = k

theorem part_cons_self (a : α) (l : List α) : part key (key a) (a :: l) = a :: part key (key a) l := by
  simp [part]

theorem part_cons_of_ne {a : α} {k : κ} (h : key a ≠ k) (l : List α) :
    part key k (a :: l) = part key k l := by
  simp [part, h]

theorem part_append (k : κ) (l l' : List α) :
    part key k (l ++ l') = part key k l ++ part key k l' := by
  simp [part]

theorem part_filter (k : κ) (p : α → Bool) (l : List α) :
    part key k (l.filter p) = (part key k l).filter p := by
  simp [part, List.filter_filter, Bool.and_comm]

theorem sortBy_perm (key : α → κ) (l : List α) : (sortBy key l).Perm l := List.mergeSort_perm l _

/-- The comparison of a sort is transitive and total. -/
theorem le_trans_key (a b c : α) (hab : decide (key a ≤ key b) = true)
    (hbc : decide (key b ≤ key c) = true) : decide (key a ≤ key c) = true := by
  simp only [decide_eq_true_eq] at hab hbc ⊢
  exact le_trans hab hbc

theorem le_total_key (a b : α) :
    (decide (key a ≤ key b) || decide (key b ≤ key a)) = true := by
  simp only [Bool.or_eq_true, decide_eq_true_eq]
  exact le_total (key a) (key b)

theorem pairwise_sortBy (key : α → κ) (l : List α) :
    (sortBy key l).Pairwise fun a b => key a ≤ key b := by
  have hsorted : (sortBy key l).Pairwise fun a b => decide (key a ≤ key b) = true :=
    List.pairwise_mergeSort le_trans_key le_total_key l
  exact hsorted.imp fun h => of_decide_eq_true h

theorem pairwise_part (k : κ) (l : List α) :
    (part key k l).Pairwise fun a b => decide (key a ≤ key b) = true := by
  rw [List.pairwise_iff_forall_sublist]
  intro a b hab
  have ha := (List.mem_filter.mp (hab.subset List.mem_cons_self)).2
  have hb := (List.mem_filter.mp (hab.subset (List.mem_cons_of_mem a List.mem_cons_self))).2
  simp only [decide_eq_true_eq] at ha hb ⊢
  rw [ha, hb]

/-- A stable sort keeps the entries of one key in their order. -/
theorem part_sortBy (k : κ) (l : List α) : part key k (sortBy key l) = part key k l := by
  have hsub : (part key k l).Sublist (sortBy key l) :=
    List.sublist_mergeSort le_trans_key le_total_key (pairwise_part k l) List.filter_sublist
  have hpart : (part key k l).Sublist (part key k (sortBy key l)) := by
    have hfilter := hsub.filter fun a => decide (key a = k)
    simpa [part, List.filter_filter] using hfilter
  have hlength : (part key k l).length = (part key k (sortBy key l)).length :=
    ((sortBy_perm key l).filter _).length_eq.symm
  exact (hpart.eq_of_length hlength).symm

theorem mem_of_part {a : α} {l l' : List α} (h : ∀ k, part key k l = part key k l')
    (ha : a ∈ l) : a ∈ l' := by
  have hpart : a ∈ part key (key a) l := List.mem_filter.mpr ⟨ha, by simp⟩
  rw [h] at hpart
  exact (List.mem_filter.mp hpart).1

theorem key_head_le {a b : α} {l : List α} (hl : (a :: l).Pairwise fun a b => key a ≤ key b)
    (hb : b ∈ a :: l) : key a ≤ key b := by
  obtain rfl | hb := List.mem_cons.mp hb
  · exact le_refl _
  · exact (List.pairwise_cons.mp hl).1 b hb

/-- Sorted lists with the same parts are the same. -/
theorem eq_of_part {l l' : List α} (hl : l.Pairwise fun a b => key a ≤ key b)
    (hl' : l'.Pairwise fun a b => key a ≤ key b) (h : ∀ k, part key k l = part key k l') :
    l = l' := by
  induction l generalizing l' with
  | nil =>
      cases l' with
      | nil => rfl
      | cons b l' =>
          have hpart := h (key b)
          rw [part_cons_self] at hpart
          cases hpart
  | cons a l ih =>
      cases l' with
      | nil =>
          have hpart := h (key a)
          rw [part_cons_self] at hpart
          cases hpart
      | cons b l' =>
          have hkey : key a = key b := le_antisymm
            (key_head_le hl (mem_of_part (fun k => (h k).symm) List.mem_cons_self))
            (key_head_le hl' (mem_of_part h List.mem_cons_self))
          have hpart := h (key a)
          rw [part_cons_self, hkey, part_cons_self] at hpart
          obtain ⟨rfl, -⟩ := List.cons.inj hpart
          rw [ih hl.of_cons hl'.of_cons]
          intro k
          by_cases hk : key a = k
          · subst hk
            have htail := h (key a)
            rw [part_cons_self, part_cons_self] at htail
            exact (List.cons.inj htail).2
          · have htail := h k
            rwa [part_cons_of_ne hk, part_cons_of_ne hk] at htail

theorem sortBy_congr {l l' : List α} (h : ∀ k, part key k l = part key k l') :
    sortBy key l = sortBy key l' := by
  apply eq_of_part (pairwise_sortBy key l) (pairwise_sortBy key l')
  intro k
  rw [part_sortBy, part_sortBy, h k]

theorem sortBy_of_pairwise {l : List α} (h : l.Pairwise fun a b => key a ≤ key b) :
    sortBy key l = l :=
  eq_of_part (pairwise_sortBy key l) h fun k => part_sortBy k l

theorem filter_sortBy (key : α → κ) (p : α → Bool) (l : List α) :
    (sortBy key l).filter p = sortBy key (l.filter p) := by
  apply eq_of_part ((pairwise_sortBy key l).filter p) (pairwise_sortBy key _)
  intro k
  rw [part_filter, part_sortBy, part_sortBy, part_filter]

theorem sortBy_append_sortBy (key : α → κ) (l l' : List α) :
    sortBy key (sortBy key l ++ sortBy key l') = sortBy key (l ++ l') := by
  apply sortBy_congr
  intro k
  rw [part_append, part_append, part_sortBy, part_sortBy]

end Foundation
