import Mathlib.Data.List.Dedup
import Mathlib.Data.List.DropRight
import Mathlib.Data.List.Perm.Subperm

/-!
# Bounded windows

The newest elements of a list are its `rtake`, which can be taken of a part at any time.

`park limit l x` adds an element that is not present at the back of `l` and
drops the one at the front when the bound is exceeded. An element just parked
stays until `limit` distinct others have come after it: `Parked` keeps the
elements behind it distinct and within a set of arrivals, and is preserved by
parking as long as that set is smaller than the bound.
-/

namespace Foundation

section Newest

variable {α β : Type*} (n : ℕ) (l k : List α)

theorem map_rtake (f : α → β) : (l.rtake n).map f = (l.map f).rtake n := by
  rw [List.rtake, List.rtake, List.map_drop, List.length_map]

theorem rtake_append_rtake : (l ++ k.rtake n).rtake n = (l ++ k).rtake n := by
  rw [List.rtake_eq_reverse_take_reverse, List.rtake_eq_reverse_take_reverse,
    List.rtake_eq_reverse_take_reverse, List.reverse_append, List.reverse_append,
    List.reverse_reverse, List.take_append, List.take_append, List.take_take, Nat.min_self,
    List.length_take]
  congr 3
  omega

theorem rtake_rtake_append : (l.rtake n ++ k).rtake n = (l ++ k).rtake n := by
  rw [List.rtake_eq_reverse_take_reverse, List.rtake_eq_reverse_take_reverse,
    List.rtake_eq_reverse_take_reverse, List.reverse_append, List.reverse_append,
    List.reverse_reverse, List.take_append, List.take_append, List.take_take,
    Nat.min_eq_left (Nat.sub_le _ _)]

end Newest

section Park

variable {α : Type*} [BEq α]

/-- Add an element not yet present, then drop the oldest beyond the bound. -/
def park (limit : ℕ) (l : List α) (x : α) : List α :=
  let l := if l.contains x then l else l ++ [x]
  if limit < l.length then l.tail else l

/-- `x` is in the window, and everything behind it came from `arrivals`. -/
def Parked (arrivals : List α) (x : α) (l : List α) : Prop :=
  ∃ older newer, l = older ++ x :: newer ∧ newer.Nodup ∧ newer ⊆ arrivals

omit [BEq α] in
theorem Parked.mem {arrivals : List α} {x : α} {l : List α} (h : Parked arrivals x l) :
    x ∈ l := by
  obtain ⟨older, newer, rfl, -⟩ := h
  exact List.mem_append_right older List.mem_cons_self

section Trim

variable [DecidableEq α]

omit [BEq α] in
theorem length_le_of_subset {newer arrivals : List α} (hnodup : newer.Nodup)
    (hsubset : newer ⊆ arrivals) : newer.length ≤ arrivals.dedup.length :=
  (List.subperm_of_subset hnodup fun _ hy => List.mem_dedup.mpr (hsubset hy)).length_le

omit [BEq α] in
/-- The elements behind `x` are fewer than the bound, so what is dropped stands
before `x`. -/
theorem parked_trim {limit : ℕ} {arrivals : List α} (hlt : arrivals.dedup.length < limit)
    {x : α} {l : List α} (h : Parked arrivals x l) :
    Parked arrivals x (if limit < l.length then l.tail else l) := by
  obtain ⟨older, newer, rfl, hnodup, hsubset⟩ := h
  split
  · rename_i hlong
    cases older with
    | nil =>
        have hlen := length_le_of_subset hnodup hsubset
        rw [List.nil_append, List.length_cons] at hlong
        omega
    | cons y older => exact ⟨older, newer, rfl, hnodup, hsubset⟩
  · exact ⟨older, newer, rfl, hnodup, hsubset⟩

variable [LawfulBEq α]

theorem Parked.park {limit : ℕ} {arrivals : List α} (hlt : arrivals.dedup.length < limit)
    {x y : α} {l : List α} (h : Parked arrivals x l) (hy : y = x ∨ y ∈ arrivals) :
    Parked arrivals x (park limit l y) := by
  refine parked_trim hlt ?_
  by_cases hmem : y ∈ l
  · rwa [if_pos (List.contains_iff_mem.mpr hmem)]
  · rw [if_neg fun hc => hmem (List.contains_iff_mem.mp hc)]
    have harrival : y ∈ arrivals := hy.resolve_left fun hyx => hmem (hyx ▸ h.mem)
    obtain ⟨older, newer, rfl, hnodup, hsubset⟩ := h
    refine ⟨older, newer ++ [y], by simp, ?_, ?_⟩
    · refine hnodup.append (List.nodup_singleton y) ?_
      rw [List.disjoint_singleton]
      exact fun hynewer => hmem (List.mem_append_right _ (List.mem_cons_of_mem x hynewer))
    · exact List.append_subset.mpr ⟨hsubset, by simpa using harrival⟩

/-- An element that was not present stands at the back once it is parked. -/
theorem parked_park_self {limit : ℕ} {arrivals : List α} (hlt : arrivals.dedup.length < limit)
    {x : α} {l : List α} (hx : x ∉ l) : Parked arrivals x (park limit l x) := by
  refine parked_trim hlt ⟨l, [], ?_, List.nodup_nil, List.nil_subset _⟩
  rw [if_neg fun hc => hx (List.contains_iff_mem.mp hc)]

end Trim

end Park

end Foundation
