import Mathlib.Data.List.Nodup

/-!
# Editing the first element that matches

`modifyFirst p f l` applies `f` to the first element of `l` that satisfies `p`
and leaves a list without such an element alone. It is the list reading of
looking an element up by a predicate and writing through the reference found.
The lemmas say where the edit happens, what it leaves in place, and how the
elements of the result arise.
-/

namespace Foundation

variable {α β : Type*}

/-- Apply `f` to the first element satisfying `p`. -/
def modifyFirst (p : α → Bool) (f : α → α) (l : List α) : List α :=
  l.modify (l.findIdx p) f

@[simp] theorem modifyFirst_nil (p : α → Bool) (f : α → α) :
    modifyFirst p f [] = [] := rfl

theorem modifyFirst_cons_pos {p : α → Bool} {f : α → α} {x : α} {l : List α}
    (h : p x = true) : modifyFirst p f (x :: l) = f x :: l := by
  simp [modifyFirst, List.findIdx_cons, h]

theorem modifyFirst_cons_neg {p : α → Bool} {f : α → α} {x : α} {l : List α}
    (h : p x = false) : modifyFirst p f (x :: l) = x :: modifyFirst p f l := by
  simp [modifyFirst, List.findIdx_cons, h]

@[simp] theorem length_modifyFirst (p : α → Bool) (f : α → α) (l : List α) :
    (modifyFirst p f l).length = l.length := by
  simp [modifyFirst]

theorem getElem?_modifyFirst (p : α → Bool) (f : α → α) (l : List α) (i : ℕ) :
    (modifyFirst p f l)[i]? =
      (fun x => if l.findIdx p = i then f x else x) <$> l[i]? := by
  rw [modifyFirst, List.getElem?_modify]

/-- The element an edit is applied to is the one a lookup returns. -/
theorem getElem?_findIdx (p : α → Bool) (l : List α) : l[l.findIdx p]? = l.find? p := by
  induction l with
  | nil => rfl
  | cons x l ih =>
      cases h : p x with
      | true => simp [List.findIdx_cons, h]
      | false => simp [List.findIdx_cons, h, ih]

theorem modifyFirst_of_find?_eq_none {p : α → Bool} {f : α → α} {l : List α}
    (h : l.find? p = none) : modifyFirst p f l = l := by
  induction l with
  | nil => rfl
  | cons x l ih =>
      have hx : p x = false := by
        simpa using List.find?_eq_none.mp h x List.mem_cons_self
      rw [List.find?_cons_of_neg (by simp [hx])] at h
      rw [modifyFirst_cons_neg hx, ih h]

/-- An edit that keeps an attribute keeps the list of attributes. -/
theorem map_modifyFirst_of_eq {p : α → Bool} {f : α → α} {g : α → β}
    (hg : ∀ x, g (f x) = g x) (l : List α) : (modifyFirst p f l).map g = l.map g := by
  induction l with
  | nil => rfl
  | cons x l ih =>
      cases h : p x with
      | true => rw [modifyFirst_cons_pos h, List.map_cons, List.map_cons, hg]
      | false => rw [modifyFirst_cons_neg h, List.map_cons, List.map_cons, ih]

/-- An edit commutes with a map that carries it. -/
theorem map_modifyFirst {p : α → Bool} {q : β → Bool} {g : α → β} (f : α → α) (f' : β → β)
    (hp : ∀ x, q (g x) = p x) (hf : ∀ x, g (f x) = f' (g x)) (l : List α) :
    (modifyFirst p f l).map g = modifyFirst q f' (l.map g) := by
  induction l with
  | nil => rfl
  | cons x l ih =>
      cases hx : p x with
      | true =>
          rw [modifyFirst_cons_pos hx, List.map_cons, List.map_cons,
            modifyFirst_cons_pos ((hp x).trans hx), hf]
      | false =>
          rw [modifyFirst_cons_neg hx, List.map_cons, List.map_cons,
            modifyFirst_cons_neg ((hp x).trans hx), ih]

/-- An element of the edited list is an old one or the edit of the one found. -/
theorem mem_modifyFirst {p : α → Bool} {f : α → α} {l : List α} {y : α}
    (h : y ∈ modifyFirst p f l) : y ∈ l ∨ ∃ x, l.find? p = some x ∧ y = f x := by
  induction l with
  | nil => simp at h
  | cons x l ih =>
      cases hx : p x with
      | true =>
          rw [modifyFirst_cons_pos hx, List.mem_cons] at h
          rcases h with rfl | h
          · exact Or.inr ⟨x, List.find?_cons_of_pos (by simp [hx]), rfl⟩
          · exact Or.inl (List.mem_cons_of_mem x h)
      | false =>
          rw [modifyFirst_cons_neg hx, List.mem_cons] at h
          rw [List.find?_cons_of_neg (by simp [hx])]
          rcases h with rfl | h
          · exact Or.inl List.mem_cons_self
          · exact (ih h).imp_left (List.mem_cons_of_mem x)

theorem exists_find?_of_mem {p : α → Bool} {l : List α} {x : α} (hx : x ∈ l) (h : p x = true) :
    ∃ y, l.find? p = some y ∧ p y = true := by
  obtain ⟨y, hy⟩ := Option.isSome_iff_exists.mp (List.find?_isSome.mpr ⟨x, hx, h⟩)
  exact ⟨y, hy, List.find?_some hy⟩

/-- The element found is edited. -/
theorem mem_modifyFirst_of_find? {p : α → Bool} {f : α → α} {l : List α} {x : α}
    (h : l.find? p = some x) : f x ∈ modifyFirst p f l := by
  refine List.mem_of_getElem? (i := l.findIdx p) ?_
  rw [getElem?_modifyFirst, getElem?_findIdx, h]
  simp

theorem modifyFirst_of_fixed {p : α → Bool} {f : α → α} {l : List α} {x : α}
    (h : l.find? p = some x) (hf : f x = x) : modifyFirst p f l = l := by
  induction l with
  | nil => rfl
  | cons y l ih =>
      cases hy : p y with
      | true =>
          rw [List.find?_cons_of_pos hy, Option.some.injEq] at h
          rw [modifyFirst_cons_pos hy, h, hf]
      | false =>
          rw [List.find?_cons_of_neg (by simp [hy])] at h
          rw [modifyFirst_cons_neg hy, ih h]

/-- The lookup finds the element it edited again. -/
theorem find?_modifyFirst {p : α → Bool} {f : α → α} (hp : ∀ x, p (f x) = p x) (l : List α) :
    (modifyFirst p f l).find? p = (l.find? p).map f := by
  induction l with
  | nil => rfl
  | cons y l ih =>
      cases hy : p y with
      | true =>
          rw [modifyFirst_cons_pos hy, List.find?_cons_of_pos hy,
            List.find?_cons_of_pos ((hp y).trans hy), Option.map_some]
      | false =>
          rw [modifyFirst_cons_neg hy, List.find?_cons_of_neg (by simp [hy]),
            List.find?_cons_of_neg (by simp [hy]), ih]

section Keyed

variable {κ : Type*} [DecidableEq κ] {key : α → κ} {f : α → α} {l : List α}

/-- With distinct keys the edit of a key is the edit of every element that has it. -/
theorem modifyFirst_key_eq_map (h : (l.map key).Nodup) (k : κ) :
    modifyFirst (fun x => key x == k) f l = l.map fun x => if key x = k then f x else x := by
  induction l with
  | nil => rfl
  | cons x l ih =>
      rw [List.map_cons, List.nodup_cons] at h
      by_cases hx : key x = k
      · have hrest : (l.map fun y => if key y = k then f y else y) = l := by
          refine (List.map_congr_left fun y hy => if_neg fun hyk => h.1 ?_).trans (List.map_id l)
          rw [hx, ← hyk]
          exact List.mem_map_of_mem hy
        rw [modifyFirst_cons_pos (by simp [hx]), List.map_cons, if_pos hx, hrest]
      · rw [modifyFirst_cons_neg (by simp [hx]), List.map_cons, if_neg hx, ih h.2]

/-- The elements after the edit of the key of `x`. -/
theorem mem_modifyFirst_key_iff (h : (l.map key).Nodup) {x y : α} (hx : x ∈ l) :
    y ∈ modifyFirst (fun z => key z == key x) f l ↔ (y ∈ l ∧ key y ≠ key x) ∨ y = f x := by
  rw [modifyFirst_key_eq_map h, List.mem_map]
  constructor
  · rintro ⟨z, hz, rfl⟩
    by_cases hzx : key z = key x
    · rw [if_pos hzx, List.inj_on_of_nodup_map h hz hx hzx]
      exact Or.inr rfl
    · rw [if_neg hzx]
      exact Or.inl ⟨hz, hzx⟩
  · rintro (⟨hy, hne⟩ | rfl)
    · exact ⟨y, hy, if_neg hne⟩
    · exact ⟨x, hx, if_pos rfl⟩

end Keyed

end Foundation
