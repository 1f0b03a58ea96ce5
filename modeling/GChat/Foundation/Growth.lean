import GChat.Foundation.FirstMatch

/-!
# Lists that grow in place

`Extends R l l'` says that every element of `l` is still at its position in
`l'`, changed at most as `R` allows, while new elements stand behind. With a
reflexive and transitive `R` it is a preorder, and appending, mapping and
editing the first match are all steps of it. It is the frame condition of a
store whose records are edited and added but never moved or removed.
-/

namespace Foundation

variable {α : Type*} {R S : α → α → Prop} {l l' l'' : List α}

/-- Each element of `l` stands at its position in `l'` up to `R`. -/
def Extends (R : α → α → Prop) (l l' : List α) : Prop :=
  ∀ (i : ℕ) (x : α), l[i]? = some x → ∃ y, l'[i]? = some y ∧ R x y

theorem Extends.refl (hR : ∀ x, R x x) (l : List α) : Extends R l l :=
  fun _ x hx => ⟨x, hx, hR x⟩

theorem Extends.trans (hR : ∀ x y z, R x y → R y z → R x z) (h : Extends R l l')
    (h' : Extends R l' l'') : Extends R l l'' := by
  intro i x hx
  obtain ⟨y, hy, hxy⟩ := h i x hx
  obtain ⟨z, hz, hyz⟩ := h' i y hy
  exact ⟨z, hz, hR x y z hxy hyz⟩

theorem Extends.mono (hRS : ∀ x y, R x y → S x y) (h : Extends R l l') : Extends S l l' := by
  intro i x hx
  obtain ⟨y, hy, hxy⟩ := h i x hx
  exact ⟨y, hy, hRS x y hxy⟩

theorem Extends.append (h : Extends R l l') (tail : List α) : Extends R l (l' ++ tail) := by
  intro i x hx
  obtain ⟨y, hy, hxy⟩ := h i x hx
  have hi : i < l'.length := (List.getElem?_eq_some_iff.mp hy).1
  exact ⟨y, by rw [List.getElem?_append_left hi, hy], hxy⟩

theorem extends_map {f : α → α} (h : ∀ x, R x (f x)) (l : List α) : Extends R l (l.map f) := by
  intro i x hx
  exact ⟨f x, by rw [List.getElem?_map, hx, Option.map_some], h x⟩

theorem extends_modifyFirst (hR : ∀ x, R x x) {p : α → Bool} {f : α → α}
    (h : ∀ x, R x (f x)) (l : List α) : Extends R l (modifyFirst p f l) := by
  intro i x hx
  rw [getElem?_modifyFirst, hx]
  refine ⟨_, rfl, ?_⟩
  split
  · exact h x
  · exact hR x

theorem extends_prefix (hR : ∀ x, R x x) (h : l <+: l') : Extends R l l' := by
  obtain ⟨tail, rfl⟩ := h
  exact (Extends.refl hR l).append tail

/-- An element survives, up to `R`, somewhere in the grown list. -/
theorem Extends.mem (h : Extends R l l') {x : α} (hx : x ∈ l) : ∃ y ∈ l', R x y := by
  obtain ⟨i, hi⟩ := List.mem_iff_getElem?.mp hx
  obtain ⟨y, hy, hxy⟩ := h i x hi
  exact ⟨y, List.mem_of_getElem? hy, hxy⟩

/-- An attribute no element changed can be added to the relation. -/
theorem Extends.and_map {β : Type*} {g : α → β} (h : Extends R l l')
    (hg : l'.map g = l.map g) : Extends (fun x y => g y = g x ∧ R x y) l l' := by
  intro i x hx
  obtain ⟨y, hy, hxy⟩ := h i x hx
  have hat := congrArg (·[i]?) hg
  simp only [List.getElem?_map, hx, hy, Option.map_some, Option.some.injEq] at hat
  exact ⟨y, hy, hat, hxy⟩

/-- What no element changed is what it was, on the old elements. -/
theorem Extends.map_take {β : Type*} {g : α → β} (h : Extends R l l')
    (hg : ∀ x y, R x y → g y = g x) : (l'.take l.length).map g = l.map g := by
  apply List.ext_getElem?
  intro i
  rw [List.getElem?_map, List.getElem?_map]
  by_cases hi : i < l.length
  · obtain ⟨y, hy, hxy⟩ := h i l[i] (List.getElem?_eq_getElem hi)
    rw [List.getElem?_take_of_lt hi, hy, List.getElem?_eq_getElem hi, Option.map_some,
      Option.map_some, hg _ _ hxy]
  · rw [List.getElem?_eq_none (by simp; omega), List.getElem?_eq_none (by omega)]

/-- A list that grows in place only behind its old elements, seen through a test the
growth does not change, has the old first match. -/
theorem Extends.find? {p : α → Bool} (h : Extends R l l') (hp : ∀ x y, R x y → p y = p x)
    {x : α} (hx : l.find? p = some x) : ∃ y, l'.find? p = some y ∧ R x y := by
  induction l generalizing l' with
  | nil => cases hx
  | cons a l ih =>
      obtain ⟨b, hb, hab⟩ := h 0 a rfl
      cases l' with
      | nil => cases hb
      | cons b' l' =>
          cases hb
          have htail : Extends R l l' := fun i z hz => h (i + 1) z hz
          cases ha : p a with
          | true =>
              rw [List.find?_cons_of_pos ha, Option.some.injEq] at hx
              subst hx
              exact ⟨b, List.find?_cons_of_pos ((hp a b hab).trans ha), hab⟩
          | false =>
              rw [List.find?_cons_of_neg (by simp [ha])] at hx
              rw [List.find?_cons_of_neg (by simp [hp a b hab, ha])]
              exact ih htail hx

end Foundation
