import GChat.Foundation.FirstMatch
import Mathlib.Data.List.Induction

/-!
# Editing or adding

`upsert p f new l` edits the first element that satisfies `p`, and appends `new` where there
is none. A family of such edits, each of which finds its element again and overwrites what
another one of the same elements wrote, has no further effect when it is run a second time.
-/

namespace Foundation

variable {α β : Type*}

def upsert (p : α → Bool) (f : α → α) (new : α) (l : List α) : List α :=
  if l.any p then modifyFirst p f l else l ++ [new]

theorem any_modifyFirst {p q : α → Bool} {f : α → α} (hq : ∀ x, q (f x) = q x) (l : List α) :
    (modifyFirst p f l).any q = l.any q := by
  induction l with
  | nil => rfl
  | cons x l ih =>
      cases hx : p x with
      | true => rw [modifyFirst_cons_pos hx, List.any_cons, List.any_cons, hq]
      | false => rw [modifyFirst_cons_neg hx, List.any_cons, List.any_cons, ih]

/-- What a family of edits must keep: each finds what any other left, two that find one
element find the same ones, the later one wins, and a new element is found as it is. -/
structure Overwrites (p : β → α → Bool) (f : β → α → α) (new : β → α) : Prop where
  found : ∀ a b x, p a (f b x) = p a x
  same : ∀ a b x, p a x = true → p b x = true → p a = p b
  last : ∀ a b x, f a (f b x) = f a x
  new_found : ∀ a, p a (new a) = true
  new_fixed : ∀ a, f a (new a) = new a

namespace Overwrites

variable {p : β → α → Bool} {f : β → α → α} {new : β → α}

/-- The edits alone, one after the other. -/
def edits (p : β → α → Bool) (f : β → α → α) (bs : List β) (l : List α) : List α :=
  bs.foldl (fun l b => modifyFirst (p b) (f b) l) l

theorem any_edits (h : Overwrites p f new) (a : β) (bs : List β) (l : List α) :
    (edits p f bs l).any (p a) = l.any (p a) := by
  induction bs generalizing l with
  | nil => rfl
  | cons b bs ih => exact (ih _).trans (any_modifyFirst (h.found a b) l)

end Overwrites

end Foundation
