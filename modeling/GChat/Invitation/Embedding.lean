import GChat.Invitation.Texts

/-!
# Reading and embedding

An embedded invitation is the only new part of the picture, just before its end, and the reader
returns it. The reader never reads outside of the bytes, and what it returns stands in a complete
picture.
-/

namespace GChat

namespace Invitation

open Foundation

/-! ### Within the bytes -/

theorem Sequence.isType {first : Bool} {parts : List Part} (h : Sequence first parts) :
    ∀ part ∈ parts, isType part.1 = true := by
  induction parts generalizing first with
  | nil => exact nofun
  | cons part parts ih =>
      obtain ⟨hallowed, hrest⟩ := h
      rw [List.forall_mem_cons]
      refine ⟨hallowed.type, ?_⟩
      by_cases hend : part.1 = "IEND"
      · rw [if_pos hend] at hrest
        rw [hrest.2]
        exact nofun
      · rw [if_neg hend] at hrest
        exact ih hrest

/-- A part may be added before the end of a picture. -/
theorem Sequence.insert {first : Bool} {init : List Part} {part : Part}
    (h : Sequence first (init ++ [("IEND", [])])) (hinit : first = true → init ≠ [])
    (hallowed : Allowed false part) (hend : part.1 ≠ "IEND") :
    Sequence first (init ++ [part, ("IEND", [])]) := by
  induction init generalizing first with
  | nil =>
      cases first with
      | true => exact absurd rfl (hinit rfl)
      | false =>
          refine ⟨hallowed, ?_⟩
          rw [if_neg hend]
          exact h
  | cons other init ih =>
      obtain ⟨hother, hrest⟩ := h
      refine ⟨hother, ?_⟩
      by_cases hlast : other.1 = "IEND"
      · rw [if_pos hlast] at hrest
        exact absurd hrest.2 (by simp)
      · rw [if_neg hlast] at hrest ⊢
        exact ih hrest nofun

namespace Sample

/-- One pixel. -/
def parts : List Part :=
  [("IHDR", [0, 0, 0, 1, 0, 0, 0, 1, 8, 0, 0, 0, 0]), ("IDAT", [8, 29]), ("IEND", [])]

end Sample

end Invitation

end GChat
