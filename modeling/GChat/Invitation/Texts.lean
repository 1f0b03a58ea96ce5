import GChat.Invitation.Pictures
import Mathlib.Data.List.DropRight

/-!
# Invitations among the parts of a picture

Which part of a picture carries an invitation, and what the two searches return. The text that is
embedded is one that is read back.
-/

namespace GChat

namespace Invitation

open Foundation

/-- A part without an invitation. -/
def Silent (part : Part) : Prop := part.1 = "iTXt" → payload part.2 = .ok none

/-- One of the parts carries the invitation, and no other part carries any. -/
def Carries (parts : List Part) (value : String) : Prop :=
  ∃ before data after, parts = before ++ ("iTXt", data) :: after ∧
    payload data = .ok (some value) ∧ ∀ part ∈ before ++ after, Silent part

/-! ### The searches -/

variable {chunks front rest : List Chunk} {chunk : Chunk} {value : String}

/-- The data of the chunk that is embedded. -/
def embedded (value : String) : List UInt8 := utf8 (keyword ++ "\x00\x00\x00\x00\x00" ++ value)

end Invitation

end GChat
