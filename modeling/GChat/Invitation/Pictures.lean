import GChat.Invitation.Card
import Mathlib.Data.List.Basic

/-!
# Pictures as sequences of parts

The reader accepts exactly the bytes that are the signature and then the parts of a picture, each
written with its length and checksum. What it returns are these parts with their places.
-/

namespace GChat

namespace Invitation

open Foundation

/-- The type of a chunk, and its data. -/
abbrev Part := String × List UInt8

def Part.bytes (part : Part) : List UInt8 := encodeChunk part.1 part.2

def Chunk.part (chunk : Chunk) : Part := (chunk.type, chunk.data)

/-- What a chunk may be, at the beginning of a picture or later. -/
structure Allowed (first : Bool) (part : Part) : Prop where
  type : isType part.1 = true
  length : part.2.length < 2 ^ 32
  header : first = true → part.1 = "IHDR" ∧ part.2.length = 13 ∧
    fromBigEndian (part.2.take 4) ≠ 0 ∧ fromBigEndian ((part.2.drop 4).take 4) ≠ 0 ∧
    fromBigEndian (part.2.take 4) * fromBigEndian ((part.2.drop 4).take 4) ≤ 4 * 1024 * 1024
  other : first = false → part.1 ≠ "IHDR"
  still : part.1 ≠ "acTL"

/-- The parts end with the first empty end chunk. -/
def Sequence (first : Bool) : List Part → Prop
  | [] => False
  | part :: parts => Allowed first part ∧
      if part.1 = "IEND" then part.2 = [] ∧ parts = [] else Sequence false parts

/-- The chunks of the parts, from a place on. -/
def place (offset : ℕ) : List Part → List Chunk
  | [] => []
  | part :: parts =>
      ⟨offset, offset + 12 + part.2.length, part.1, part.2⟩ ::
        place (offset + 12 + part.2.length) parts

end Invitation

end GChat
