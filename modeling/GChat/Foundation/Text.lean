import Mathlib.Data.Nat.Notation
import Mathlib.Data.String.Basic

/-!
# Character classes of text

The Unicode classes and the ASCII-insensitive comparison the checks on names
and messages use. Lengths of text are in bytes of its UTF-8 form.
-/

namespace Foundation

/-- The control characters, general category Cc. -/
def isControl (c : Char) : Bool :=
  c.toNat < 32 || (127 ≤ c.toNat && c.toNat < 160)

/-- The characters with the property White_Space. -/
def isWhitespace (c : Char) : Bool :=
  (9 ≤ c.toNat && c.toNat ≤ 13) || c.toNat == 0x20 || c.toNat == 0x85 || c.toNat == 0xA0 ||
    c.toNat == 0x1680 || (0x2000 ≤ c.toNat && c.toNat ≤ 0x200A) || c.toNat == 0x2028 ||
    c.toNat == 0x2029 || c.toNat == 0x202F || c.toNat == 0x205F || c.toNat == 0x3000

/-- The white space and line ends of the web, which trimming removes. -/
def isSpace (c : Char) : Bool :=
  (9 ≤ c.toNat && c.toNat ≤ 13) || c.toNat == 0x20 || c.toNat == 0xA0 || c.toNat == 0x1680 ||
    (0x2000 ≤ c.toNat && c.toNat ≤ 0x200A) || c.toNat == 0x2028 || c.toNat == 0x2029 ||
    c.toNat == 0x202F || c.toNat == 0x205F || c.toNat == 0x3000 || c.toNat == 0xFEFF

def isAscii (c : Char) : Bool := c.toNat < 128

def toAsciiLower (c : Char) : Char :=
  if 65 ≤ c.toNat && c.toNat ≤ 90 then Char.ofNat (c.toNat + 32) else c

def eqIgnoreAsciiCase (s t : String) : Bool :=
  s.toList.map toAsciiLower == t.toList.map toAsciiLower

/-- Remove every leading repetition of a prefix; `n` bounds the repetitions. -/
def trimStart (p : List Char) : ℕ → List Char → List Char
  | 0, s => s
  | n + 1, s => if !p.isEmpty && p.isPrefixOf s then trimStart p n (s.drop p.length) else s

def trimStartMatches (s p : String) : String :=
  String.ofList (trimStart p.toList s.toList.length s.toList)

example : trimStartMatches "aab" "a" = "b" := by decide

end Foundation
