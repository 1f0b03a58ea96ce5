import GChat.Foundation.Bytes
import Mathlib.Algebra.Group.Nat.Defs

/-!
# Numbers as bytes

A 32-bit number as four bytes, the most significant first, and back.
-/

namespace Foundation

/-- The four bytes of a number below `2 ^ 32`. -/
def toBigEndian (n : ℕ) : List UInt8 :=
  [UInt8.ofNat (n / 2 ^ 24), UInt8.ofNat (n / 2 ^ 16), UInt8.ofNat (n / 2 ^ 8), UInt8.ofNat n]

def fromBigEndian (bytes : List UInt8) : ℕ :=
  bytes.foldl (fun n byte => n * 2 ^ 8 + byte.toNat) 0

@[simp] theorem length_toBigEndian (n : ℕ) : (toBigEndian n).length = 4 := rfl

theorem fromBigEndian_toBigEndian {n : ℕ} (h : n < 2 ^ 32) :
    fromBigEndian (toBigEndian n) = n := by
  simp only [fromBigEndian, toBigEndian, List.foldl_cons, List.foldl_nil, UInt8.toNat_ofNat']
  omega

end Foundation
