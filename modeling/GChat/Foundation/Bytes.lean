import Mathlib.Data.List.Basic
import Mathlib.Tactic.FinCases

/-!
# Fixed-size byte strings and their hexadecimal form

`Bytes n` is an array of exactly `n` bytes: the length is a field, so a value of
the wrong size cannot be built. `hex` renders bytes by two lowercase digits
each. It is injective, and it never produces a separator, which is what makes a
path of hexadecimal segments readable back.
-/

namespace Foundation

/-- An array of exactly `n` bytes. -/
structure Bytes (n : ℕ) where
  toList : List UInt8
  length_toList : toList.length = n
deriving DecidableEq

namespace Bytes

/-- The array that repeats one byte. -/
def fill (n : ℕ) (b : UInt8) : Bytes n := ⟨List.replicate n b, List.length_replicate⟩

theorem toList_injective {n : ℕ} : Function.Injective (toList (n := n)) := by
  rintro ⟨a, ha⟩ ⟨b, hb⟩ h
  cases h
  rfl

end Bytes

/-- The lowercase digit of a value below sixteen. -/
def hexDigit (n : ℕ) : Char :=
  if n < 10 then Char.ofNat (48 + n) else Char.ofNat (87 + n)

def hexByte (b : UInt8) : List Char :=
  [hexDigit (b.toNat / 16), hexDigit (b.toNat % 16)]

def hexChars (bytes : List UInt8) : List Char := bytes.flatMap hexByte

/-- Two lowercase hexadecimal digits for each byte. -/
def hex (bytes : List UInt8) : String := String.ofList (hexChars bytes)

@[simp] theorem hexChars_nil : hexChars [] = [] := rfl

theorem hexChars_cons (b : UInt8) (bs : List UInt8) :
    hexChars (b :: bs) =
      hexDigit (b.toNat / 16) :: hexDigit (b.toNat % 16) :: hexChars bs := rfl

@[simp] theorem toList_hex (bytes : List UInt8) : (hex bytes).toList = hexChars bytes := by
  simp [hex]

theorem length_hexChars (bytes : List UInt8) : (hexChars bytes).length = 2 * bytes.length := by
  induction bytes with
  | nil => rfl
  | cons b bs ih =>
      rw [hexChars_cons, List.length_cons, List.length_cons, List.length_cons, ih]
      omega

theorem hexDigit_injOn {a b : ℕ} (ha : a < 16) (hb : b < 16)
    (h : hexDigit a = hexDigit b) : a = b := by
  have hdigits : ∀ x y : Fin 16, hexDigit x = hexDigit y → x = y := by decide
  exact congrArg Fin.val (hdigits ⟨a, ha⟩ ⟨b, hb⟩ h)

theorem hexChars_injective : Function.Injective hexChars := by
  intro xs
  induction xs with
  | nil =>
      intro ys h
      cases ys with
      | nil => rfl
      | cons y ys => simp [hexChars_cons] at h
  | cons x xs ih =>
      intro ys h
      cases ys with
      | nil => simp [hexChars_cons] at h
      | cons y ys =>
          rw [hexChars_cons, hexChars_cons, List.cons.injEq, List.cons.injEq] at h
          obtain ⟨hhigh, hlow, htail⟩ := h
          have hx := x.toNat_lt
          have hy := y.toNat_lt
          have hdiv := hexDigit_injOn (by omega) (by omega) hhigh
          have hmod := hexDigit_injOn (by omega) (by omega) hlow
          have hxy : x.toNat = y.toNat := by omega
          rw [UInt8.toNat_inj.mp hxy, ih htail]

theorem hex_injective : Function.Injective hex := by
  intro xs ys h
  have hchars := congrArg String.toList h
  rw [toList_hex, toList_hex] at hchars
  exact hexChars_injective hchars

/-- No hexadecimal digit is a path separator. -/
theorem hexDigit_ne_slash {n : ℕ} (h : n < 16) : hexDigit n ≠ '/' := by
  have hdigits : ∀ x : Fin 16, hexDigit x ≠ '/' := by decide
  exact hdigits ⟨n, h⟩

theorem slash_not_mem_hexChars (bytes : List UInt8) : '/' ∉ hexChars bytes := by
  induction bytes with
  | nil => simp
  | cons b bs ih =>
      have hb := b.toNat_lt
      rw [hexChars_cons, List.mem_cons, List.mem_cons]
      rintro (h | h | h)
      · exact hexDigit_ne_slash (by omega) h.symm
      · exact hexDigit_ne_slash (by omega) h.symm
      · exact ih h

end Foundation
