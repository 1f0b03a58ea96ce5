import Mathlib.Data.Nat.Digits.Defs
import Mathlib.Data.String.Basic

/-!
# Unsigned numbers as texts

A number is read digit by digit and refused where it leaves its bound. A plus sign and leading
zeros are accepted, so a text that is read need not be the one that is written.
-/

namespace Foundation

def digitValue (radix : ℕ) (c : Char) : Option ℕ :=
  (if 48 ≤ c.toNat ∧ c.toNat ≤ 57 then some (c.toNat - 48)
    else if 97 ≤ c.toNat ∧ c.toNat ≤ 122 then some (c.toNat - 87)
    else if 65 ≤ c.toNat ∧ c.toNat ≤ 90 then some (c.toNat - 55)
    else none).filter (· < radix)

def readDigits (radix bound : ℕ) : List Char → ℕ → Option ℕ
  | [], value => some value
  | c :: chars, value =>
      match digitValue radix c with
      | none => none
      | some digit =>
          if radix * value + digit < bound then readDigits radix bound chars (radix * value + digit)
          else none

/-- The number of a text, if it is below the bound. -/
def fromStrRadix (radix bound : ℕ) : List Char → Option ℕ
  | [] => none
  | ['+'] => none
  | '+' :: chars => readDigits radix bound chars 0
  | chars => readDigits radix bound chars 0

/-- The digits of a number, as they are written. -/
def decimal (n : ℕ) : List Char := Nat.toDigits 10 n

/-- A text without a plus sign and without superfluous zeros. -/
def PlainDecimal (chars : List Char) : Prop :=
  chars.head? ≠ some '+' ∧ (chars.head? = some '0' → chars = ['0'])

instance (chars : List Char) : Decidable (PlainDecimal chars) :=
  inferInstanceAs (Decidable (_ ∧ _))

theorem digitValue_ten {c : Char} {digit : ℕ} :
    digitValue 10 c = some digit ↔ 48 ≤ c.toNat ∧ c.toNat ≤ 57 ∧ digit = c.toNat - 48 := by
  unfold digitValue
  rw [Option.filter_eq_some_iff]
  constructor
  · rintro ⟨h, hlt⟩
    rw [decide_eq_true_iff] at hlt
    split at h
    next hdigit =>
      cases h
      exact ⟨hdigit.1, hdigit.2, rfl⟩
    · split at h
      · cases h
        omega
      · split at h
        · cases h
          omega
        · cases h
  · rintro ⟨hlow, hhigh, rfl⟩
    rw [if_pos ⟨hlow, hhigh⟩, decide_eq_true_iff]
    exact ⟨rfl, by omega⟩

theorem digitChar_digit {c : Char} {digit : ℕ} (h : digitValue 10 c = some digit) :
    digit < 10 ∧ Nat.digitChar digit = c := by
  obtain ⟨hlow, hhigh, rfl⟩ := digitValue_ten.mp h
  refine ⟨by omega, ?_⟩
  apply Char.toNat_inj.mp
  rw [Nat.toNat_digitChar_of_lt_ten (by omega)]
  omega

theorem digitValue_digitChar {digit : ℕ} (h : digit < 10) :
    digitValue 10 (Nat.digitChar digit) = some digit := by
  rw [digitValue_ten, Nat.toNat_digitChar_of_lt_ten h]
  omega

/-! ### What is written is read -/

/-- One more digit of a number that is not zero. -/
theorem decimal_append {n digit : ℕ} (hn : 0 < n) (hdigit : digit < 10) :
    decimal (10 * n + digit) = decimal n ++ [Nat.digitChar digit] := by
  have happend := Nat.toDigits_append_toDigits (b := 10) (n := n) (d := digit) (by decide) hn hdigit
  rw [Nat.toDigits_of_lt_base hdigit] at happend
  exact happend.symm

theorem decimal_of_lt {n : ℕ} (h : n < 10) : decimal n = [Nat.digitChar n] :=
  Nat.toDigits_of_lt_base h

theorem readDigits_append {radix bound : ℕ} (front back : List Char) (value : ℕ) :
    readDigits radix bound (front ++ back) value =
      (readDigits radix bound front value).bind (readDigits radix bound back) := by
  induction front generalizing value with
  | nil => rfl
  | cons c front ih =>
      rw [List.cons_append, readDigits, readDigits]
      cases digitValue radix c with
      | none => rfl
      | some digit =>
          dsimp only
          split
          · exact ih _
          · rfl

theorem readDigits_decimal {bound n : ℕ} (h : n < bound) :
    readDigits 10 bound (decimal n) 0 = some n := by
  induction n using Nat.strong_induction_on with
  | _ n ih =>
      rcases Nat.lt_or_ge n 10 with hlt | hge
      · rw [decimal_of_lt hlt, readDigits, digitValue_digitChar hlt]
        dsimp only
        rw [Nat.mul_zero, Nat.zero_add, if_pos h]
        rfl
      · have hdigit : n % 10 < 10 := Nat.mod_lt _ (by decide)
        have hn : 10 * (n / 10) + n % 10 = n := Nat.div_add_mod n 10
        have hfront := ih (n / 10) (by omega) (by omega)
        nth_rewrite 1 [← hn]
        rw [decimal_append (by omega) hdigit, readDigits_append, hfront, Option.bind_some,
          readDigits, digitValue_digitChar hdigit]
        dsimp only
        rw [hn, if_pos h]
        rfl

/-- The written form is plain. -/
theorem plainDecimal_decimal (n : ℕ) : PlainDecimal (decimal n) := by
  induction n using Nat.strong_induction_on with
  | _ n ih =>
      rcases Nat.lt_or_ge n 10 with hlt | hge
      · rw [decimal_of_lt hlt]
        have hall : ∀ d : Fin 10, PlainDecimal [Nat.digitChar d] := by decide
        exact hall ⟨n, hlt⟩
      · have hn : 10 * (n / 10) + n % 10 = n := Nat.div_add_mod n 10
        have hpos : 0 < n / 10 := by omega
        obtain ⟨hplus, hzero⟩ := ih (n / 10) (by omega)
        have hne : decimal (n / 10) ≠ [] := Nat.toDigits_ne_nil
        have hhead : (decimal n).head? = (decimal (n / 10)).head? := by
          rw [← hn, decimal_append hpos (Nat.mod_lt _ (by decide)), hn,
            List.head?_append_of_ne_nil _ hne]
        refine ⟨hhead ▸ hplus, fun h => ?_⟩
        have hsingle := hzero (hhead ▸ h)
        have hread := readDigits_decimal (Nat.lt_succ_self (n / 10))
        rw [hsingle] at hread
        have hvalue : (0 : ℕ) = n / 10 := Option.some.inj hread
        omega

theorem fromStrRadix_of_ne {radix bound : ℕ} {chars : List Char} (hne : chars ≠ [])
    (hplus : chars.head? ≠ some '+') :
    fromStrRadix radix bound chars = readDigits radix bound chars 0 := by
  unfold fromStrRadix
  split
  · exact absurd rfl hne
  · exact absurd rfl hplus
  · exact absurd rfl hplus
  · rfl

theorem readDigits_lt {radix bound value n : ℕ} {chars : List Char} (hvalue : value < bound)
    (h : readDigits radix bound chars value = some n) : n < bound := by
  induction chars generalizing value with
  | nil =>
      cases h
      exact hvalue
  | cons c chars ih =>
      rw [readDigits] at h
      cases hdigit : digitValue radix c with
      | none =>
          rw [hdigit] at h
          cases h
      | some digit =>
          rw [hdigit] at h
          dsimp only at h
          split at h
          next hlt => exact ih hlt h
          · cases h

theorem fromStrRadix_lt {radix bound n : ℕ} {chars : List Char} (hbound : 0 < bound)
    (h : fromStrRadix radix bound chars = some n) : n < bound := by
  unfold fromStrRadix at h
  split at h
  · cases h
  · cases h
  · exact readDigits_lt hbound h
  · exact readDigits_lt hbound h

theorem fromStrRadix_decimal {bound n : ℕ} (h : n < bound) :
    fromStrRadix 10 bound (decimal n) = some n := by
  have hne : decimal n ≠ [] := Nat.toDigits_ne_nil
  rw [fromStrRadix_of_ne hne (plainDecimal_decimal n).1, readDigits_decimal h]

/-! ### What is read plainly is what is written -/

theorem decimal_of_readDigits {bound n value : ℕ} {chars : List Char} (hvalue : 0 < value)
    (h : readDigits 10 bound chars value = some n) : decimal n = decimal value ++ chars := by
  induction chars generalizing value with
  | nil =>
      cases h
      exact (List.append_nil _).symm
  | cons c chars ih =>
      rw [readDigits] at h
      cases hdigit : digitValue 10 c with
      | none =>
          rw [hdigit] at h
          cases h
      | some digit =>
          rw [hdigit] at h
          dsimp only at h
          split at h
          · obtain ⟨hlt, hchar⟩ := digitChar_digit hdigit
            rw [ih (by omega) h, decimal_append hvalue hlt, hchar, List.append_assoc,
              List.singleton_append]
          · cases h

/-- A text that is read is the written form of its number exactly if it is plain. -/
theorem eq_decimal_iff {bound n : ℕ} {chars : List Char}
    (h : fromStrRadix 10 bound chars = some n) : chars = decimal n ↔ PlainDecimal chars := by
  constructor
  · rintro rfl
    exact plainDecimal_decimal n
  · rintro ⟨hplus, hzero⟩
    cases chars with
    | nil => cases h
    | cons c chars =>
        rw [fromStrRadix_of_ne (List.cons_ne_nil _ _) hplus, readDigits] at h
        cases hdigit : digitValue 10 c with
        | none =>
            rw [hdigit] at h
            cases h
        | some digit =>
            obtain ⟨hlt, hchar⟩ := digitChar_digit hdigit
            rw [hdigit] at h
            dsimp only at h
            rw [Nat.mul_zero, Nat.zero_add] at h
            split at h
            · rcases Nat.eq_zero_or_pos digit with rfl | hpos
              · have hc : c = '0' := hchar.symm
                rw [hc, List.head?_cons] at hzero
                obtain ⟨rfl, rfl⟩ := List.cons.inj ((hc ▸ hzero rfl : c :: chars = ['0']))
                cases h
                rfl
              · rw [decimal_of_readDigits hpos h, decimal_of_lt hlt, hchar, List.singleton_append]
            · cases h

end Foundation
