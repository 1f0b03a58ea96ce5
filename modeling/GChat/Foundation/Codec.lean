import GChat.Foundation.Bytes
import GChat.Foundation.Outcome

/-!
# Codecs

A codec writes a value as bytes and reads it back from the front of a longer byte
string. That reading inverts writing is a field, so a codec that loses data cannot be
built. The combinators below are the wire format of the serialization library: numbers
as groups of seven bits, the lowest first, and everything of variable length behind its
length.
-/

namespace Foundation

structure Codec (α : Type) where
  encode : α → List UInt8
  decode : List UInt8 → Except String (α × List UInt8)
  decode_encode : ∀ a rest, decode (encode a ++ rest) = .ok (a, rest)

namespace Codec

variable {α β : Type}

theorem decode_encode_self (codec : Codec α) (a : α) :
    codec.decode (codec.encode a) = .ok (a, []) := by
  have h := codec.decode_encode a []
  rwa [List.append_nil] at h

/-- The groups of a number, lowest first; as many as `fuel` and one more. -/
def varintGroups : ℕ → ℕ → List UInt8
  | 0, n => [UInt8.ofNat n]
  | fuel + 1, n =>
      if n < 128 then [UInt8.ofNat n]
      else UInt8.ofNat (n % 128 + 128) :: varintGroups fuel (n / 128)

def writeVarint (n : ℕ) : List UInt8 := varintGroups n n

def readVarint : List UInt8 → Except String (ℕ × List UInt8)
  | [] => .error "Hit the end of buffer, expected more data"
  | b :: rest =>
      if b.toNat < 128 then .ok (b.toNat, rest)
      else do
        let (high, rest) ← readVarint rest
        .ok (b.toNat - 128 + 128 * high, rest)

theorem readVarint_varintGroups {fuel n : ℕ} (h : n ≤ fuel) (rest : List UInt8) :
    readVarint (varintGroups fuel n ++ rest) = .ok (n, rest) := by
  have hlast : ∀ m < 128, readVarint (UInt8.ofNat m :: rest) = .ok (m, rest) := by
    intro m hm
    have hb : (UInt8.ofNat m).toNat = m := by
      rw [UInt8.toNat_ofNat']
      omega
    rw [readVarint, hb, if_pos hm]
  induction fuel generalizing n with
  | zero => exact hlast n (by omega)
  | succ fuel ih =>
      rw [varintGroups]
      by_cases hn : n < 128
      · rw [if_pos hn]
        exact hlast n hn
      · have hb : (UInt8.ofNat (n % 128 + 128)).toNat = n % 128 + 128 := by
          rw [UInt8.toNat_ofNat']
          omega
        rw [if_neg hn, List.cons_append, readVarint, hb, if_neg (by omega),
          ih (by omega : n / 128 ≤ fuel)]
        have hn : n % 128 + 128 - 128 + 128 * (n / 128) = n := by omega
        simp only [bind, Except.bind, hn]

theorem readVarint_writeVarint (n : ℕ) (rest : List UInt8) :
    readVarint (writeVarint n ++ rest) = .ok (n, rest) :=
  readVarint_varintGroups le_rfl rest

def varint : Codec ℕ where
  encode := writeVarint
  decode := readVarint
  decode_encode := readVarint_writeVarint

/-- The values of `α` that stand for one of `β`. -/
def narrow (codec : Codec α) (f : α → Except String β) (g : β → α) (h : ∀ b, f (g b) = .ok b) :
    Codec β where
  encode b := codec.encode (g b)
  decode bytes := do
    let (a, rest) ← codec.decode bytes
    let b ← f a
    .ok (b, rest)
  decode_encode b rest := by
    simp [codec.decode_encode, bind, Except.bind, h]

def below (n : ℕ) : Codec (Fin n) :=
  varint.narrow
    (fun v => if h : v < n then .ok ⟨v, h⟩ else .error "Found a varint that didn't terminate")
    Fin.val fun v => by simp

def bool : Codec Bool :=
  varint.narrow
    (fun v => if v = 0 then .ok false else if v = 1 then .ok true
      else .error "Found a bool that wasn't 0 or 1")
    Bool.toNat fun b => by cases b <;> rfl

def pair (first : Codec α) (second : Codec β) : Codec (α × β) where
  encode p := first.encode p.1 ++ second.encode p.2
  decode bytes := do
    let (a, rest) ← first.decode bytes
    let (b, rest) ← second.decode rest
    .ok ((a, b), rest)
  decode_encode p rest := by
    simp [List.append_assoc, first.decode_encode, second.decode_encode, bind, Except.bind]

def option (codec : Codec α) : Codec (Option α) where
  encode
    | none => [0]
    | some a => 1 :: codec.encode a
  decode
    | [] => .error "Hit the end of buffer, expected more data"
    | b :: rest =>
        if b = 0 then .ok (none, rest)
        else if b = 1 then do
          let (a, rest) ← codec.decode rest
          .ok (some a, rest)
        else .error "Found an Option discriminant that wasn't 0 or 1"
  decode_encode o rest := by
    cases o with
    | none => rfl
    | some a => simp [codec.decode_encode, bind, Except.bind]

def fixed (n : ℕ) : Codec (Bytes n) where
  encode := Bytes.toList
  decode raw :=
    if h : n ≤ raw.length then .ok (⟨raw.take n, by simp [h]⟩, raw.drop n)
    else .error "Hit the end of buffer, expected more data"
  decode_encode b rest := by
    obtain ⟨bytes, rfl⟩ := b
    simp

def block : Codec (List UInt8) where
  encode bytes := writeVarint bytes.length ++ bytes
  decode raw := do
    let (length, rest) ← readVarint raw
    if length ≤ rest.length then .ok (rest.take length, rest.drop length)
    else .error "Hit the end of buffer, expected more data"
  decode_encode bytes rest := by
    simp [List.append_assoc, readVarint_writeVarint, bind, Except.bind]

/-- So many values, one after the other. -/
def readMany (codec : Codec α) : ℕ → List UInt8 → Except String (List α × List UInt8)
  | 0, raw => .ok ([], raw)
  | n + 1, raw => do
      let (a, rest) ← codec.decode raw
      let (values, rest) ← readMany codec n rest
      .ok (a :: values, rest)

theorem readMany_flatMap (codec : Codec α) (values : List α) (rest : List UInt8) :
    codec.readMany values.length (values.flatMap codec.encode ++ rest) = .ok (values, rest) := by
  induction values with
  | nil => rfl
  | cons a values ih =>
      rw [List.length_cons, List.flatMap_cons, List.append_assoc, readMany]
      simp [codec.decode_encode, ih, bind, Except.bind]

def list (codec : Codec α) : Codec (List α) where
  encode values := writeVarint values.length ++ values.flatMap codec.encode
  decode raw := do
    let (length, rest) ← readVarint raw
    codec.readMany length rest
  decode_encode values rest := by
    simp [List.append_assoc, readVarint_writeVarint, readMany_flatMap, bind, Except.bind]

def text : Codec String :=
  block.narrow
    (fun bytes =>
      if h : (ByteArray.mk bytes.toArray).IsValidUTF8 then .ok (String.ofByteArray _ h)
      else .error "Tried to parse invalid utf-8")
    (fun s => s.toByteArray.data.toList) fun s => by
      obtain ⟨⟨⟨bytes⟩⟩, h⟩ := s
      simp only [dif_pos h]

end Codec

end Foundation
