import GChat.Foundation.BigEndian
import GChat.Foundation.Codec

/-!
# The encrypted store

One file for each profile: magic, key derivation parameters, salt, nonce and the
sealed data. A save writes a temporary file and renames it to the path of the store.
The first save must not replace a file, later saves must; which one it is, is a flag
in memory.
-/

namespace GChat

namespace Store

open Foundation

/-- Authenticated encryption, as the cipher library has it. The associated data is not
encrypted, and must be the same for both. -/
structure Cipher (Key : Type) where
  encrypt : Key → Bytes 12 → List UInt8 → List UInt8 → List UInt8
  decrypt : Key → Bytes 12 → List UInt8 → List UInt8 → Option (List UInt8)

/-- What is encrypted is decrypted, and carries a tag of 16 bytes. -/
structure Cipher.Lawful {Key : Type} (cipher : Cipher Key) : Prop where
  decrypt_encrypt : ∀ key nonce associated plain,
    cipher.decrypt key nonce associated (cipher.encrypt key nonce associated plain) = some plain
  tag : ∀ key nonce associated plain,
    16 ≤ (cipher.encrypt key nonce associated plain).length

def argonMCost : ℕ := 64 * 1024

def argonTCost : ℕ := 3

def argonPCost : ℕ := 1

def headerLen : ℕ := 6 + 12 + 16 + 12

/-- The bytes of a file from `start` on. -/
def slice (raw : List UInt8) (start length : ℕ) : List UInt8 := (raw.drop start).take length

/-- Exactly `n` of the bytes from `start` on. -/
def sliceBytes (raw : List UInt8) (start n : ℕ) (h : start + n ≤ raw.length) : Bytes n :=
  ⟨slice raw start n, by simp only [slice, List.length_take, List.length_drop]; omega⟩

/-- The salt and the nonce of a file. Parameters that differ from the policy are refused. -/
def parseHeader (raw : List UInt8) (magic : Bytes 6) : Except String (Bytes 16 × Bytes 12) :=
  if h : headerLen + 16 ≤ raw.length ∧ slice raw 0 6 = magic.toList then
    if fromBigEndian (slice raw 6 4) ≠ argonMCost ∨ fromBigEndian (slice raw 10 4) ≠ argonTCost ∨
        fromBigEndian (slice raw 14 4) ≠ argonPCost then
      .error "store KDF params differ from client policy"
    else
      .ok (sliceBytes raw 18 16 (by have := h.1; unfold headerLen at this; omega),
        sliceBytes raw 34 12 (by have := h.1; unfold headerLen at this; omega))
  else .error "not a gc client store"

/-- A store that is open. Its file is at a path that never changes. -/
structure EncryptedStore (Key : Type) where
  magic : Bytes 6
  salt : Bytes 16
  key : Key
  initialized : Bool

section

variable {Key Data : Type} (cipher : Cipher Key) (codec : Codec Data)

/-- A store for a path that must not exist. The key is derived from the fresh salt. -/
def createWithKey (file : Option (List UInt8)) (magic : Bytes 6) (label : String)
    (salt : Bytes 16) (key : Bytes 16 → Key) : Except String (EncryptedStore Key) :=
  if file.isSome then .error s!"{label} exists"
  else .ok { magic := magic, salt := salt, key := key salt, initialized := false }

def openWithKey (raw : List UInt8) (magic : Bytes 6) (corruption : String)
    (key : Bytes 16 → Key) : Except String (EncryptedStore Key × Data) := do
  let (salt, nonce) ← parseHeader raw magic
  let plain ← okOr (cipher.decrypt (key salt) nonce [] (raw.drop headerLen)) corruption
  match codec.decode plain with
  | .error error => .error s!"deserialize: {error}"
  | .ok (data, trailing) =>
      refuse (!trailing.isEmpty) "trailing bytes in encrypted store"
      .ok ({ magic := magic, salt := salt, key := key salt, initialized := true }, data)

/-- The bytes a save writes. -/
def EncryptedStore.output (store : EncryptedStore Key) (nonce : Bytes 12) (data : Data) :
    List UInt8 :=
  store.magic.toList ++ toBigEndian argonMCost ++ toBigEndian argonTCost ++
    toBigEndian argonPCost ++ store.salt.toList ++ nonce.toList ++
    cipher.encrypt store.key nonce [] (codec.encode data)

end

/-- The steps of a write that may fail. -/
inductive Fault where
  | createTemporary
  | makePrivate
  | write
  | sync
  | rename
  | syncDirectory
deriving DecidableEq

/-- Write the file through a temporary one. A failure before the rename drops the temporary
file; a failure of the directory sync comes after it. -/
def atomicWrite (file : Option (List UInt8)) (bytes : List UInt8) (noClobber : Bool)
    (fault : Option (Fault × String)) : Option (List UInt8) × Except String Unit :=
  match fault with
  | some (.syncDirectory, message) =>
      if noClobber && file.isSome then (file, .error "File exists (os error 17)")
      else (some bytes, .error message)
  | some (_, message) => (file, .error message)
  | none =>
      if noClobber && file.isSome then (file, .error "File exists (os error 17)") else (some bytes, .ok ())

/-- Save the data. The store counts as initialized once a save succeeded. -/
def EncryptedStore.save {Key Data : Type} (cipher : Cipher Key) (codec : Codec Data)
    (store : EncryptedStore Key) (file : Option (List UInt8)) (nonce : Bytes 12) (data : Data)
    (fault : Option (Fault × String)) :
    EncryptedStore Key × Option (List UInt8) × Except String Unit :=
  match atomicWrite file (store.output cipher codec nonce data) (!store.initialized) fault with
  | (file, .ok _) => ({ store with initialized := true }, file, .ok ())
  | (file, .error message) => (store, file, .error message)

end Store

end GChat
