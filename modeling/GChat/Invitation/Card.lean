import GChat.Foundation.BigEndian
import GChat.Foundation.Outcome
import GChat.Foundation.Text
import GChat.Foundation.TextBytes
import Mathlib.Data.Nat.Notation

/-!
# Invitation cards

An invitation travels in a text chunk of a PNG picture. A card is read chunk by chunk, and refused
unless it is one complete picture with one invitation. Embedding adds the chunk before the last
one and changes nothing else.
-/

namespace GChat

namespace Invitation

open Foundation

def maxNetworkInvitationBytes : ℕ := 174778

def maxCardBytes : ℕ := 8 * 1024 * 1024

def signature : List UInt8 := [137, 80, 78, 71, 13, 10, 26, 10]

def keyword : String := "GChat.Invitation"

def missing : String :=
  "This picture has no invitation data. Ask for the original PNG, sent as a file."

def incomplete : String := "The invitation picture is incomplete. Ask for the original file."

/-- A read outside of the buffer. -/
def rangeError : String := "Offset is outside the bounds of the DataView"

/-- Bytes that are no text. -/
def typeError : String := "The encoded data was not valid for encoding utf-8"

/-! ### Parts of the language -/

def trim (text : String) : String :=
  String.ofList ((text.toList.dropWhile isSpace).reverse.dropWhile isSpace).reverse

def decode (bytes : List UInt8) : Except String String := okOr (decodeText bytes) typeError

def getUint32 (bytes : List UInt8) (offset : ℕ) : Except String ℕ :=
  if offset + 4 ≤ bytes.length then .ok (fromBigEndian ((bytes.drop offset).take 4))
  else .error rangeError

def subarray (bytes : List UInt8) (first last : ℕ) : List UInt8 := (bytes.take last).drop first

/-! ### Checksums -/

def crcBit (crc : UInt32) : UInt32 := (crc >>> 1) ^^^ (0xedb88320 &&& (0 - (crc &&& 1)))

def crcByte (crc : UInt32) (byte : UInt8) : UInt32 :=
  crcBit (crcBit (crcBit (crcBit (crcBit (crcBit (crcBit (crcBit (crc ^^^ byte.toUInt32))))))))

def crc32 (bytes : List UInt8) : ℕ :=
  (bytes.foldl crcByte 0xffffffff ^^^ 0xffffffff).toNat

/-! ### Reading -/

/-- An invitation within its limits. -/
def code (value : String) : Except String String :=
  if trim value = "" ∨ maxNetworkInvitationBytes < (utf8 (trim value)).length then
    .error "Use a complete invitation within the size limit."
  else .ok (trim value)

structure Chunk where
  start : ℕ
  stop : ℕ
  type : String
  data : List UInt8
deriving DecidableEq

def isLetter (c : Char) : Bool :=
  (65 ≤ c.toNat && c.toNat ≤ 90) || (97 ≤ c.toNat && c.toNat ≤ 122)

def isType (type : String) : Bool := type.toList.length == 4 && type.toList.all isLetter

/-- The chunk at the front of `rest`, which begins at `offset` of the picture. -/
def readChunk (rest : List UInt8) (offset : ℕ) (first : Bool) : Except String Chunk := do
  refuse (rest.length < 12) incomplete
  let size ← getUint32 rest 0
  refuse (rest.length - 12 < size) incomplete
  let type ← decode (subarray rest 4 8)
  let sum ← getUint32 rest (8 + size)
  refuse (!isType type || crc32 (subarray rest 4 (8 + size)) != sum)
    "The invitation picture is damaged. Ask for the original file."
  if first then do
    refuse (type != "IHDR" || size != 13) "Invalid invitation picture header."
    let width ← getUint32 rest 8
    let height ← getUint32 rest 12
    refuse (width == 0 || height == 0 || 4 * 1024 * 1024 < width * height)
      "This invitation picture is too large."
  else
    refuse (type == "IHDR") "Duplicate picture header."
  refuse (type == "acTL") "Use a still PNG invitation card."
  .ok ⟨offset, offset + 12 + size, type, subarray rest 8 (8 + size)⟩

theorem readChunk_length {rest : List UInt8} {offset : ℕ} {first : Bool} {chunk : Chunk}
    (h : readChunk rest offset first = .ok chunk) : 12 ≤ rest.length := by
  unfold readChunk at h
  obtain ⟨_, hlength, -⟩ := bind_eq_ok.mp h
  rw [refuse_eq_ok, decide_eq_false_iff_not] at hlength
  exact Nat.not_lt.mp hlength

/-- The chunks up to the last one, and whether the picture has an image and ends there. -/
def readChunks (rest : List UInt8) (offset : ℕ) (first image : Bool) :
    Except String (List Chunk × Bool × Bool) :=
  if rest = [] then .ok ([], image, false)
  else
    match h : readChunk rest offset first with
    | .error message => .error message
    | .ok chunk =>
        let image := image || chunk.type == "IDAT"
        if chunk.type = "IEND" then
          .ok ([chunk], image, chunk.data.length == 0 && 12 + chunk.data.length == rest.length)
        else
          match readChunks (rest.drop (12 + chunk.data.length)) chunk.stop false image with
          | .error message => .error message
          | .ok (chunks, found) => .ok (chunk :: chunks, found)
termination_by rest.length
decreasing_by
  have := readChunk_length h
  simp only [List.length_drop]
  omega

def chunks (bytes : List UInt8) : Except String (List Chunk) := do
  refuse (maxCardBytes < bytes.length) "Invitation pictures must be smaller than 8 MB."
  refuse (!(List.range 8).all fun i => bytes[i]? == signature[i]?)
    "Open the original PNG invitation card or a text invitation."
  let (found, image, ended) ← readChunks (bytes.drop 8) 8 true false
  refuse (!ended || !image) incomplete
  .ok found

/-- The invitation in the data of a text chunk, if it is one with the keyword. -/
def payload (data : List UInt8) : Except String (Option String) :=
  match data.idxOf? 0 with
  | none => .ok none
  | some separator => do
      let name ← decode (data.take separator)
      if name ≠ keyword then .ok none
      else do
        refuse (data.length < separator + 5 ||
            (subarray data (separator + 1) (separator + 5)).any (· != 0))
          "Unsupported invitation picture data. Ask for the original card."
        let text ← decode (data.drop (separator + 5))
        let value ← code text
        .ok (some value)

/-- A chunk as it is written. -/
def encodeChunk (type : String) (data : List UInt8) : List UInt8 :=
  toBigEndian data.length ++ (utf8 type ++ data) ++ toBigEndian (crc32 (utf8 type ++ data))

end Invitation

end GChat
