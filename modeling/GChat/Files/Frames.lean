import GChat.Foundation.BigEndian
import GChat.Foundation.JsonText
import GChat.Foundation.Outcome
import GChat.Foundation.Radix
import GChat.Foundation.TextBytes
import Mathlib

/-!
# Frames of file pieces

A piece of a file travels in a binary frame: a magic, the length of a header, the header as JSON
and the bytes of the piece. The service and the page write the same header. The reader takes the
members in any order and with any spaces, but only these members and each of them once, and it
also takes the four values as an array.
-/

namespace GChat

namespace Files

open Foundation

def pieceBytes : ℕ := 256 * 1024

/-- The bytes of `GCFIO1`. -/
def ioMagic : List UInt8 := [71, 67, 70, 73, 79, 49]

def ioLimit : ℕ := pieceBytes + 1024

structure FileIo where
  instanceId : String
  id : String
  piece : UInt32
  upload : Bool
deriving DecidableEq

/-! ### Writing a header -/

def boolText (value : Bool) : List Char :=
  if value then ['t', 'r', 'u', 'e'] else ['f', 'a', 'l', 's', 'e']

def membersText (instanceId id : String) (piece : ℕ) (upload : Bool) : List Char :=
  JsonText.quote "instance" ++ ':' :: (JsonText.quote instanceId ++
    ',' :: (JsonText.quote "id" ++ ':' :: (JsonText.quote id ++
      ',' :: (JsonText.quote "piece" ++ ':' :: (decimal piece ++
        ',' :: (JsonText.quote "upload" ++ ':' :: (boolText upload ++ ['}'])))))))

/-- The header as it is written, without spaces. -/
def headerText (instanceId id : String) (piece : ℕ) (upload : Bool) : List Char :=
  '{' :: membersText instanceId id piece upload

def FileIo.text (header : FileIo) : List Char :=
  headerText header.instanceId header.id header.piece.toNat header.upload

/-! ### Reading a header -/

def isSpace (c : Char) : Bool := c == ' ' || c == '\n' || c == '\t' || c == '\r'

def skipSpace (chars : List Char) : List Char := chars.dropWhile isSpace

/-- A number without a sign, a fraction or an exponent that fits 32 bits. -/
def readNumber (chars : List Char) : Option (UInt32 × List Char) :=
  let digits := chars.takeWhile Char.isDigit
  if digits = [] then none
  else if digits.head? = some '0' ∧ digits ≠ ['0'] then none
  else
    (readDigits 10 (2 ^ 32) digits 0).map fun n => (UInt32.ofNat n, chars.dropWhile Char.isDigit)

def readBool : List Char → Option (Bool × List Char)
  | 't' :: 'r' :: 'u' :: 'e' :: rest => some (true, rest)
  | 'f' :: 'a' :: 'l' :: 's' :: 'e' :: rest => some (false, rest)
  | _ => none

/-- The members that were read. -/
structure Draft where
  instanceId : Option String
  id : Option String
  piece : Option UInt32
  upload : Option Bool

def Draft.empty : Draft := ⟨none, none, none, none⟩

def Draft.complete (draft : Draft) : Option FileIo := do
  some ⟨← draft.instanceId, ← draft.id, ← draft.piece, ← draft.upload⟩

/-- The value of a member. No member is read twice. -/
def readValue (draft : Draft) (name : String) (chars : List Char) : Option (Draft × List Char) :=
  if name = "instance" then
    if draft.instanceId.isSome then none
    else (JsonText.readString chars).map fun v => ({ draft with instanceId := some v.1 }, v.2)
  else if name = "id" then
    if draft.id.isSome then none
    else (JsonText.readString chars).map fun v => ({ draft with id := some v.1 }, v.2)
  else if name = "piece" then
    if draft.piece.isSome then none
    else (readNumber chars).map fun v => ({ draft with piece := some v.1 }, v.2)
  else if name = "upload" then
    if draft.upload.isSome then none
    else (readBool chars).map fun v => ({ draft with upload := some v.1 }, v.2)
  else none

def readColon (chars : List Char) : Option (List Char) :=
  match skipSpace chars with
  | ':' :: rest => some (skipSpace rest)
  | _ => none

def readComma (chars : List Char) : Option (List Char) :=
  match skipSpace chars with
  | ',' :: rest => some (skipSpace rest)
  | _ => none

/-- The members up to the closing brace. Each takes up at least one character. -/
def readMembers : ℕ → Draft → List Char → Option (Draft × List Char)
  | 0, _, _ => none
  | fuel + 1, draft, chars => do
      let (name, rest) ← JsonText.readString chars
      let (draft, rest) ← readValue draft name (← readColon rest)
      match skipSpace rest with
      | '}' :: rest => some (draft, rest)
      | ',' :: rest => readMembers fuel draft (skipSpace rest)
      | _ => none

/-- The four values of an array. -/
def readElements (chars : List Char) : Option (FileIo × List Char) := do
  let (instanceId, rest) ← JsonText.readString chars
  let (id, rest) ← JsonText.readString (← readComma rest)
  let (piece, rest) ← readNumber (← readComma rest)
  let (upload, rest) ← readBool (← readComma rest)
  match skipSpace rest with
  | ']' :: rest => some (⟨instanceId, id, piece, upload⟩, rest)
  | _ => none

def readHeader (text : List Char) : Option FileIo :=
  match skipSpace text with
  | '{' :: rest => do
      let (draft, rest) ← readMembers rest.length .empty (skipSpace rest)
      if (skipSpace rest).isEmpty then draft.complete else none
  | '[' :: rest => do
      let (header, rest) ← readElements (skipSpace rest)
      if (skipSpace rest).isEmpty then some header else none
  | _ => none

/-! ### Frames -/

/-- Two bytes, the more significant first. -/
def toBigEndian16 (n : ℕ) : List UInt8 := [UInt8.ofNat (n / 2 ^ 8), UInt8.ofNat n]

def frame (text bytes : List UInt8) : List UInt8 :=
  ioMagic ++ (toBigEndian16 text.length ++ (text ++ bytes))

@[irreducible] def encodeIo (header : FileIo) (bytes : List UInt8) : Except String (List UInt8) := do
  let text := utf8 (String.ofList header.text)
  refuse (text.length > 512 || bytes.length > pieceBytes) "File frame exceeds bound"
  .ok (frame text bytes)

def decodeIo (bytes : List UInt8) : Except String (FileIo × List UInt8) := do
  refuse (bytes.length < 8 || bytes.length > ioLimit || bytes.take 6 ≠ ioMagic)
    "Invalid file frame"
  let n := fromBigEndian ((bytes.drop 6).take 2)
  refuse (n > 512 || bytes.length < 8 + n || bytes.length - (8 + n) > pieceBytes)
    "Invalid file frame length"
  let header ← okOr
    ((fromUtf8 ((bytes.drop 8).take n)).bind fun text => readHeader text.toList)
    "Invalid file frame header"
  .ok (header, bytes.drop (8 + n))

/-- The page counts the pieces without a bound and checks it when it writes the frame. -/
structure PageIo where
  instanceId : String
  id : String
  piece : ℕ
  upload : Bool
deriving DecidableEq

@[irreducible] def encodeFileIo (header : PageIo) (bytes : List UInt8) : Except String (List UInt8) := do
  let encoded := utf8 (String.ofList
    (headerText header.instanceId header.id header.piece header.upload))
  refuse (encoded.length > 512 || bytes.length > 262144 || header.piece > 0xffffffff)
    "File frame exceeds bounds"
  .ok (frame encoded bytes)

end Files

end GChat
