import GChat.Foundation.Cell
import GChat.Foundation.Outcome
import GChat.Foundation.StringMap
import GChat.Foundation.Words
import GChat.Journal.Retained

/-!
# The operation journal

Every submitted operation has a record in the journal of the chat service, under
the identifier its caller chose. The legacy requests and the typed sessions share
this journal: a record of a typed operation also holds its key and its typed
result. Times are in seconds.
-/

namespace GChat

namespace Journal

open Foundation Api

/-! ### Keys, records and the journal -/

/-- The identity of a typed operation. -/
structure OperationKey where
  caller : String
  host : String
  service : String
  version : ℕ
  method : String
  operationId : String
deriving DecidableEq

/-- What a typed caller is told about an operation. -/
inductive ReplyBody where
  | running
  | outcomeUnknown
  | done (outcome : String)
  | failed (error : String)
deriving DecidableEq

structure RecordBinding where
  key : OperationKey
  result : Option ReplyBody
deriving DecidableEq

structure OperationRecord where
  action : String
  conversation : Option String
  digest : String
  admittedAt : ℕ
  response : Option Response
  rpc : Option RecordBinding

abbrev Operations := StringMap OperationRecord

/-! ### The service around the journal -/

/-- What the journal code takes from outside: the identity of the instance, the
SHA-256 digest of a submission, and of the protocol library the retention of
typed records and the encoding of an outcome. -/
structure Host where
  id : String
  digest : Option String → String → String
  retention : ℕ
  encodeOutcome : Except ChatError SubmitOutcome → Except String String

def operationLimit : ℕ := 4096

/-- Seven days. -/
def week : ℕ := 7 * 24 * 3600

def serviceName : String := "ghost.chat"

def serviceVersion : ℕ := 1

/-- Addition of 64-bit values, capped at the largest. -/
def saturatingAdd (a b : ℕ) : ℕ := min (a + b) (2 ^ 64 - 1)

/-- A record is kept for `window` seconds from its admission. -/
def OperationRecord.fresh (window now : ℕ) (record : OperationRecord) : Bool :=
  now < saturatingAdd record.admittedAt window

/-- The journal without its expired records. -/
def prune (window now : ℕ) (operations : Operations) : Operations :=
  operations.filter fun _ record => record.fresh window now

def operationRecordId (method operationId : String) : String :=
  if method = "submit" then operationId else s!"rpc:{method}:{operationId}"

def recordId (key : OperationKey) : String := operationRecordId key.method key.operationId

/-! ### The checks on a submission -/

structure Submit where
  operationId : String
  conversation : Option String
  text : String
deriving DecidableEq

def maxInputBytes : ℕ := 12000

def maxContactInputBytes : ℕ := 192 * 1024

/-- Contact cards have a bound of their own. -/
def commandInputLimit (text : String) : ℕ :=
  match splitWhitespace text with
  | first :: second :: _ =>
      if eqIgnoreAsciiCase first "/contact" &&
          (eqIgnoreAsciiCase second "add" || eqIgnoreAsciiCase second "update") then
        maxContactInputBytes
      else maxInputBytes
  | _ => maxInputBytes

def isIdentifierChar (c : Char) : Bool :=
  c.isAlphanum || c == '-' || c == '_'

def checkOperationId (id : String) : Except String Unit :=
  refuse (id.utf8ByteSize < 16 || 128 < id.utf8ByteSize || !id.toList.all isIdentifierChar)
    "invalid operation identifier"

def checkText (text : String) : Except String Unit :=
  refuse (text.isEmpty || commandInputLimit text < text.utf8ByteSize)
    s!"message must contain 1–{commandInputLimit text} UTF-8 bytes"

/-- Requests that look like a submission but control the service. -/
inductive Lifecycle where
  | lock
  | disconnect
  | submit
deriving DecidableEq

def lifecycleRequest (text : String) : Lifecycle :=
  if trimWhitespace text = "/lock" then .lock
  else if trimWhitespace text = "/disconnect" ∨ trimWhitespace text = "/quit" then .disconnect
  else .submit

/-! ### Aliases -/

/-- Replace an alias once; an expansion is not expanded again. -/
def expand (aliases : StringMap String) (text : String) : Except String String :=
  let (name, rest) := splitHead text
  match aliases[toAsciiLowercase name]? with
  | none => .ok text
  | some expansion =>
      let expanded := if rest.isEmpty then expansion else s!"{expansion} {rest}"
      if commandInputLimit expanded < expanded.utf8ByteSize then
        .error "Expanded alias exceeds input limit"
      else .ok expanded

end Journal

end GChat
