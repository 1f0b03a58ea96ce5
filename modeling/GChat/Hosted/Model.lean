import GChat.Api.Message
import GChat.Foundation.Bytes
import GChat.Foundation.Outcome
import GChat.Foundation.StringMap
import GChat.Foundation.Text

/-!
# Hosted channels

The archive of a hosted channel and its parts: the messages and files received
so far, the operations behind own messages, and the names that were observed for
the members. The kinds of events and the texts that describe them are here too.
-/

namespace GChat

namespace Hosted

open Foundation Api

/-- An identifier of a channel, a member or a message. -/
abbrev Id := Bytes 32

/-! ### The channel as the protocol library reports it -/

structure Member where
  id : Id
  nickname : String
deriving DecidableEq

/-- A channel; `view` stands for the fields that only the views read. -/
structure Channel where
  id : Id
  selfMember : Id
  members : List Member
  view : List UInt8
deriving DecidableEq

inductive Content where
  | text (s : String)
  | action (s : String)
  | notice (s : String)
  | file (contentType : String) (body : List UInt8)
  | topic (s : String)
  | nickname (s : String)
  | presence
  | topicState
deriving DecidableEq

/-- The delivery state the service reports. -/
inductive Status where
  | pending
  | serviceAccepted (sequence : ℕ)
  | delivered
  | failed (reason : String)
deriving DecidableEq

inductive Mode where
  | moderated
  | inviteOnly
  | topicOperators
deriving DecidableEq

inductive AccessList where
  | ban
  | exemption
  | inviteException
deriving DecidableEq

inductive Discovery where
  | isPublic
  | isPrivate
  | secret
deriving DecidableEq

inductive Role where
  | owner
  | operator
  | voice
  | member
deriving DecidableEq

inductive Change where
  | mode (mode : Mode) (on : Bool)
  | operator (id : Id) (on : Bool)
  | voice (id : Id) (on : Bool)
  | accessList (list : AccessList) (id : Id) (on : Bool)
  | listing (name : String)
  | capacity (n : ℕ)
  | discovery (value : Discovery)
  | transfer (id : Id)
  | kick (id : Id)
  | leave
  | close
  | role (id : Id) (role : Role)
  | invitation (expiresAt : ℕ)
  | accessCode (verifier : Option (List UInt8))
deriving DecidableEq

inductive EventKind where
  | message (id sender : Id) (content : Content) (status : Status)
  | delivery (id : Id) (status : Status)
  | activity (actor : Id) (change : Change) (reason : Option String)
  | joined (member : Id) (nickname : String)
  | removed
  | unavailable (sender : Id) (reason : String)
  | operationFailed (reason : String)
deriving DecidableEq

structure Event where
  sequence : ℕ
  channel : Id
  acceptedAt : ℕ
  kind : EventKind
deriving DecidableEq

/-! ### The archive -/

structure ObservedName where
  member : Id
  nickname : String
  observedAt : ℕ
deriving DecidableEq

structure Archive where
  channel : Channel
  cursor : ℕ
  messages : List Message
  files : StringMap Content
  operations : StringMap String
  error : Option String
  names : List ObservedName
deriving DecidableEq

structure Activity where
  id : String
  conversation : String
  kind : String
  text : String
  timestamp : ℕ
deriving DecidableEq

/-- The part of the archived state that the hosted channels write. -/
structure UiState where
  hosted : StringMap Archive
  activity : List Activity
deriving DecidableEq

def key (id : Id) : String := "hosted/" ++ hex id.toList

/-- The archive of a channel that was not seen before. -/
def Archive.opened (channel : Channel) : Archive :=
  { channel := channel
    cursor := 0
    messages := []
    files := ∅
    operations := ∅
    error := none
    names := [] }

/-! ### Names -/

/-- The number of observations a channel retains. -/
def maxNames : ℕ := 2048

def lastName (names : List ObservedName) (member : Id) : Option String :=
  (names.reverse.find? (·.member == member)).map (·.nickname)

/-- Add an observation that is new for its member; the oldest goes beyond the bound. -/
def observe (names : List ObservedName) (member : Id) (nickname : String) (observedAt : ℕ) :
    List ObservedName :=
  if lastName names member == some nickname then names
  else
    let names := names ++ [⟨member, nickname, observedAt⟩]
    if maxNames < names.length then names.tail else names

def Archive.observeName (room : Archive) (member : Id) (nickname : String) (observedAt : ℕ) :
    Archive :=
  { room with names := observe room.names member nickname observedAt }

/-- The name of a member that was never observed. -/
def unobservedName (channel : Channel) (member : Id) : String :=
  ((channel.members.find? (·.id == member)).map (·.nickname)).getD
    ("member-" ++ String.ofList ((hexChars member.toList).take 8))

def nameOf (channel : Channel) (names : List ObservedName) (member : Id) : String :=
  (lastName names member).getD (unobservedName channel member)

def Archive.observedNickname (room : Archive) (member : Id) : String :=
  nameOf room.channel room.names member

/-! ### Identifiers in text -/

def hexValue (c : Char) : Option ℕ :=
  if '0' ≤ c ∧ c ≤ '9' then some (c.toNat - 48)
  else if 'a' ≤ c ∧ c ≤ 'f' then some (c.toNat - 87)
  else if 'A' ≤ c ∧ c ≤ 'F' then some (c.toNat - 55)
  else none

/-- The bytes of pairs of hexadecimal digits. -/
def fromHex : List Char → Option (List UInt8)
  | [] => some []
  | [_] => none
  | a :: b :: rest => do
      let high ← hexValue a
      let low ← hexValue b
      let bytes ← fromHex rest
      pure (UInt8.ofNat (16 * high + low) :: bytes)

/-- The identifier a text of 64 hexadecimal digits stands for. -/
def directoryCursor (value : String) : Except String Id :=
  match fromHex value.toList with
  | none => .error "Use the directory's next-page cursor"
  | some bytes =>
      if h : bytes.length = 32 then .ok ⟨bytes, h⟩
      else .error "Use the directory's next-page cursor"

/-! ### Texts -/

def delivery : Status → Delivery
  | .pending => .localAccepted
  | .serviceAccepted _ => .serviceAccepted
  | .delivered => .delivered
  | .failed _ => .failed

def switch (enabled : Bool) : String := if enabled then "enabled" else "disabled"

def modeText : Mode → String
  | .moderated => "moderated posting"
  | .inviteOnly => "invite-only admission"
  | .topicOperators => "operator-only topics"

def accessListText : AccessList → String
  | .ban => "ban"
  | .exemption => "ban exemption"
  | .inviteException => "invite exception"

def discoveryText : Discovery → String
  | .isPublic => "public"
  | .isPrivate => "private"
  | .secret => "secret"

def roleText : Role → String
  | .owner => "owner"
  | .operator => "operator"
  | .voice => "voice"
  | .member => "member"

def describeChange (change : Change) (name : Id → String) : String :=
  match change with
  | .mode mode on => switch on ++ " " ++ modeText mode
  | .operator id on => switch on ++ " operator permission for " ++ name id
  | .voice id on => switch on ++ " voice for " ++ name id
  | .accessList list id on =>
      (if on then "added" else "removed") ++ " " ++ name id ++ " " ++
        (if on then "to" else "from") ++ " the " ++ accessListText list ++ " list"
  | .listing name =>
      if name.isEmpty then "withdrew public directory publication"
      else "published the public directory name " ++ name
  | .capacity n => "set capacity to " ++ toString n
  | .discovery value => "made channel discovery " ++ discoveryText value
  | .transfer id => "transferred ownership to " ++ name id
  | .kick id => "removed " ++ name id
  | .leave => "left the channel"
  | .close => "closed the channel"
  | .role id role => "changed " ++ name id ++ "'s role to " ++ roleText role
  | .invitation expiresAt =>
      if expiresAt == 0 then "revoked an invitation" else "created a single-use invitation"
  | .accessCode verifier =>
      if verifier.isSome then "rotated the reusable admission code"
      else "disabled the reusable admission code"

end Hosted

end GChat
