import GChat.Foundation.Bytes
import GChat.Foundation.CharBytes
import GChat.Foundation.Radix
import GChat.Foundation.Words
import Mathlib.Data.List.SplitOn

/-!
# Previews of a membership recovery

A preview names a channel, an epoch, a pending commit and a revision in one token. The command that
removes members repeats the token, followed by the members.
-/

namespace GChat

namespace Recovery

open Foundation

/-- A refusal, or a slice inside a character. -/
inductive Failure where
  | refused (message : String)
  | panic
deriving DecidableEq

structure MembershipRecoveryRequest where
  channelId : Bytes 32
  epoch : UInt64
  pendingCommit : Option (Bytes 16)
  revision : Bytes 32
  removeMembers : List (Bytes 32)
deriving DecidableEq

structure MembershipRecoveryMember where
  memberId : Bytes 32
  displayName : String
  isSelf : Bool
  missingCommit : Bool
  pendingMessages : ℕ

structure MembershipRecoveryStatus where
  channelId : Bytes 32
  epoch : UInt64
  pendingCommit : Option (Bytes 16)
  revision : Bytes 32
  members : List MembershipRecoveryMember
  retainedMessages : ℕ

/-- The text before a byte position and behind it. -/
def sliceRange (chars : List Char) (start stop : ℕ) : Except Failure (List Char) :=
  match splitAtByte chars stop with
  | none => .error .panic
  | some (front, _) =>
      match splitAtByte front start with
      | none => .error .panic
      | some (_, piece) => .ok piece

def isLowerHex (c : Char) : Bool :=
  (48 ≤ c.toNat && c.toNat ≤ 57) || (97 ≤ c.toNat && c.toNat ≤ 102)

def hexPair (chars : List Char) (index : ℕ) : Except Failure UInt8 :=
  match sliceRange chars (index * 2) (index * 2 + 2) with
  | .error failure => .error failure
  | .ok pair =>
      match fromStrRadix 16 256 pair with
      | none => .error (.refused "Invalid recovery identifier")
      | some value => .ok (UInt8.ofNat value)

/-- The bytes of a text of lowercase digits. -/
def bytes (n : ℕ) (text : List Char) : Except Failure (Bytes n) :=
  if byteSize text ≠ n * 2 ∨ text.all isLowerHex = false then
    .error (.refused "Invalid recovery preview; open Channel recovery again")
  else
    match (List.range n).mapM (hexPair text) with
    | .error failure => .error failure
    | .ok result =>
        if h : result.length = n then .ok ⟨result, h⟩
        else .error (.refused "Invalid recovery identifier")

def parseEpoch (text : List Char) : Except Failure UInt64 :=
  match fromStrRadix 10 (2 ^ 64) text with
  | none => .error (.refused "Invalid recovery epoch")
  | some epoch => .ok (UInt64.ofNat epoch)

def parsePending (text : List Char) : Except Failure (Option (Bytes 16)) :=
  if text = ['-'] then .ok none else (bytes 16 text).map some

def parse (args : String) : Except Failure MembershipRecoveryRequest :=
  match splitWhitespace args with
  | [] => .error (.refused "Missing recovery preview")
  | token :: words =>
      match token.toList.splitOn '.' with
      | [channel, epoch, pending, revision] => do
          let removeMembers ← words.mapM fun word => bytes 32 word.toList
          if removeMembers.isEmpty || 128 < removeMembers.length then
            .error (.refused "Select between 1 and 128 members")
          else do
            let channelId ← bytes 32 channel
            let epoch ← parseEpoch epoch
            let pendingCommit ← parsePending pending
            let revision ← bytes 32 revision
            .ok ⟨channelId, epoch, pendingCommit, revision, removeMembers⟩
      | _ => .error (.refused "Invalid recovery preview")

/-! ### The output -/

structure RecoveryMember where
  id : String
  nickname : String
  isSelf : Bool
  missingCommit : Bool
  pendingMessages : ℕ

structure MembershipRecovery where
  channel : String
  expected : String
  epoch : String
  pending : Bool
  retainedMessages : ℕ
  members : List RecoveryMember

/-- The token of a preview. -/
def expected (channelId : Bytes 32) (epoch : UInt64) (pendingCommit : Option (Bytes 16))
    (revision : Bytes 32) : List Char :=
  hexChars channelId.toList ++ '.' :: (decimal epoch.toNat ++ '.' ::
    (((pendingCommit.map fun id => hexChars id.toList).getD ['-']) ++ '.' ::
      hexChars revision.toList))

def output (channel : String) (status : MembershipRecoveryStatus) : MembershipRecovery where
  channel := channel
  expected := String.ofList
    (expected status.channelId status.epoch status.pendingCommit status.revision)
  epoch := String.ofList (decimal status.epoch.toNat)
  pending := status.pendingCommit.isSome
  retainedMessages := status.retainedMessages
  members := status.members.map fun m =>
    ⟨hex m.memberId.toList, m.displayName, m.isSelf, m.missingCommit, m.pendingMessages⟩

end Recovery

end GChat
