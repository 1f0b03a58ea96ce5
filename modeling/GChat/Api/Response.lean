import Mathlib.Data.Nat.Notation

/-!
# Responses of the chat service

What a submitted command answers, in the form the client interface uses.
-/

namespace GChat

namespace Api

structure InvitationRecord where
  id : String
  expires : Option ℕ
  limit : Option ℕ
  admitted : ℕ
  pending : ℕ
  revoked : Bool
deriving DecidableEq

structure CommandSpec where
  name : String
  usage : String
  description : String
  scope : String
  capability : Option String
  available : Bool
deriving DecidableEq

structure DirectoryEntry where
  name : String
  joined : Bool
  conversation : Option String
deriving DecidableEq

structure RecoveryMember where
  id : String
  nickname : String
  isSelf : Bool
  missingCommit : Bool
  pendingMessages : ℕ
deriving DecidableEq

inductive CommandOutput where
  | invitationOptions (channel : String)
  | invitations (channel : String) (records : List InvitationRecord)
  | reusableInvitation (channel link id : String) (expires limit : Option ℕ) (localOnly : Bool)
  | enrollment (id channel phase : String) (attempts : ℕ) (message : Option String)
  | enrollments (entries : List CommandOutput)
  | help (commands : List CommandSpec)
  | directory (channels : List DirectoryEntry)
  | invitation (channel link : String) (expires : ℕ) (localOnly : Bool)
  | text (title text : String)
  | status (text : String)
  | close (conversation : String)
  | membershipRecovery (channel expected epoch : String) (pending : Bool)
      (retainedMessages : ℕ) (members : List RecoveryMember)

/-- A response. `reply` stands for the variants that answer requests other than a
submitted command; the command path only passes them on. -/
inductive Response where
  | output (conversation : Option String) (value : CommandOutput)
  | applied (conversation notice : Option String)
  | error (code message : String)
  | reply (body : String)

def Response.isOutcomeUnknown : Response → Bool
  | .error code _ => code == "outcome_unknown"
  | _ => false

/-- The part of a response that a typed caller is given. -/
inductive SubmitOutcome where
  | applied (conversation notice : Option String)
  | output (conversation : Option String) (value : CommandOutput)

structure ChatError where
  code : String
  message : String
deriving DecidableEq

def SubmitOutcome.tryFrom : Response → Except ChatError SubmitOutcome
  | .applied conversation notice => .ok (.applied conversation notice)
  | .output conversation value => .ok (.output conversation value)
  | .error code message => .error ⟨code, message⟩
  | .reply _ => .error ⟨"protocol", "unexpected submit result"⟩

end Api

end GChat
