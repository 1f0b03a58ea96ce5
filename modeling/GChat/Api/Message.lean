import Mathlib.Data.Nat.Notation

/-!
# Messages as the views see them

The message of a conversation in the form the client interface uses. Contacts
and hosted channels keep their conversations in this form.
-/

namespace GChat

namespace Api

/-- Delivered is an authenticated acknowledgement of the recipient. -/
inductive Delivery where
  | localAccepted
  | delivered
  | serviceAccepted
  | failed
deriving DecidableEq

inductive MessageKind where
  | text
  | action
  | notice
deriving DecidableEq

structure Message where
  messageKind : Option MessageKind
  id : String
  conversationId : String
  memberId : Option String
  nickname : String
  body : String
  timestamp : ℕ
  mine : Bool
  operationId : Option String
  delivery : Option Delivery
deriving DecidableEq

end Api

end GChat
