import GChat.Api.Message
import GChat.Foundation.Bytes
import GChat.Foundation.Outcome
import GChat.Foundation.StringMap
import GChat.Foundation.Text

/-!
# Independent contacts

A book holds the contacts of one profile and the packets that wait to be sent to
them. A contact stands under a key computed from its identity. Messages travel
as envelopes inside application messages; the two encodings and the hash come
from outside and are fields of `Codec`.
-/

namespace GChat

namespace Contacts

open Foundation Api

def maxContacts : ℕ := 256

def maxPending : ℕ := 512

/-- The bound on the messages and on the seen identifiers of one contact. -/
def maxMessages : ℕ := 10000

def u64Max : ℕ := 2 ^ 64 - 1

def saturatingAdd (a b : ℕ) : ℕ := min (a + b) u64Max

def saturatingMul (a b : ℕ) : ℕ := min (a * b) u64Max

abbrev ContactCard := List UInt8

inductive ContactPresence where
  | available
  | away (reason : String)
  | unknown
deriving DecidableEq

structure PresenceState where
  desired : Option ContactPresence
  generation : ℕ
  renewAt : ℕ
  observedGeneration : ℕ
  observed : Option ContactPresence
  expiresAt : ℕ
deriving DecidableEq

def PresenceState.default : PresenceState := ⟨none, 0, 0, 0, none, 0⟩

inductive Content where
  | text (s : String)
  | action (s : String)
  | notice (s : String)
  | file (contentType : String) (body : List UInt8)
deriving DecidableEq

inductive Envelope where
  | message (id : Bytes 32) (content : Content)
  | receipt (id : Bytes 32) (digest : Bytes 32)
  | presence (generation : ℕ) (mode : ContactPresence) (expiresAt : ℕ)
deriving DecidableEq

structure Contact where
  presence : PresenceState
  identity : List UInt8
  card : ContactCard
  name : String
  verified : Bool
  blocked : Bool
  messages : List Message
  seen : StringMap (Bytes 32)
  files : StringMap Content
  read : Option String
  error : Option String

/-- A packet that waits in the outbox. `receipt` marks packets that are dropped once
they are sent. -/
structure Pending where
  contact : String
  wire : List UInt8
  lastAttempt : ℕ
  receipt : Bool
  digest : Bytes 32
deriving DecidableEq

structure Book where
  version : ℕ
  contacts : StringMap Contact
  outbox : StringMap Pending

def Book.default : Book := ⟨1, ∅, ∅⟩

/-- An application message of the protocol library. -/
structure ApplicationMessage where
  contentType : String
  body : List UInt8
deriving DecidableEq

/-- A message the protocol delivers, with the identity it authenticated. -/
structure ApplicationDelivery where
  sourceComponent : Option String
  destinationComponent : Option String
  peerIdentity : List UInt8
  receivedAtUnix : ℕ
  body : List UInt8
deriving DecidableEq

/-- The hash, the envelope encoding and the application encoding. -/
structure Codec where
  sha256 : List UInt8 → Bytes 32
  toAllocvec : Envelope → Except String (List UInt8)
  takeFromBytes : List UInt8 → Option (Envelope × List UInt8)
  encode : ApplicationMessage → Except String (List UInt8)
  decode : List UInt8 → Option ApplicationMessage

def mime : String := "application/vnd.gchat.contact.v1"

section Operations

variable (codec : Codec)

/-- The key of the contact with an identity. -/
def key (identity : List UInt8) : String :=
  "contact/" ++ hex (codec.sha256 identity).toList

def packet (envelope : Envelope) : Except String (List UInt8) := do
  let body ← codec.toAllocvec envelope
  codec.encode ⟨mime, body⟩

def digest (envelope : Envelope) : Except String (Bytes 32) := do
  let bytes ← codec.toAllocvec envelope
  pure (codec.sha256 bytes)

/-- The formatting characters a text may hold besides printable ones. -/
def allowedControl (c : Char) : Bool :=
  c.toNat == 0x0A || c.toNat == 0x09 || c.toNat == 0x02 || c.toNat == 0x03 ||
    c.toNat == 0x0F || c.toNat == 0x16 || c.toNat == 0x1D || c.toNat == 0x1F

def validText (text : String) : Bool :=
  !text.isEmpty && text.utf8ByteSize ≤ 8192 &&
    !text.toList.any fun c => isControl c && !allowedControl c

def validContent : Content → Bool
  | .text text => validText text
  | .action text => validText text
  | .notice text => validText text
  | .file contentType body =>
      !contentType.isEmpty && contentType.utf8ByteSize ≤ 128 &&
        contentType.toList.all isAscii && body.length ≤ 512 * 1024

def validateContent (content : Content) : Except String Unit :=
  refuse (!validContent content) "Invalid contact message"

/-- The condition a stored contact must meet under its key. -/
def contactOk (id : String) (c : Contact) : Bool :=
  key codec c.identity == id && !c.name.isEmpty && c.messages.length ≤ maxMessages &&
    c.seen.size ≤ maxMessages

/-- The check made when a profile is unlocked. -/
def validateBook (book : Book) : Except String Unit :=
  refuse
    (book.version != 1 || maxContacts < book.contacts.size || maxPending < book.outbox.size ||
      (book.contacts.toList.any fun e => !contactOk codec e.1 e.2) ||
      book.outbox.toList.any fun e => !book.contacts.contains e.2.contact)
    "Contact archive is outside supported bounds"

/-- The entry of a text in a conversation; a file has none. -/
def message (id : Bytes 32) (conversation name : String) (content : Content) (mine : Bool)
    (timestamp : ℕ) : Option Message :=
  let entry (kind : MessageKind) (body : String) : Message :=
    { messageKind := some kind
      id := hex id.toList
      conversationId := conversation
      memberId := if mine then none else some conversation
      nickname := if mine then "You" else name
      body := body
      timestamp := timestamp
      mine := mine
      operationId := none
      delivery := some (if mine then .localAccepted else .delivered) }
  match content with
  | .text s => some (entry .text s)
  | .action s => some (entry .action s)
  | .notice s => some (entry .notice s)
  | .file _ _ => none

def Contact.push (m : Option Message) (c : Contact) : Contact :=
  { c with messages := c.messages ++ m.toList }

/-- Queue a message under a freshly drawn identifier. -/
def queue (book : Book) (contact : String) (content : Content) (operation : String)
    (id : Bytes 32) (now : ℕ) : Except String Book := do
  validateContent content
  refuse (maxPending ≤ book.outbox.size) "Contact outbox is full; wait for pending delivery"
  let peer ← okOr book.contacts[contact]? "Unknown contact"
  refuse peer.blocked "Contact is blocked"
  refuse (maxMessages ≤ peer.messages.length) "Contact archive message limit reached"
  -- the same operation again is answered by the message it queued
  if peer.messages.any fun m => m.operationId == some operation then pure book
  else
    let envelope := Envelope.message id content
    let own := (message id contact peer.name content true now).map fun m =>
      { m with operationId := some operation }
    let wire ← packet codec envelope
    let digest ← digest codec envelope
    pure { book with
      contacts := book.contacts.insert contact (peer.push own)
      outbox := book.outbox.insert (hex id.toList) ⟨contact, wire, 0, false, digest⟩ }

def presenceId (contact : String) : String := contact ++ "/presence"

/-- The presence of a contact with a new lease. -/
def PresenceState.renew (presence : PresenceState) (desired : Option ContactPresence)
    (now : ℕ) : PresenceState :=
  { presence with
    desired := desired
    generation := max (saturatingAdd presence.generation 1) (saturatingMul now 1000)
    renewAt := saturatingAdd now 420 }

def queuePresence (book : Book) (contact : String) (desired : Option ContactPresence)
    (now : ℕ) : Except String Book := do
  let peer ← okOr book.contacts[contact]? "Unknown contact"
  refuse peer.blocked "Contact is blocked"
  let id := presenceId contact
  refuse (maxPending ≤ book.outbox.size && !book.outbox.contains id) "Contact outbox is full"
  let presence := peer.presence.renew desired now
  let envelope := Envelope.presence presence.generation (desired.getD .unknown)
    (saturatingAdd now 600)
  let wire ← packet codec envelope
  let digest ← digest codec envelope
  pure { book with
    contacts := book.contacts.insert contact { peer with presence := presence }
    outbox := book.outbox.insert id ⟨contact, wire, 0, true, digest⟩ }

/-! ### Receiving -/

def Book.setContact (book : Book) (id : String) (c : Contact) : Book :=
  { book with contacts := book.contacts.insert id c }

def Contact.withError (message : String) (c : Contact) : Contact := { c with error := some message }

def validMode : ContactPresence → Bool
  | .away reason => !(256 < reason.utf8ByteSize || reason.toList.any isControl)
  | _ => true

/-- A presence is a bounded lease; it never makes a receipt. -/
def receivePresence (book : Book) (contact : String) (peer : Contact) (generation : ℕ)
    (mode : ContactPresence) (expiresAt now : ℕ) : Book :=
  if validMode mode && peer.presence.observedGeneration < generation &&
      expiresAt ≤ saturatingAdd now 600 then
    book.setContact contact { peer with
      presence := { peer.presence with
        observedGeneration := generation
        observed := some mode
        expiresAt := expiresAt } }
  else book

/-- Mark the own message of an identifier as delivered. -/
def promote (id : String) (m : Message) : Message :=
  if m.id == id && m.mine then { m with delivery := some .delivered } else m

def Pending.acknowledgedBy (contact : String) (digest : Bytes 32) (p : Pending) : Bool :=
  !p.receipt && p.contact == contact && p.digest == digest

def receiveReceipt (book : Book) (contact : String) (peer : Contact) (id digest : Bytes 32) :
    Book :=
  let id := hex id.toList
  if book.outbox[id]?.any (Pending.acknowledgedBy contact digest) then
    { book with
      contacts := book.contacts.insert contact
        { peer with messages := peer.messages.map (promote id) }
      outbox := book.outbox.erase id }
  else book

/-- A contact with a received message: a text in the conversation, a file beside it,
and its hash among the seen ones. -/
def Contact.record (c : Contact) (contact : String) (id : Bytes 32) (content : Content)
    (hash : Bytes 32) (receivedAt : ℕ) : Contact :=
  let messageId := hex id.toList
  match message id contact c.name content false receivedAt with
  | some m => { c with messages := c.messages ++ [m], seen := c.seen.insert messageId hash }
  | none =>
      { c with
        files := c.files.insert messageId content
        seen := c.seen.insert messageId hash }

def ackId (contact : String) (id : Bytes 32) : String := contact ++ "/ack/" ++ hex id.toList

def receiveMessage (book : Book) (contact : String) (peer : Contact) (id : Bytes 32)
    (content : Content) (receivedAt : ℕ) : Except String Book :=
  match validateContent content with
  | .error error => .ok (book.setContact contact (peer.withError error))
  | .ok () => do
      let hash ← digest codec (.message id content)
      let messageId := hex id.toList
      if peer.seen[messageId]?.any (· != hash) then
        pure (book.setContact contact
          (peer.withError "Contact reused a message identity with different content"))
      else
        refuse (maxPending ≤ book.outbox.size) "Contact receipt outbox is full"
        let fresh := !peer.seen.contains messageId
        refuse (fresh && (maxMessages ≤ peer.messages.length || maxMessages ≤ peer.seen.size))
          "Contact archive limit reached"
        let wire ← packet codec (.receipt id hash)
        pure { book with
          contacts := book.contacts.insert contact
            (if fresh then peer.record contact id content hash receivedAt else peer)
          outbox := book.outbox.insert (ackId contact id) ⟨contact, wire, 0, true, hash⟩ }

def receiveEnvelope (book : Book) (contact : String) (peer : Contact) (envelope : Envelope)
    (receivedAt now : ℕ) : Except String Book :=
  match envelope with
  | .presence generation mode expiresAt =>
      .ok (receivePresence book contact peer generation mode expiresAt now)
  | .receipt id digest => .ok (receiveReceipt book contact peer id digest)
  | .message id content => receiveMessage codec book contact peer id content receivedAt

/-- Receive a delivery. The flag says whether it belongs to this protocol. -/
def receive (book : Book) (delivery : ApplicationDelivery) (now : ℕ) :
    Except String (Book × Bool) :=
  if delivery.sourceComponent.isSome || delivery.destinationComponent.isSome then
    .ok (book, false)
  else
    match codec.decode delivery.body with
    | none => .ok (book, false)
    | some application =>
        if application.contentType != mime then .ok (book, false)
        else
          let contact := key codec delivery.peerIdentity
          match book.contacts[contact]? with
          | none => .ok (book, true)
          | some peer =>
              if peer.blocked then .ok (book, true)
              else
                match codec.takeFromBytes application.body with
                | some (envelope, []) =>
                    (receiveEnvelope codec book contact peer envelope delivery.receivedAtUnix
                      now).map fun book => (book, true)
                | _ =>
                    .ok (book.setContact contact
                      (peer.withError "Contact sent an invalid message"), true)

end Operations

end Contacts

end GChat
