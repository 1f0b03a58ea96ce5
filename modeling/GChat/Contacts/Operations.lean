import GChat.Contacts.Model

/-!
# The operations of a contact book

The commands of the profile's owner and the progress of the outbox, beside the
packets of `Contacts.Model`. Every operation returns the new book or the message
of the error; on an error the book stays as it was, because the service works on
a copy.
-/

namespace GChat

namespace Contacts

open Foundation Api

/-! ### Names -/

/-- The key of the contact a name stands for: a key itself, or else the first contact
in the order of the keys with that alias. -/
def resolve (book : Book) (name : String) : Except String String :=
  if book.contacts.contains name then .ok name
  else
    okOr ((book.contacts.toList.find? fun e => eqIgnoreAsciiCase e.2.name name).map (·.1))
      "Unknown contact; use /contact list"

/-- The check on a new alias. -/
def checkAlias (value : String) : Except String Unit :=
  refuse (value.isEmpty || 128 < value.utf8ByteSize ||
      value.toList.any fun c => isWhitespace c || isControl c)
    "Choose a contact alias of 1–128 bytes without spaces"

/-- A contact as it is added. -/
def Contact.added (identity : List UInt8) (card : ContactCard) (name : String) : Contact :=
  { presence := PresenceState.default
    identity := identity
    card := card
    name := name
    verified := false
    blocked := false
    messages := []
    seen := ∅
    files := ∅
    read := none
    error := none }

/-- The read marker moves to a later message only. -/
def markRead (book : Book) (id messageId : String) : Except String Book := do
  let contact ← okOr book.contacts[id]? "Unknown contact"
  let next ← okOr (contact.messages.findIdx? (·.id == messageId)) "Unknown read marker"
  let old := contact.read.bind fun id => contact.messages.findIdx? (·.id == id)
  if old.all (· < next) then pure (book.setContact id { contact with read := some messageId })
  else pure book

section Commands

variable (codec : Codec)

/-- Add the contact of a card; `own` is the identity of the profile itself. -/
def contactAdd (book : Book) (name : String) (card : ContactCard)
    (identity own : List UInt8) : Except String Book := do
  checkAlias name
  refuse (identity == own) "This is your own contact card"
  let id := key codec identity
  refuse (maxContacts ≤ book.contacts.size) "Contact limit reached"
  refuse (book.contacts.contains id ||
      book.contacts.toList.any fun e => eqIgnoreAsciiCase e.2.name name)
    "Contact or alias already exists; use update or rename"
  pure (book.setContact id (Contact.added identity card name))

/-- Replace the card of a contact whose identity is the same. -/
def contactUpdate (book : Book) (name : String) (card : ContactCard)
    (identity own : List UInt8) : Except String Book := do
  checkAlias name
  refuse (identity == own) "This is your own contact card"
  let id := key codec identity
  let resolved ← resolve book name
  refuse (resolved != id) "Contact identity changed; add a separate contact explicitly"
  let contact ← okOr book.contacts[id]? "resolved"
  pure (book.setContact id { contact with card := card })

end Commands

def contactRename (book : Book) (name newName : String) : Except String Book := do
  let id ← resolve book name
  checkAlias newName
  refuse (book.contacts.toList.any fun e => e.1 != id && eqIgnoreAsciiCase e.2.name newName)
    "Contact alias already exists"
  let contact ← okOr book.contacts[id]? "resolved"
  pure (book.setContact id { contact with name := newName })

/-- The fingerprint shown for a contact. -/
def fingerprint (id : String) : String := trimStartMatches id "contact/"

def contactVerify (book : Book) (name given : String) : Except String Book := do
  let id ← resolve book name
  refuse (!eqIgnoreAsciiCase given (fingerprint id)) "Fingerprint does not match this contact"
  let contact ← okOr book.contacts[id]? "resolved"
  pure (book.setContact id { contact with verified := true })

/-- An own message that was not delivered fails when its contact is blocked. -/
def giveUp (m : Message) : Message :=
  if m.mine && m.delivery == some .localAccepted then { m with delivery := some .failed } else m

def Contact.shutOut (c : Contact) : Contact :=
  { c with
    blocked := true
    presence := { c.presence with desired := none, observed := none, expiresAt := 0 }
    messages := c.messages.map giveUp }

/-- Block or unblock a contact; a blocked one loses its packets. -/
def block (book : Book) (id : String) (blocked : Bool) : Except String Book := do
  let contact ← okOr book.contacts[id]? "Unknown contact"
  if blocked then
    pure { book with
      contacts := book.contacts.insert id contact.shutOut
      outbox := book.outbox.filter fun _ p => p.contact != id }
  else pure (book.setContact id { contact with blocked := false })

/-! ### The commands about presence -/

def away (codec : Codec) (book : Book) (id args : String) (now : ℕ) : Except String Book := do
  refuse (256 < args.utf8ByteSize || args.toList.any isControl)
    "Away reasons accept up to 256 bytes without control characters"
  queuePresence codec book id (some (.away args)) now

def back (codec : Codec) (book : Book) (id : String) (now : ℕ) : Except String Book :=
  queuePresence codec book id (some .available) now

def presenceOff (codec : Codec) (book : Book) (id : String) (now : ℕ) : Except String Book :=
  queuePresence codec book id none now

/-! ### Progress of the outbox -/

/-- The contacts whose shared presence is due for a new lease. -/
def renewals (book : Book) (now : ℕ) : List (String × Option ContactPresence) :=
  (book.contacts.toList.filter fun e =>
    !e.2.blocked && e.2.presence.desired.isSome && e.2.presence.renewAt ≤ now &&
      !book.outbox.contains (presenceId e.1)).map fun e => (e.1, e.2.presence.desired)

/-- One lease of a pass; a full outbox waits for the next pass. -/
def renewOne (codec : Codec) (now : ℕ) (book : Book)
    (renewal : String × Option ContactPresence) : Except String Book :=
  if book.outbox.size < maxPending then queuePresence codec book renewal.1 renewal.2 now
  else pure book

def renewPresence (codec : Codec) (book : Book) (now : ℕ) : Except String Book :=
  (renewals book now).foldlM (renewOne codec now) book

def Pending.retryDue (now : ℕ) (p : Pending) : Bool :=
  p.lastAttempt == 0 || 30 ≤ now - p.lastAttempt

/-- Receipts go first, then the packets that have waited longest. -/
def Pending.before (p q : Pending) : Bool :=
  if p.receipt == q.receipt then p.lastAttempt ≤ q.lastAttempt else p.receipt

/-- The packets of a pass, at most four, each with the card it goes to. -/
def outgoing (book : Book) (now : ℕ) : List (String × Pending × ContactCard) :=
  let pending := (book.outbox.toList.filter fun e => e.2.retryDue now).filterMap fun e =>
    (book.contacts[e.2.contact]?.filter fun c => !c.blocked).map fun c => (e.1, e.2, c.card)
  (pending.mergeSort fun e f => e.2.1.before f.2.1).take 4

/-- The check made under the lock just before a packet is handed over. -/
def maySend (book : Book) (id : String) (pending : Pending) : Bool :=
  book.outbox[id]?.any (fun p => p.wire == pending.wire) &&
    book.contacts[pending.contact]?.any fun c => !c.blocked

def Contact.sent (failure : Option String) (c : Contact) : Contact := { c with error := failure }

/-- Record the outcome of handing a packet over. -/
def completeSend (book : Book) (id : String) (pending : Pending) (failure : Option String)
    (now : ℕ) : Except String Book :=
  match book.outbox[id]? with
  | none => .ok book
  | some stored =>
      if stored.wire != pending.wire then .error "Contact operation identity changed"
      else
        let contacts := match book.contacts[pending.contact]? with
          | some peer => book.contacts.insert pending.contact (peer.sent failure)
          | none => book.contacts
        .ok { book with
          contacts := contacts
          outbox :=
            if pending.receipt && failure.isNone then book.outbox.erase id
            else book.outbox.insert id { stored with lastAttempt := now } }

/-! ### Operations as values -/

/-- Everything that can change a book. -/
inductive Op where
  | add (name : String) (card : ContactCard) (identity own : List UInt8)
  | update (name : String) (card : ContactCard) (identity own : List UInt8)
  | rename (name newName : String)
  | verify (name given : String)
  | block (id : String) (blocked : Bool)
  | queue (contact : String) (content : Content) (operation : String) (id : Bytes 32) (now : ℕ)
  | away (contact args : String) (now : ℕ)
  | back (contact : String) (now : ℕ)
  | presenceOff (contact : String) (now : ℕ)
  | renew (now : ℕ)
  | completeSend (id : String) (pending : Pending) (failure : Option String) (now : ℕ)
  | markRead (id messageId : String)
  | receive (delivery : ApplicationDelivery) (now : ℕ)

def Op.run (codec : Codec) (book : Book) : Op → Except String Book
  | .add name card identity own => contactAdd codec book name card identity own
  | .update name card identity own => contactUpdate codec book name card identity own
  | .rename name newName => contactRename book name newName
  | .verify name given => contactVerify book name given
  | .block id blocked => Contacts.block book id blocked
  | .queue contact content operation id now =>
      Contacts.queue codec book contact content operation id now
  | .away contact args now => Contacts.away codec book contact args now
  | .back contact now => Contacts.back codec book contact now
  | .presenceOff contact now => Contacts.presenceOff codec book contact now
  | .renew now => renewPresence codec book now
  | .completeSend id pending failure now => Contacts.completeSend book id pending failure now
  | .markRead id messageId => Contacts.markRead book id messageId
  | .receive delivery now => (Contacts.receive codec book delivery now).map (·.1)

end Contacts

end GChat
