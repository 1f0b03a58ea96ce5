import GChat.Contacts.Quiet
import GChat.Foundation.Machine
import Mathlib.Logic.Function.Basic

/-!
# Two parties that exchange messages

Two books `a` and `b` and a network between them. A packet that was handed over
may arrive any number of times, in any order and with any delay, or never. The
network authenticates the sender: a delivery under the identity of a party was
handed over by that party for the receiver. Everybody else may deliver anything.
-/

namespace GChat

namespace Contacts

open Foundation Api

inductive Side where
  | a
  | b
deriving DecidableEq

def Side.other : Side → Side
  | .a => .b
  | .b => .a

@[simp] theorem Side.other_other (x : Side) : x.other.other = x := by
  cases x <;> rfl

theorem Side.other_ne (x : Side) : x.other ≠ x := by
  cases x <;> decide

theorem Side.eq_or_eq_other (x y : Side) : y = x ∨ y = x.other := by
  cases x <;> cases y <;> decide

/-- A message that a party queued for a contact. -/
structure Queued where
  source : Side
  contact : String
  id : Bytes 32
  content : Content
deriving DecidableEq

/-- A packet that a party handed over for a contact. -/
structure Packet where
  source : Side
  contact : String
  body : List UInt8
deriving DecidableEq

/-- A packet of the outbox that a pass of the worker has picked. -/
structure Taken where
  source : Side
  id : String
  pending : Pending
deriving DecidableEq

/-- The two books and the network. `queued`, `taken` and `sent` only grow. -/
structure Exchange where
  book : Side → Book
  queued : List Queued
  taken : List Taken
  sent : List Packet

def Exchange.start : Exchange := ⟨fun _ => Book.default, [], [], []⟩

inductive Event where
  | op (x : Side) (op : Op)
  | take (x : Side) (now : ℕ)
  | send (x : Side) (id : String) (pending : Pending)

section Step

variable (codec : Codec) (identity : Side → List UInt8)

/-- The key of the contact that stands for a party. -/
def sideKey (x : Side) : String := key codec (identity x)

/-- Whether the network may hand a delivery to a party. -/
def Exchange.arrives (s : Exchange) (x : Side) (delivery : ApplicationDelivery) : Bool :=
  match codec.decode delivery.body with
  | none => true
  | some application =>
      application.contentType != mime ||
        [Side.a, Side.b].all fun y =>
          delivery.peerIdentity != identity y ||
            s.sent.contains ⟨y, sideKey codec identity x, application.body⟩

/-- A drawn identifier is new; a delivery under a party's identity is authentic. -/
def Exchange.enabled (s : Exchange) (x : Side) : Op → Bool
  | .queue _ _ _ id _ => s.queued.all (·.id != id)
  | .receive delivery _ => s.arrives codec identity x delivery
  | _ => true

/-- The queued messages after an operation. -/
def Exchange.queuedAfter (s : Exchange) (x : Side) : Op → List Queued
  | .queue contact content operation id _ =>
      if (s.book x).answers contact operation then s.queued
      else ⟨x, contact, id, content⟩ :: s.queued
  | _ => s.queued

/-- A step of the exchange; an operation that returns an error is no step. -/
def Exchange.step (s : Exchange) : Event → Option Exchange
  | .op x op =>
      if s.enabled codec identity x op then
        match op.run codec (s.book x) with
        | .ok next =>
            some { s with
              book := Function.update s.book x next
              queued := s.queuedAfter x op }
        | .error _ => none
      else none
  | .take x now =>
      some { s with
        taken := (outgoing (s.book x) now).map (fun e => ⟨x, e.1, e.2.1⟩) ++ s.taken }
  | .send x id pending =>
      if s.taken.contains ⟨x, id, pending⟩ && maySend (s.book x) id pending then
        (codec.decode pending.wire).map fun application =>
          { s with sent := ⟨x, pending.contact, application.body⟩ :: s.sent }
      else none

def exchange : Machine Exchange Event := Machine.ofPartial Exchange.start (Exchange.step codec identity)

end Step

/-- The decoders read back what the encoders wrote. -/
structure Codec.RoundTrips (codec : Codec) : Prop where
  envelope : ∀ e bytes, codec.toAllocvec e = .ok bytes →
    codec.takeFromBytes bytes = some (e, [])
  application : ∀ m bytes, codec.encode m = .ok bytes → codec.decode bytes = some m

/-- Two parties whose identities share their hash with no other identity. -/
structure Parties (codec : Codec) (identity : Side → List UInt8) : Prop where
  distinct : identity .a ≠ identity .b
  collisionFree : ∀ x i, codec.sha256 i = codec.sha256 (identity x) → i = identity x

variable {codec : Codec} {identity : Side → List UInt8} {s t : Exchange}

theorem hexId_injective {i j : Bytes 32} (h : hex i.toList = hex j.toList) : i = j :=
  Bytes.toList_injective (hex_injective h)

theorem key_injective {i j : List UInt8} (h : key codec i = key codec j) :
    codec.sha256 i = codec.sha256 j :=
  hexId_injective ((String.append_right_inj _).mp h)

theorem Parties.of_key (hp : Parties codec identity) {x : Side} {i : List UInt8}
    (h : key codec i = sideKey codec identity x) : i = identity x :=
  hp.collisionFree x i (key_injective h)

/-! ### What packets say -/

/-- An envelope that a party may truthfully send to a contact. -/
def Exchange.Authentic (s : Exchange) (x : Side) (contact : String) : Envelope → Prop
  | .message id content => ⟨x, contact, id, content⟩ ∈ s.queued
  | .receipt id digest =>
      ∃ c, (s.book x).contacts[contact]? = some c ∧ c.seen[hex id.toList]? = some digest
  | .presence _ _ _ => True

/-- A packet of the outbox holds an authentic envelope. -/
def Exchange.Carries (codec : Codec) (s : Exchange) (x : Side) (p : Pending) : Prop :=
  ∃ envelope, packet codec envelope = .ok p.wire ∧ s.Authentic x p.contact envelope

/-- The contacts of a book keep what they have seen. -/
def SeenKept (book next : Book) : Prop :=
  ∀ (id : String) (c : Contact), book.contacts[id]? = some c →
    ∃ c', next.contacts[id]? = some c' ∧
      ∀ (k : String) (hash : Bytes 32), c.seen[k]? = some hash → c'.seen[k]? = some hash

/-- Nothing that was queued or seen is forgotten. -/
structure Grows (s t : Exchange) : Prop where
  queued : ∀ q ∈ s.queued, q ∈ t.queued
  seen : ∀ x, SeenKept (s.book x) (t.book x)

theorem Exchange.Authentic.mono {x : Side} {contact : String} {envelope : Envelope}
    (h : s.Authentic x contact envelope) (hgrows : Grows s t) :
    t.Authentic x contact envelope := by
  cases envelope with
  | message id content => exact hgrows.queued _ h
  | receipt id digest =>
      obtain ⟨c, hc, hseen⟩ := h
      obtain ⟨c', hc', hkeep⟩ := hgrows.seen x contact c hc
      exact ⟨c', hc', hkeep _ _ hseen⟩
  | presence generation mode expiresAt => trivial

theorem Exchange.Carries.mono {x : Side} {p : Pending} (h : s.Carries codec x p)
    (hgrows : Grows s t) : t.Carries codec x p := by
  obtain ⟨envelope, hwire, hauth⟩ := h
  exact ⟨envelope, hwire, hauth.mono hgrows⟩

/-- The kind and the text of a content; a file shows none. -/
def Content.shown : Content → Option (MessageKind × String)
  | .text s => some (.text, s)
  | .action s => some (.action, s)
  | .notice s => some (.notice, s)
  | .file _ _ => none

/-- A message of a conversation with exactly the content. -/
def Shows (m : Message) (content : Content) : Prop :=
  ∃ kind body, content.shown = some (kind, body) ∧ m.messageKind = some kind ∧ m.body = body

theorem message_eq_some {id : Bytes 32} {conversation name : String} {content : Content}
    {mine : Bool} {timestamp : ℕ} {m : Message}
    (h : message id conversation name content mine timestamp = some m) :
    m.id = hex id.toList ∧ m.mine = mine ∧ Shows m content ∧
      m.delivery = some (if mine then .localAccepted else .delivered) := by
  cases content with
  | text body =>
      cases h
      exact ⟨rfl, rfl, ⟨_, _, rfl, rfl, rfl⟩, rfl⟩
  | action body =>
      cases h
      exact ⟨rfl, rfl, ⟨_, _, rfl, rfl, rfl⟩, rfl⟩
  | notice body =>
      cases h
      exact ⟨rfl, rfl, ⟨_, _, rfl, rfl, rfl⟩, rfl⟩
  | file contentType body => cases h

theorem message_eq_none {id : Bytes 32} {conversation name : String} {content : Content}
    {mine : Bool} {timestamp : ℕ}
    (h : message id conversation name content mine timestamp = none) : content.shown = none := by
  cases content with
  | text body => cases h
  | action body => cases h
  | notice body => cases h
  | file contentType body => rfl

theorem Shows.same {m m' : Message} {content : Content} (h : Shows m content)
    (hsame : SameEntry m m') : Shows m' content := by
  obtain ⟨kind, body, hshown, hkind, hbody⟩ := h
  exact ⟨kind, body, hshown, hsame.messageKind.trans hkind, hsame.body.trans hbody⟩

/-- Two messages that show one content agree in kind and text. -/
theorem Shows.agree {m m' : Message} {content : Content} (h : Shows m content)
    (h' : Shows m' content) : m'.messageKind = m.messageKind ∧ m'.body = m.body := by
  obtain ⟨kind, body, hshown, hkind, hbody⟩ := h
  obtain ⟨kind', body', hshown', hkind', hbody'⟩ := h'
  rw [hshown] at hshown'
  cases hshown'
  exact ⟨hkind'.trans hkind.symm, hbody'.trans hbody.symm⟩

/-- A message that was recorded from the other side: a text in the conversation, or a
file beside it. -/
def Recorded (c : Contact) (id : Bytes 32) (content : Content) : Prop :=
  (∃ m ∈ c.messages, m.mine = false ∧ m.id = hex id.toList ∧ Shows m content) ∨
    (content.shown = none ∧ c.files[hex id.toList]? = some content)

end Contacts

end GChat
