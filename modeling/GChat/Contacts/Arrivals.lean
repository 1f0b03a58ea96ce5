import GChat.Contacts.Quiet

/-!
# Deliveries that reach a contact

A delivery brings an envelope if it is one of this protocol, from a contact that
is not blocked. Everything a delivery does beyond an error goes through such an
envelope; for a message this module says when it is accepted and with which book.
-/

namespace GChat

namespace Contacts

open Foundation Api

variable {codec : Codec} {book next : Book} {delivery : ApplicationDelivery} {peer : Contact}
  {now : ℕ}

/-- A delivery holds one envelope at most. -/
theorem Opens.unique {e e' : Envelope} (h : Opens codec delivery e)
    (h' : Opens codec delivery e') : e = e' := by
  obtain ⟨application, hdecode, -, hopen⟩ := h
  obtain ⟨application', hdecode', -, hopen'⟩ := h'
  rw [hdecode] at hdecode'
  cases hdecode'
  rw [hopen] at hopen'
  cases hopen'
  rfl

/-- The delivery is not internal to the transport and holds an envelope of an unblocked
contact. -/
structure Brings (codec : Codec) (book : Book) (delivery : ApplicationDelivery)
    (peer : Contact) (envelope : Envelope) : Prop where
  external : delivery.sourceComponent.isSome = false ∧
    delivery.destinationComponent.isSome = false
  contact : book.contacts[key codec delivery.peerIdentity]? = some peer
  unblocked : peer.blocked = false
  opens : Opens codec delivery envelope

theorem Brings.receive {envelope : Envelope} (h : Brings codec book delivery peer envelope)
    (now : ℕ) :
    receive codec book delivery now =
      (receiveEnvelope codec book (key codec delivery.peerIdentity) peer envelope
        delivery.receivedAtUnix now).map fun book => (book, true) := by
  obtain ⟨application, hdecode, hmime, hopen⟩ := h.opens
  simp [Contacts.receive, h.external, hdecode, hmime, h.contact, h.unblocked, hopen]

/-- A delivery leaves the book, or an error with its contact, or it brings an envelope. -/
theorem receive_brings {flag : Bool} (h : receive codec book delivery now = .ok (next, flag)) :
    next = book ∨
      (∃ peer error, book.contacts[key codec delivery.peerIdentity]? = some peer ∧
        next = book.setContact (key codec delivery.peerIdentity) (peer.withError error)) ∨
      ∃ peer envelope, Brings codec book delivery peer envelope ∧
        receiveEnvelope codec book (key codec delivery.peerIdentity) peer envelope
          delivery.receivedAtUnix now = .ok next := by
  cases hinternal : delivery.sourceComponent.isSome || delivery.destinationComponent.isSome with
  | true =>
      unfold Contacts.receive at h
      rw [if_pos hinternal] at h
      cases h
      exact Or.inl rfl
  | false =>
      obtain rfl | ⟨peer, hpeer, hblocked, herror | henv⟩ := receive_cases h
      · exact Or.inl rfl
      · obtain ⟨error, herror⟩ := herror
        exact Or.inr (Or.inl ⟨peer, error, hpeer, herror⟩)
      · obtain ⟨application, envelope, hdecode, hmime, hopen, hnext⟩ := henv
        have hbrings : Brings codec book delivery peer envelope :=
          ⟨Bool.or_eq_false_iff.mp hinternal, hpeer, hblocked,
            application, hdecode, hmime, hopen⟩
        exact Or.inr (Or.inr ⟨peer, envelope, hbrings, hnext⟩)

/-! ### Messages that are accepted -/

/-- The book has room for a message of the contact that it has not seen. -/
structure Admits (codec : Codec) (book : Book) (peer : Contact) (mid : Bytes 32)
    (content : Content) (hash : Bytes 32) (wire : List UInt8) : Prop where
  valid : validContent content = true
  digested : digest codec (.message mid content) = .ok hash
  receipt : packet codec (.receipt mid hash) = .ok wire
  unseen : peer.seen[hex mid.toList]? = none
  room : book.outbox.size < maxPending
  messages : peer.messages.length < maxMessages
  seen : peer.seen.size < maxMessages

theorem validateContent_eq_ok {content : Content} (h : validContent content = true) :
    validateContent content = .ok () := by
  simp [validateContent, refuse_eq_ok, h]

/-- An admitted message is recorded, and its receipt is queued. -/
theorem Admits.receiveMessage {mid hash : Bytes 32} {content : Content} {wire : List UInt8}
    (h : Admits codec book peer mid content hash wire) (contact : String) (receivedAt : ℕ) :
    receiveMessage codec book contact peer mid content receivedAt =
      .ok (book.write contact (peer.record contact mid content hash receivedAt)
        (book.outbox.insert (ackId contact mid) ⟨contact, wire, 0, true, hash⟩)) := by
  have hfresh : peer.seen.contains (hex mid.toList) = false := by
    rw [StringMap.contains_eq_isSome, h.unseen, Option.isSome_none]
  have hroom : refuse (decide (maxPending ≤ book.outbox.size))
      "Contact receipt outbox is full" = .ok () := by
    rw [refuse_eq_ok, decide_eq_false_iff_not]
    exact Nat.not_le.mpr h.room
  have hlimit : refuse (decide (maxMessages ≤ peer.messages.length) ||
      decide (maxMessages ≤ peer.seen.size)) "Contact archive limit reached" = .ok () := by
    rw [refuse_eq_ok]
    simp [h.messages, h.seen]
  unfold Contacts.receiveMessage
  rw [validateContent_eq_ok h.valid]
  simp [bind, Except.bind, h.digested, h.unseen, hfresh, hroom, hlimit, h.receipt, Book.write, pure,
    Except.pure]

end Contacts

end GChat
