import GChat.Contacts.Arrivals
import GChat.Contacts.Distinct
import GChat.Foundation.LastWriter

/-!
# Presence that contacts share

Every presence a book queues for a contact is a lease with a generation. The generation
counts and follows the clock, and it only grows. The other side keeps the lease with the
greatest generation that it accepted since it last blocked the contact: for each contact
its book is a register of the last writer, and the operations of the book write to it,
clear it, or leave it.
-/

namespace GChat

namespace Contacts

open Foundation Api

/-- What a presence packet says. -/
structure Lease where
  generation : ℕ
  mode : ContactPresence
  expiresAt : ℕ
deriving DecidableEq

def Lease.envelope (l : Lease) : Envelope := .presence l.generation l.mode l.expiresAt

theorem Lease.envelope_inj {l l' : Lease} (h : l.envelope = l'.envelope) : l = l' := by
  cases l
  cases l'
  cases h
  rfl

/-! ### Leases that are queued -/

/-- A call of `queuePresence`, or another operation of the book. -/
inductive Turn where
  | presence (contact : String) (desired : Option ContactPresence) (now : ℕ)
  | other (op : Op)

section Definitions

variable (codec : Codec)

def Turn.after (book : Book) : Turn → Book
  | .presence contact desired now =>
      (queuePresence codec book contact desired now).toOption.getD book
  | .other op => book.after codec op

/-- The lease that a turn queues for a contact, and the bytes of its packet. -/
def Turn.queued (contact : String) (book : Book) : Turn → Option (Lease × List UInt8)
  | .presence id desired now =>
      if id = contact then
        match queuePresence codec book id desired now with
        | .error _ => none
        | .ok next =>
            match next.contacts[id]?, next.outbox[presenceId id]? with
            | some peer, some pending =>
                some (⟨peer.presence.generation, desired.getD .unknown, saturatingAdd now 600⟩,
                  pending.wire)
            | _, _ => none
      else none
  | .other _ => none

/-- The packets that a run queues for a contact, the oldest first. -/
def queuedBy (contact : String) : Book → List Turn → List (Lease × List UInt8)
  | _, [] => []
  | book, t :: turns =>
      (t.queued codec contact book).toList ++ queuedBy contact (t.after codec book) turns

/-! ### Leases that are accepted -/

/-- The envelope of a delivery of this protocol. -/
def opened (delivery : ApplicationDelivery) : Option Envelope :=
  match codec.decode delivery.body with
  | none => none
  | some application =>
      if application.contentType = mime then
        match codec.takeFromBytes application.body with
        | some (envelope, []) => some envelope
        | _ => none
      else none

/-- The lease that a delivery makes a book accept from a contact. -/
def accepted (id : String) (book : Book) (delivery : ApplicationDelivery) (now : ℕ) :
    Option Lease :=
  if delivery.sourceComponent.isSome || delivery.destinationComponent.isSome ||
      key codec delivery.peerIdentity != id then none
  else
    match opened codec delivery, book.contacts[id]? with
    | some (.presence generation mode expiresAt), some peer =>
        if peer.blocked = false ∧ validMode mode = true ∧
            peer.presence.observedGeneration < generation ∧
            expiresAt ≤ saturatingAdd now 600 then
          some ⟨generation, mode, expiresAt⟩
        else none
    | _, _ => none

def Op.accepted (id : String) (book : Book) : Op → Option Lease
  | .receive delivery now => Contacts.accepted codec id book delivery now
  | _ => none

/-- The operation blocks the contact. -/
def Op.shuts (id : String) : Op → Bool
  | .block k true => k == id
  | _ => false

/-- A book, and the leases of one contact it accepted since it last blocked that contact. -/
structure Watch where
  book : Book
  log : List Lease

def Watch.start : Watch := ⟨Book.default, []⟩

def Watch.after (id : String) (w : Watch) (op : Op) : Watch where
  book := w.book.after codec op
  log := if op.shuts id then [] else w.log ++ (op.accepted codec id w.book).toList

/-- The leases that a run accepts from a contact after it last blocks it. -/
def acceptedSince (id : String) (ops : List Op) : List Lease :=
  (ops.foldl (Watch.after codec id) Watch.start).log

end Definitions

/-! ### The presence of a contact -/

/-- The presence of a contact; before it is added it has the default one. -/
def Book.presence (book : Book) (id : String) : PresenceState :=
  (book.contacts[id]?.map (·.presence)).getD PresenceState.default

/-- The lease that is observed of a contact, as a register of the last writer. -/
def PresenceState.register (p : PresenceState) : Register Lease where
  stamp := p.observedGeneration
  value := p.observed.map fun mode => ⟨p.observedGeneration, mode, p.expiresAt⟩

/-- The generation may have grown within its bound, and nothing else is observed. -/
structure PresenceState.Advances (p q : PresenceState) : Prop where
  generation : p.generation ≤ u64Max → p.generation ≤ q.generation ∧ q.generation ≤ u64Max
  observedGeneration : q.observedGeneration = p.observedGeneration
  observed : q.observed = p.observed
  expiresAt : q.expiresAt = p.expiresAt

variable {codec : Codec} {book next : Book} {id contact : String} {now : ℕ}

theorem presence_of_get {c : Contact} (hc : book.contacts[id]? = some c) :
    book.presence id = c.presence := by
  rw [Book.presence, hc, Option.map_some, Option.getD_some]

theorem presence_write (book : Book) (k : String) (c : Contact) (outbox : StringMap Pending)
    (id : String) :
    (book.write k c outbox).presence id = if k = id then c.presence else book.presence id := by
  unfold Book.presence
  simp only [Book.write, StringMap.get_insert]
  split
  · rfl
  · rfl

/-- A write that keeps the presence of its contact keeps every presence. -/
theorem presence_write_same {k : String} {c d : Contact} (hc : book.contacts[k]? = some c)
    (hd : d.presence = c.presence) (outbox : StringMap Pending) (id : String) :
    (book.write k d outbox).presence id = book.presence id := by
  rw [presence_write]
  split
  case isTrue h =>
    subst h
    rw [hd, presence_of_get hc]
  case isFalse => rfl

namespace PresenceState.Advances

theorem refl (p : PresenceState) : p.Advances p := ⟨fun h => ⟨Nat.le_refl _, h⟩, rfl, rfl, rfl⟩

theorem of_eq {p q : PresenceState} (h : q = p) : p.Advances q := h ▸ refl p

theorem trans {p q r : PresenceState} (h : p.Advances q) (h' : q.Advances r) :
    p.Advances r where
  generation hp := by
    obtain ⟨hpq, hq⟩ := h.generation hp
    obtain ⟨hqr, hr⟩ := h'.generation hq
    exact ⟨hpq.trans hqr, hr⟩
  observedGeneration := h'.observedGeneration.trans h.observedGeneration
  observed := h'.observed.trans h.observed
  expiresAt := h'.expiresAt.trans h.expiresAt

end PresenceState.Advances

/-! ### The generation grows -/

theorem generation_le_renew {p : PresenceState} (hp : p.generation ≤ u64Max)
    (desired : Option ContactPresence) (now : ℕ) :
    p.generation ≤ (p.renew desired now).generation := by
  have hcount : p.generation ≤ saturatingAdd p.generation 1 := by
    unfold saturatingAdd
    omega
  exact hcount.trans (Nat.le_max_left _ _)

/-- Below the overflow a new lease has a greater generation, whatever the clock says. -/
theorem generation_lt_renew {p : PresenceState} (hp : p.generation < u64Max)
    (desired : Option ContactPresence) (now : ℕ) :
    p.generation < (p.renew desired now).generation := by
  have hcount : p.generation < saturatingAdd p.generation 1 := by
    unfold saturatingAdd
    omega
  exact hcount.trans_le (Nat.le_max_left _ _)

theorem generation_renew_le (p : PresenceState) (desired : Option ContactPresence) (now : ℕ) :
    (p.renew desired now).generation ≤ u64Max :=
  Nat.max_le.mpr ⟨Nat.min_le_right _ _, Nat.min_le_right _ _⟩

theorem PresenceState.Advances.renew (p : PresenceState) (desired : Option ContactPresence)
    (now : ℕ) : p.Advances (p.renew desired now) :=
  ⟨fun hp => ⟨generation_le_renew hp desired now, generation_renew_le p desired now⟩,
    rfl, rfl, rfl⟩

theorem advances_queuePresence {desired : Option ContactPresence}
    (h : queuePresence codec book contact desired now = .ok next) (id : String) :
    (book.presence id).Advances (next.presence id) := by
  obtain ⟨peer, -, -, -, hpeer, -, -, -, -, -, rfl⟩ := queuePresence_cases h
  rw [presence_write]
  split
  case isTrue heq =>
    subst heq
    rw [presence_of_get hpeer]
    exact .renew peer.presence desired now
  case isFalse => exact .refl _

theorem advances_write {k : String} {c d : Contact} (hc : book.contacts[k]? = some c)
    (hd : d.presence = c.presence) (outbox : StringMap Pending) (id : String) :
    (book.presence id).Advances ((book.write k d outbox).presence id) :=
  .of_eq (presence_write_same hc hd outbox id)

/-- The operations that change what is observed of some contact. -/
def Op.observes : Op → Bool
  | .block .. => true
  | .receive .. => true
  | _ => false

theorem advances_run {op : Op} (hop : op.observes = false) (h : op.run codec book = .ok next)
    (id : String) : (book.presence id).Advances (next.presence id) := by
  cases op with
  | add name card identity own =>
      obtain ⟨-, -, -, hnew, rfl⟩ := contactAdd_cases h
      rw [setContact_eq_write, presence_write]
      split
      case isTrue heq =>
        subst heq
        rw [Book.presence, hnew]
        exact .refl _
      case isFalse => exact .refl _
  | update name card identity own =>
      obtain ⟨c, hc, rfl⟩ := contactUpdate_cases h
      rw [setContact_eq_write]
      exact advances_write hc (by rfl) _ id
  | rename name newName =>
      obtain ⟨k, c, hc, -, rfl⟩ := contactRename_cases h
      rw [setContact_eq_write]
      exact advances_write hc (by rfl) _ id
  | verify name given =>
      obtain ⟨k, c, hc, rfl⟩ := contactVerify_cases h
      rw [setContact_eq_write]
      exact advances_write hc (by rfl) _ id
  | block k blocked => cases hop
  | queue k content operation mid now =>
      obtain ⟨-, rfl⟩ | ⟨peer, wire, hash, -, -, -, hpeer, -, -, -, -, rfl⟩ := queue_cases h
      · exact .refl _
      · exact advances_write hpeer (by rfl) _ id
  | away k args now => exact advances_queuePresence (away_cases h) id
  | back k now => exact advances_queuePresence h id
  | presenceOff k now => exact advances_queuePresence h id
  | renew now =>
      have hstep : ∀ b c k desired, (book.presence id).Advances (b.presence id) →
          queuePresence codec b k desired now = .ok c →
            (book.presence id).Advances (c.presence id) := by
        intro b c k desired hb hq
        exact hb.trans (advances_queuePresence hq id)
      exact renewPresence_induction hstep (.refl _) h
  | completeSend k pending failure now =>
      obtain rfl | ⟨stored, outbox, -, -, ⟨peer, hpeer, rfl⟩ | rfl⟩ := completeSend_cases h
      · exact .refl _
      · exact advances_write hpeer (by rfl) _ id
      · exact .refl _
  | markRead k messageId =>
      obtain rfl | ⟨c, hc, rfl⟩ := markRead_cases h
      · exact .refl _
      · rw [setContact_eq_write]
        exact advances_write hc (by rfl) _ id
  | receive delivery now => cases hop

/-! ### Blocking -/

theorem presence_block {blocked : Bool} (h : block book contact blocked = .ok next)
    (id : String) :
    next.presence id =
      if contact = id ∧ blocked = true then
        { book.presence id with desired := none, observed := none, expiresAt := 0 }
      else book.presence id := by
  obtain ⟨c, hc, ⟨rfl, rfl⟩ | ⟨rfl, rfl⟩⟩ := block_cases h
  · rw [presence_write]
    by_cases heq : contact = id
    · subst heq
      rw [if_pos rfl, if_pos ⟨rfl, rfl⟩, presence_of_get hc]
      rfl
    · rw [if_neg heq, if_neg fun hboth => heq hboth.1]
  · have hsame : (book.write contact { c with blocked := false } book.outbox).presence id =
        book.presence id := presence_write_same hc (by rfl) _ id
    rw [setContact_eq_write, hsame]
    exact (if_neg fun hboth => Bool.noConfusion hboth.2).symm

/-! ### Receiving -/

theorem opened_eq_some {delivery : ApplicationDelivery} {envelope : Envelope} :
    opened codec delivery = some envelope ↔ Opens codec delivery envelope := by
  unfold opened Opens
  cases hdecode : codec.decode delivery.body with
  | none => simp
  | some application =>
      simp only [Option.some.injEq, exists_eq_left']
      by_cases hmime : application.contentType = mime
      · rw [if_pos hmime]
        split
        case h_1 e hopen => simp [hmime, hopen]
        case h_2 hopen =>
          constructor
          · intro h
            cases h
          · intro h
            exact absurd h.2 (hopen envelope)
      · rw [if_neg hmime]
        simp [hmime]

/-- The lease that a delivery brings meets all that the book asks of it. -/
structure Grants (codec : Codec) (id : String) (book : Book) (delivery : ApplicationDelivery)
    (now : ℕ) (peer : Contact) (l : Lease) : Prop where
  sender : key codec delivery.peerIdentity = id
  brings : Brings codec book delivery peer l.envelope
  mode : validMode l.mode = true
  newer : peer.presence.observedGeneration < l.generation
  bounded : l.expiresAt ≤ saturatingAdd now 600

theorem accepted_eq_some {delivery : ApplicationDelivery} {l : Lease} :
    accepted codec id book delivery now = some l ↔
      ∃ peer, Grants codec id book delivery now peer l := by
  constructor
  · intro h
    unfold accepted at h
    split at h
    · cases h
    case isFalse hout =>
      simp only [Bool.or_eq_true, bne_iff_ne, ne_eq, not_or, Bool.not_eq_true,
        Decidable.not_not] at hout
      obtain ⟨hexternal, hsender⟩ := hout
      split at h
      case h_1 generation mode expiresAt peer hopened hpeer =>
        split at h
        case isTrue hok =>
          obtain ⟨hblocked, hmode, hnewer, hbound⟩ := hok
          cases h
          subst hsender
          exact ⟨peer, rfl, ⟨hexternal, hpeer, hblocked, opened_eq_some.mp hopened⟩, hmode, hnewer,
            hbound⟩
        case isFalse => cases h
      case h_2 => cases h
  · intro h
    obtain ⟨peer, rfl, hbrings, hmode, hnewer, hbound⟩ := h
    have hopened : opened codec delivery = some (.presence l.generation l.mode l.expiresAt) :=
      opened_eq_some.mpr hbrings.opens
    have hin : (delivery.sourceComponent.isSome || delivery.destinationComponent.isSome ||
        key codec delivery.peerIdentity != key codec delivery.peerIdentity) = false := by
      simp [hbrings.external]
    unfold accepted
    rw [hin, hopened, hbrings.contact]
    have hok : peer.blocked = false ∧ validMode l.mode = true ∧
        peer.presence.observedGeneration < l.generation ∧
        l.expiresAt ≤ saturatingAdd now 600 :=
      ⟨hbrings.unblocked, hmode, hnewer, hbound⟩
    exact if_pos hok

theorem Grants.get {delivery : ApplicationDelivery} {peer : Contact} {l : Lease}
    (h : Grants codec id book delivery now peer l) : book.contacts[id]? = some peer :=
  h.sender ▸ h.brings.contact

/-- An accepted lease is what is observed of the contact from then on. -/
theorem Grants.receive {delivery : ApplicationDelivery} {peer : Contact} {l : Lease}
    (h : Grants codec id book delivery now peer l) :
    receive codec book delivery now = .ok (book.setContact id { peer with
      presence := { peer.presence with
        observedGeneration := l.generation
        observed := some l.mode
        expiresAt := l.expiresAt } }, true) := by
  obtain ⟨rfl, hbrings, hmode, hnewer, hbound⟩ := h
  have hall : (validMode l.mode && decide (peer.presence.observedGeneration < l.generation) &&
      decide (l.expiresAt ≤ saturatingAdd now 600)) = true := by
    simp [hmode, hnewer, hbound]
  rw [hbrings.receive now]
  simp only [Lease.envelope, receiveEnvelope, receivePresence, if_pos hall]
  rfl

theorem Grants.after {delivery : ApplicationDelivery} {peer : Contact} {l : Lease}
    (h : Grants codec id book delivery now peer l) :
    book.after codec (.receive delivery now) = book.setContact id { peer with
      presence := { peer.presence with
        observedGeneration := l.generation
        observed := some l.mode
        expiresAt := l.expiresAt } } := by
  rw [Book.after, Op.run, h.receive]
  rfl

theorem presence_record (c : Contact) (k : String) (mid : Bytes 32) (content : Content)
    (hash : Bytes 32) (receivedAt : ℕ) :
    (c.record k mid content hash receivedAt).presence = c.presence := by
  unfold Contact.record
  dsimp only
  split
  · rfl
  · rfl

/-- A presence that is not accepted leaves the book. -/
theorem receivePresence_refused {delivery : ApplicationDelivery} {peer : Contact}
    {generation expiresAt : ℕ} {mode : ContactPresence}
    (hbrings : Brings codec book delivery peer (.presence generation mode expiresAt))
    (h : accepted codec (key codec delivery.peerIdentity) book delivery now = none) :
    receivePresence book (key codec delivery.peerIdentity) peer generation mode expiresAt now =
      book := by
  unfold receivePresence
  split
  case isTrue hall =>
    simp only [Bool.and_eq_true, decide_eq_true_eq] at hall
    have hsome : accepted codec (key codec delivery.peerIdentity) book delivery now =
        some ⟨generation, mode, expiresAt⟩ :=
      accepted_eq_some.mpr ⟨peer, rfl, hbrings, hall.1.1, hall.1.2, hall.2⟩
    rw [h] at hsome
    cases hsome
  case isFalse => rfl

/-- A delivery from which nothing is accepted changes the presence of no contact. -/
theorem presence_receive {delivery : ApplicationDelivery} {flag : Bool}
    (h : receive codec book delivery now = .ok (next, flag))
    (hnone : accepted codec id book delivery now = none) :
    next.presence id = book.presence id := by
  obtain rfl | ⟨peer, error, hpeer, rfl⟩ | ⟨peer, envelope, hbrings, henv⟩ := receive_brings h
  · rfl
  · rw [setContact_eq_write]
    exact presence_write_same hpeer (by rfl) _ id
  · have hpeer := hbrings.contact
    cases envelope with
    | message mid content =>
        obtain ⟨error, rfl⟩ | ⟨hash, wire, peer', -, -, -, -, hseen, rfl⟩ :=
          receiveMessage_cases henv
        · rw [setContact_eq_write]
          exact presence_write_same hpeer (by rfl) _ id
        · have hsame : peer'.presence = peer.presence := by
            obtain ⟨-, rfl⟩ | ⟨-, -, -, rfl⟩ := hseen
            · rfl
            · exact presence_record _ _ _ _ _ _
          exact presence_write_same hpeer hsame _ id
    | receipt mid hash =>
        cases henv
        obtain heq | ⟨p, -, -, heq⟩ := receiveReceipt_cases book _ peer mid hash
        · rw [heq]
        · rw [heq]
          exact presence_write_same hpeer (by rfl) _ id
    | presence generation mode expiresAt =>
        cases henv
        by_cases hid : key codec delivery.peerIdentity = id
        · subst hid
          rw [receivePresence_refused hbrings hnone]
        · obtain heq | ⟨presence, heq⟩ :=
            receivePresence_cases book _ peer generation mode expiresAt now
          · rw [heq]
          · rw [heq, setContact_eq_write, presence_write, if_neg hid]

/-- A packet whose generation is not above the observed one changes nothing. -/
theorem receive_stale {delivery : ApplicationDelivery} {l : Lease}
    (hopen : Opens codec delivery l.envelope)
    (hold : l.generation ≤ (book.presence (key codec delivery.peerIdentity)).observedGeneration)
    (now : ℕ) : ∃ flag, receive codec book delivery now = .ok (book, flag) := by
  obtain ⟨application, hdecode, hmime, hopen⟩ := hopen
  unfold Contacts.receive
  split
  · exact ⟨false, rfl⟩
  · simp only [hdecode, hmime, bne_self_eq_false, Bool.false_eq_true, if_false, hopen]
    cases hpeer : book.contacts[key codec delivery.peerIdentity]? with
    | none => exact ⟨true, rfl⟩
    | some peer =>
        rw [presence_of_get hpeer] at hold
        have hrefused : (validMode l.mode &&
            decide (peer.presence.observedGeneration < l.generation) &&
              decide (l.expiresAt ≤ saturatingAdd now 600)) = false := by
          simp [Nat.not_lt.mpr hold]
        have hsame : receivePresence book (key codec delivery.peerIdentity) peer l.generation
            l.mode l.expiresAt now = book := by
          rw [receivePresence, hrefused]
          rfl
        dsimp only
        split
        · exact ⟨true, rfl⟩
        · refine ⟨true, ?_⟩
          simp only [Lease.envelope, receiveEnvelope, hsame]
          rfl

/-- A presence packet never fails and never changes the outbox. -/
theorem receive_presence_outbox {delivery : ApplicationDelivery} {l : Lease}
    (hopen : Opens codec delivery l.envelope) (book : Book) (now : ℕ) :
    ∃ next flag, receive codec book delivery now = .ok (next, flag) ∧
      next.outbox = book.outbox := by
  obtain ⟨application, hdecode, hmime, hopen⟩ := hopen
  unfold Contacts.receive
  split
  · exact ⟨book, false, rfl, rfl⟩
  · simp only [hdecode, hmime, bne_self_eq_false, Bool.false_eq_true, if_false, hopen]
    cases hpeer : book.contacts[key codec delivery.peerIdentity]? with
    | none => exact ⟨book, true, rfl, rfl⟩
    | some peer =>
        dsimp only
        split
        · exact ⟨book, true, rfl, rfl⟩
        · refine ⟨_, true, rfl, ?_⟩
          obtain heq | ⟨presence, heq⟩ := receivePresence_cases book
            (key codec delivery.peerIdentity) peer l.generation l.mode l.expiresAt now
          · exact congrArg Book.outbox heq
          · exact (congrArg Book.outbox heq).trans rfl

/-! ### Runs of the side that shares -/

/-- A queued lease has the new generation of its contact, and its packet encodes it. -/
theorem Turn.queued_cases {t : Turn} {e : Lease × List UInt8}
    (h : t.queued codec contact book = some e) :
    packet codec e.1.envelope = .ok e.2 ∧
      e.1.generation = ((t.after codec book).presence contact).generation ∧
      ((book.presence contact).generation < u64Max →
        (book.presence contact).generation < e.1.generation) := by
  cases t with
  | other op => cases h
  | presence id desired now =>
      unfold Turn.queued at h
      dsimp only at h
      by_cases heq : id = contact
      · subst heq
        rw [if_pos rfl] at h
        cases hrun : queuePresence codec book id desired now with
        | error message =>
            rw [hrun] at h
            cases h
        | ok next =>
            obtain ⟨peer, envelope, wire, hash, hpeer, -, -, rfl, hwire, -, rfl⟩ :=
              queuePresence_cases hrun
            rw [hrun] at h
            simp only [Book.write, StringMap.get_insert_self] at h
            cases h
            refine ⟨hwire, ?_, ?_⟩
            · simp only [Turn.after, hrun, Except.toOption, Option.getD_some]
              rw [presence_write, if_pos rfl]
            · intro hlt
              rw [presence_of_get hpeer] at hlt ⊢
              exact generation_lt_renew hlt desired now
      · rw [if_neg heq] at h
        cases h

theorem generation_after (h : (book.presence id).generation ≤ u64Max) (op : Op) :
    (book.presence id).generation ≤ ((book.after codec op).presence id).generation ∧
      ((book.after codec op).presence id).generation ≤ u64Max := by
  unfold Book.after
  cases hrun : op.run codec book with
  | error message => exact ⟨Nat.le_refl _, h⟩
  | ok next =>
      change (book.presence id).generation ≤ (next.presence id).generation ∧
        (next.presence id).generation ≤ u64Max
      cases hop : op.observes with
      | false => exact (advances_run hop hrun id).generation h
      | true =>
          have hsame : (next.presence id).generation = (book.presence id).generation := by
            cases op with
            | block k blocked =>
                rw [presence_block hrun id]
                split
                · rfl
                · rfl
            | receive delivery now =>
                obtain ⟨b, hreceive, rfl⟩ := map_eq_ok.mp hrun
                cases hacc : accepted codec id book delivery now with
                | none => rw [presence_receive hreceive hacc]
                | some l =>
                    obtain ⟨peer, hgrants⟩ := accepted_eq_some.mp hacc
                    have hpeer := hgrants.get
                    rw [hgrants.receive] at hreceive
                    cases hreceive
                    rw [setContact_eq_write, presence_write, if_pos rfl, presence_of_get hpeer]
            | _ => cases hop
          rw [hsame]
          exact ⟨Nat.le_refl _, h⟩

theorem generation_turn (codec : Codec) (h : (book.presence id).generation ≤ u64Max) (t : Turn) :
    (book.presence id).generation ≤ ((t.after codec book).presence id).generation ∧
      ((t.after codec book).presence id).generation ≤ u64Max := by
  cases t with
  | other op => exact generation_after h op
  | presence k desired now =>
      cases hrun : queuePresence codec book k desired now with
      | error message =>
          have hafter : (Turn.presence k desired now).after codec book = book := by
            rw [Turn.after, hrun]
            rfl
          rw [hafter]
          exact ⟨Nat.le_refl _, h⟩
      | ok next =>
          have hafter : (Turn.presence k desired now).after codec book = next := by
            rw [Turn.after, hrun]
            rfl
          rw [hafter]
          exact (advances_queuePresence hrun id).generation h

theorem le_queuedBy {turns : List Turn} (h : (book.presence contact).generation ≤ u64Max)
    {e : Lease × List UInt8} (he : e ∈ queuedBy codec contact book turns) :
    (book.presence contact).generation ≤ e.1.generation := by
  induction turns generalizing book with
  | nil => cases he
  | cons t turns ih =>
      obtain ⟨hle, hmax⟩ := generation_turn codec h t
      obtain hnow | hlater := List.mem_append.mp he
      · rw [(Turn.queued_cases (Option.mem_toList.mp hnow)).2.1]
        exact hle
      · exact hle.trans (ih hmax hlater)

/-- Every lease of a run has a greater generation than the contact had before the run. -/
theorem lt_queuedBy {turns : List Turn} (h : (book.presence contact).generation ≤ u64Max)
    {e : Lease × List UInt8} (he : e ∈ queuedBy codec contact book turns)
    (hbelow : (book.presence contact).generation < u64Max) :
    (book.presence contact).generation < e.1.generation := by
  induction turns generalizing book with
  | nil => cases he
  | cons t turns ih =>
      obtain ⟨hle, hmax⟩ := generation_turn codec h t
      obtain hnow | hlater := List.mem_append.mp he
      · exact (Turn.queued_cases (Option.mem_toList.mp hnow)).2.2 hbelow
      · obtain heq | hlt := hmax.eq_or_lt
        · exact (heq ▸ hbelow).trans_le (le_queuedBy hmax hlater)
        · exact hle.trans_lt (ih hmax hlater hlt)

theorem packet_queuedBy {turns : List Turn} {e : Lease × List UInt8}
    (he : e ∈ queuedBy codec contact book turns) : packet codec e.1.envelope = .ok e.2 := by
  induction turns generalizing book with
  | nil => cases he
  | cons t turns ih =>
      obtain hnow | hlater := List.mem_append.mp he
      · exact (Turn.queued_cases (Option.mem_toList.mp hnow)).1
      · exact ih hlater

/-- Below the overflow each lease has a greater generation than every earlier one. -/
theorem pairwise_queuedBy {turns : List Turn} (h : (book.presence contact).generation ≤ u64Max) :
    (queuedBy codec contact book turns).Pairwise fun e e' =>
      e.1.generation < u64Max → e.1.generation < e'.1.generation := by
  induction turns generalizing book with
  | nil => exact List.Pairwise.nil
  | cons t turns ih =>
      have hmax := (generation_turn codec h t).2
      unfold queuedBy
      rw [List.pairwise_append]
      refine ⟨?_, ih hmax, ?_⟩
      · cases t.queued codec contact book with
        | none => exact List.Pairwise.nil
        | some e => exact List.pairwise_singleton _ e
      · intro e he e' he' hbelow
        rw [(Turn.queued_cases (Option.mem_toList.mp he)).2.1] at hbelow ⊢
        exact lt_queuedBy hmax he' hbelow

/-- The body of a queued packet opens to its lease. -/
theorem opens_queuedBy (hcodec : codec.RoundTrips) {turns : List Turn} {e : Lease × List UInt8}
    (he : e ∈ queuedBy codec contact book turns) {delivery : ApplicationDelivery}
    (hbody : delivery.body = e.2) : Opens codec delivery e.1.envelope := by
  have hpacket := packet_queuedBy he
  simp only [packet, bind_eq_ok] at hpacket
  obtain ⟨bytes, hbytes, hencode⟩ := hpacket
  refine ⟨⟨mime, bytes⟩, ?_, rfl, hcodec.envelope _ _ hbytes⟩
  rw [hbody]
  exact hcodec.application _ _ hencode

/-- The operations that call `queuePresence`. -/
def Op.leases : Op → Bool
  | .away .. => true
  | .back .. => true
  | .presenceOff .. => true
  | .renew .. => true
  | _ => false

theorem Turn.after_of_ok {desired : Option ContactPresence}
    (h : queuePresence codec book contact desired now = .ok next) :
    (Turn.presence contact desired now).after codec book = next := by
  rw [Turn.after, h]
  rfl

theorem exists_turns_pass (pass : List (String × Option ContactPresence))
    (h : pass.foldlM (renewOne codec now) book = .ok next) :
    ∃ turns : List Turn, turns.foldl (Turn.after codec) book = next ∧
      ∀ op, Turn.other op ∉ turns := by
  induction pass generalizing book with
  | nil =>
      rw [List.foldlM_nil] at h
      exact ⟨[], pure_eq_ok.mp h, by simp⟩
  | cons renewal pass ih =>
      rw [List.foldlM_cons, bind_eq_ok] at h
      obtain ⟨b, hone, hrest⟩ := h
      obtain ⟨turns, hturns, hnone⟩ := ih hrest
      obtain rfl | hqueue := renewOne_cases hone
      · exact ⟨turns, hturns, hnone⟩
      · refine ⟨.presence renewal.1 renewal.2 now :: turns, ?_, by simpa using hnone⟩
        rw [List.foldl_cons, Turn.after_of_ok hqueue]
        exact hturns

/-- An operation that shares presence consists of calls of `queuePresence`. -/
theorem exists_turns_after {op : Op} (hop : op.leases = true) (book : Book) :
    ∃ turns : List Turn, turns.foldl (Turn.after codec) book = book.after codec op ∧
      ∀ op, Turn.other op ∉ turns := by
  cases hrun : op.run codec book with
  | error message =>
      refine ⟨[], ?_, by simp⟩
      rw [Book.after, hrun]
      rfl
  | ok next =>
      have hafter : book.after codec op = next := by
        rw [Book.after, hrun]
        rfl
      rw [hafter]
      cases op with
      | away k args now =>
          exact ⟨[.presence k (some (.away args)) now], Turn.after_of_ok (away_cases hrun), by simp⟩
      | back k now => exact ⟨[.presence k (some .available) now], Turn.after_of_ok hrun, by simp⟩
      | presenceOff k now => exact ⟨[.presence k none now], Turn.after_of_ok hrun, by simp⟩
      | renew now => exact exists_turns_pass _ hrun
      | _ => cases hop

/-- Every run of operations is one of calls of `queuePresence` and other operations. -/
theorem exists_turns (book : Book) (ops : List Op) :
    ∃ turns : List Turn,
      turns.foldl (Turn.after codec) book = ops.foldl (Book.after codec) book ∧
        ∀ op, Turn.other op ∈ turns → op.leases = false := by
  induction ops generalizing book with
  | nil => exact ⟨[], rfl, by simp⟩
  | cons op ops ih =>
      obtain ⟨rest, hrest, hother⟩ := ih (book.after codec op)
      cases hop : op.leases with
      | true =>
          obtain ⟨turns, hturns, hnone⟩ := exists_turns_after hop book
          refine ⟨turns ++ rest, ?_, ?_⟩
          · rw [List.foldl_append, hturns]
            exact hrest
          · intro o ho
            obtain hin | hin := List.mem_append.mp ho
            · exact absurd hin (hnone o)
            · exact hother o hin
      | false =>
          refine ⟨.other op :: rest, hrest, ?_⟩
          intro o ho
          obtain heq | hin := List.mem_cons.mp ho
          · cases heq
            exact hop
          · exact hother o hin

/-! ### Runs of the side that observes -/

/-- The register of a contact follows the leases accepted since the last block. -/
structure Watch.Sound (id : String) (w : Watch) : Prop where
  follows : (w.book.presence id).register.Follows Lease.generation w.log
  idle : (w.book.presence id).observed = none → (w.book.presence id).expiresAt = 0

theorem Watch.Sound.start (id : String) : Watch.start.Sound id where
  follows := .start 0
  idle _ := rfl

theorem PresenceState.Advances.register {p q : PresenceState} (h : p.Advances q) :
    q.register = p.register := by
  unfold PresenceState.register
  rw [h.observedGeneration, h.observed, h.expiresAt]

theorem after_eq_of_error {op : Op} {message : String} (h : op.run codec book = .error message) :
    book.after codec op = book := by
  rw [Book.after, h]
  rfl

theorem after_eq_of_ok {op : Op} (h : op.run codec book = .ok next) :
    book.after codec op = next := by
  rw [Book.after, h]
  rfl

theorem advances_after {op : Op} (hop : op.observes = false) (id : String) :
    (book.presence id).Advances ((book.after codec op).presence id) := by
  cases hrun : op.run codec book with
  | error message =>
      rw [after_eq_of_error hrun]
      exact .refl _
  | ok next =>
      rw [after_eq_of_ok hrun]
      exact advances_run hop hrun id

namespace Watch

variable {w : Watch}

theorem after_quiet {op : Op} (hop : op.observes = false) :
    w.after codec id op = ⟨w.book.after codec op, w.log⟩ := by
  cases op with
  | block k blocked => cases hop
  | receive delivery now => cases hop
  | _ => simp [Watch.after, Op.shuts, Op.accepted]

theorem Sound.advances (h : w.Sound id)
    (hadv : (w.book.presence id).Advances (next.presence id)) :
    (⟨next, w.log⟩ : Watch).Sound id where
  follows := by
    rw [hadv.register]
    exact h.follows
  idle hnone := by
    rw [hadv.expiresAt]
    exact h.idle (hadv.observed ▸ hnone)

theorem Sound.cleared (hobserved : (next.presence id).observed = none)
    (hexpires : (next.presence id).expiresAt = 0) : (⟨next, []⟩ : Watch).Sound id where
  follows := by
    rw [PresenceState.register, hobserved]
    exact .start _
  idle _ := hexpires

/-- Blocking an unknown contact is refused, and such a contact has no presence. -/
theorem presence_of_block_error {message : String}
    (h : Contacts.block book contact true = .error message) :
    book.presence contact = PresenceState.default := by
  cases hc : book.contacts[contact]? with
  | none => rw [Book.presence, hc, Option.map_none, Option.getD_none]
  | some c =>
      unfold Contacts.block at h
      rw [hc] at h
      cases h

theorem Sound.block (h : w.Sound id) (k : String) (blocked : Bool) :
    (w.after codec id (.block k blocked)).Sound id := by
  have hadvances : ¬ (k = id ∧ blocked = true) →
      (w.book.presence id).Advances ((w.book.after codec (.block k blocked)).presence id) := by
    intro hother
    cases hrun : Op.run codec w.book (.block k blocked) with
    | error message =>
        rw [after_eq_of_error hrun]
        exact .refl _
    | ok next =>
        rw [after_eq_of_ok hrun]
        exact .of_eq ((presence_block hrun id).trans (if_neg hother))
  by_cases hshut : k = id ∧ blocked = true
  · obtain ⟨rfl, rfl⟩ := hshut
    have hlog : w.after codec k (.block k true) = ⟨w.book.after codec (.block k true), []⟩ := by
      simp [Watch.after, Op.shuts]
    rw [hlog]
    cases hrun : Op.run codec w.book (.block k true) with
    | error message =>
        have hnone := presence_of_block_error hrun
        rw [after_eq_of_error hrun]
        apply Sound.cleared
        · rw [hnone]
          rfl
        · rw [hnone]
          rfl
    | ok next =>
        have hnext := presence_block hrun k
        rw [if_pos ⟨rfl, rfl⟩] at hnext
        rw [after_eq_of_ok hrun]
        apply Sound.cleared
        · rw [hnext]
        · rw [hnext]
  · have hlog : w.after codec id (.block k blocked) =
        ⟨w.book.after codec (.block k blocked), w.log⟩ := by
      have hshuts : Op.shuts id (.block k blocked) = false := by
        cases blocked with
        | false => rfl
        | true => exact beq_eq_false_iff_ne.mpr fun heq => hshut ⟨heq, rfl⟩
      simp [Watch.after, hshuts, Op.accepted]
    rw [hlog]
    exact h.advances (hadvances hshut)

theorem Sound.accepted {l : Lease} {peer : Contact} (h : w.Sound id)
    (hstamp : peer.presence.observedGeneration < l.generation)
    (hpeer : w.book.presence id = peer.presence)
    (hnext : next.presence id = { peer.presence with
      observedGeneration := l.generation
      observed := some l.mode
      expiresAt := l.expiresAt }) : (⟨next, w.log ++ [l]⟩ : Watch).Sound id where
  follows := by
    have hlt : (w.book.presence id).register.stamp < l.generation := by
      rw [hpeer]
      exact hstamp
    have htaken := h.follows.taken hlt
    rw [Register.write_of_lt hlt] at htaken
    rw [hnext]
    exact htaken
  idle hnone := by
    rw [hnext] at hnone
    cases hnone

/-- An accepted lease is written to the register; any other delivery leaves it. -/
theorem Sound.receive (h : w.Sound id) (delivery : ApplicationDelivery) (now : ℕ) :
    (w.after codec id (.receive delivery now)).Sound id := by
  have hlog : w.after codec id (.receive delivery now) =
      ⟨w.book.after codec (.receive delivery now),
        w.log ++ (Contacts.accepted codec id w.book delivery now).toList⟩ := by
    simp [Watch.after, Op.shuts, Op.accepted]
  rw [hlog]
  cases hacc : Contacts.accepted codec id w.book delivery now with
  | none =>
      rw [Option.toList_none, List.append_nil]
      apply h.advances
      cases hrun : Op.run codec w.book (.receive delivery now) with
      | error message =>
          rw [after_eq_of_error hrun]
          exact .refl _
      | ok next =>
          obtain ⟨r, hreceive, rfl⟩ := map_eq_ok.mp hrun
          rw [after_eq_of_ok hrun]
          exact .of_eq (presence_receive hreceive hacc)
  | some l =>
      obtain ⟨peer, hgrants⟩ := accepted_eq_some.mp hacc
      have hpeer := hgrants.get
      rw [Option.toList_some, hgrants.after]
      apply h.accepted hgrants.newer (presence_of_get hpeer)
      rw [setContact_eq_write, presence_write, if_pos rfl]

/-- Every operation writes to the register, clears it, or leaves it. -/
theorem Sound.after (h : w.Sound id) (op : Op) : (w.after codec id op).Sound id := by
  cases hop : op.observes with
  | false =>
      rw [after_quiet hop]
      exact h.advances (advances_after hop id)
  | true =>
      cases op with
      | block k blocked => exact h.block k blocked
      | receive delivery now => exact h.receive delivery now
      | _ => cases hop

theorem Sound.run (h : w.Sound id) (ops : List Op) :
    (ops.foldl (Watch.after codec id) w).Sound id := by
  induction ops generalizing w with
  | nil => exact h
  | cons op ops ih => exact ih (h.after op)

/-- What is observed of the contact is the newest lease of the log. -/
theorem Sound.newest (h : w.Sound id) :
    (w.book.presence id).observed = (w.log.argmax Lease.generation).map Lease.mode ∧
      (w.book.presence id).expiresAt =
        ((w.log.argmax Lease.generation).map Lease.expiresAt).getD 0 := by
  rw [← h.follows.greatest, PresenceState.register]
  cases hobserved : (w.book.presence id).observed with
  | none => exact ⟨rfl, h.idle hobserved⟩
  | some mode => exact ⟨rfl, rfl⟩

theorem book_foldl (w : Watch) (ops : List Op) :
    (ops.foldl (Watch.after codec id) w).book = ops.foldl (Book.after codec) w.book := by
  induction ops generalizing w with
  | nil => rfl
  | cons op ops ih => exact ih (w.after codec id op)

/-- A lease of the log was accepted from a delivery of the run. -/
theorem mem_log {ops : List Op} {l : Lease}
    (hl : l ∈ (ops.foldl (Watch.after codec id) w).log) :
    l ∈ w.log ∨ ∃ delivery now, Op.receive delivery now ∈ ops ∧
      key codec delivery.peerIdentity = id ∧ Opens codec delivery l.envelope := by
  induction ops generalizing w with
  | nil => exact Or.inl hl
  | cons op ops ih =>
      obtain hnow | ⟨delivery, now, hmem, hkey, hopen⟩ := ih hl
      · unfold Watch.after at hnow
        dsimp only at hnow
        split at hnow
        · cases hnow
        · obtain hold | hnew := List.mem_append.mp hnow
          · exact Or.inl hold
          · cases op with
            | receive delivery now =>
                obtain ⟨peer, hgrants⟩ := accepted_eq_some.mp (Option.mem_toList.mp hnew)
                exact Or.inr ⟨delivery, now, List.mem_cons_self, hgrants.sender,
                  hgrants.brings.opens⟩
            | _ => cases hnew
      · exact Or.inr ⟨delivery, now, List.mem_cons_of_mem op hmem, hkey, hopen⟩

end Watch

theorem observed_le_after (op : Op) (id : String) :
    (book.presence id).observedGeneration ≤
      ((book.after codec op).presence id).observedGeneration := by
  cases hop : op.observes with
  | false => exact (advances_after hop id).observedGeneration.ge
  | true =>
      cases hrun : op.run codec book with
      | error message => rw [after_eq_of_error hrun]
      | ok next =>
          rw [after_eq_of_ok hrun]
          cases op with
          | block k blocked =>
              rw [presence_block hrun id]
              split
              · exact Nat.le_refl _
              · exact Nat.le_refl _
          | receive delivery now =>
              obtain ⟨r, hreceive, rfl⟩ := map_eq_ok.mp hrun
              cases hacc : accepted codec id book delivery now with
              | none => rw [presence_receive hreceive hacc]
              | some l =>
                  obtain ⟨peer, hgrants⟩ := accepted_eq_some.mp hacc
                  rw [hgrants.receive] at hreceive
                  cases hreceive
                  rw [setContact_eq_write, presence_write, if_pos rfl,
                    presence_of_get hgrants.get]
                  exact hgrants.newer.le
          | _ => cases hop

/-- The observed generation of a contact never falls along a run. -/
theorem observed_mono (ops : List Op) (id : String) {n m : ℕ} (h : n ≤ m) :
    (((ops.take n).foldl (Book.after codec) book).presence id).observedGeneration ≤
      (((ops.take m).foldl (Book.after codec) book).presence id).observedGeneration := by
  induction m, h using Nat.le_induction with
  | base => exact Nat.le_refl _
  | succ m _ ih =>
      cases hop : ops[m]? with
      | none =>
          have hlen : ops.length ≤ m := List.getElem?_eq_none_iff.mp hop
          rw [List.take_of_length_le hlen] at ih
          rwa [List.take_of_length_le (Nat.le_succ_of_le hlen)]
      | some op =>
          rw [Machine.foldl_take_succ _ _ hop]
          exact ih.trans (observed_le_after op id)

/-- Once a run accepted a packet, its bytes change nothing any more. -/
theorem redelivered (ops : List Op) {n m : ℕ} {delivery delivery' : ApplicationDelivery}
    {l : Lease} (hop : ops[n]? = some (.receive delivery now))
    (hacc : accepted codec id ((ops.take n).foldl (Book.after codec) book) delivery now = some l)
    (hm : n < m) (hbody : delivery'.body = delivery.body)
    (hpeer : delivery'.peerIdentity = delivery.peerIdentity) (now' : ℕ) :
    ∃ flag, receive codec ((ops.take m).foldl (Book.after codec) book) delivery' now' =
      .ok ((ops.take m).foldl (Book.after codec) book, flag) := by
  obtain ⟨peer, hgrants⟩ := accepted_eq_some.mp hacc
  have hopen : Opens codec delivery' l.envelope := by
    rw [Opens, hbody]
    exact hgrants.brings.opens
  apply receive_stale hopen
  rw [hpeer, hgrants.sender]
  have hnow : l.generation ≤ (((ops.take (n + 1)).foldl (Book.after codec) book).presence
      id).observedGeneration := by
    rw [Machine.foldl_take_succ _ _ hop, hgrants.after, setContact_eq_write, presence_write,
      if_pos rfl]
  exact hnow.trans (observed_mono ops id hm)

/-- The leases a run queues for a contact have growing generations, and a delivery with the
bytes of one opens to it. In the book of a run that receives such packets, in any order and any
number of times, the mode and the expiry of the contact are those of the newest lease it
accepted since it last blocked the contact. The bytes of an accepted packet change nothing
again, and a presence packet never reaches the outbox. -/
theorem presence_last_writer_wins (codec : Codec) (hcodec : codec.RoundTrips) (contact : String)
    (turns : List Turn) (id : String) (ops : List Op) :
    ((queuedBy codec contact Book.default turns).Pairwise fun e e' =>
        e.1.generation < u64Max → e.1.generation < e'.1.generation) ∧
      (∀ e ∈ queuedBy codec contact Book.default turns, ∀ delivery : ApplicationDelivery,
        delivery.body = e.2 → Opens codec delivery e.1.envelope) ∧
      ((∀ delivery now, Op.receive delivery now ∈ ops → key codec delivery.peerIdentity = id →
          ∃ e ∈ queuedBy codec contact Book.default turns, delivery.body = e.2) →
        ∀ l ∈ acceptedSince codec id ops,
          ∃ e ∈ queuedBy codec contact Book.default turns, e.1 = l) ∧
      (((ops.foldl (Book.after codec) Book.default).presence id).observed =
          ((acceptedSince codec id ops).argmax Lease.generation).map Lease.mode ∧
        ((ops.foldl (Book.after codec) Book.default).presence id).expiresAt =
          (((acceptedSince codec id ops).argmax Lease.generation).map Lease.expiresAt).getD 0) ∧
      (∀ (n m : ℕ) (delivery delivery' : ApplicationDelivery) (now now' : ℕ) (l : Lease),
        ops[n]? = some (.receive delivery now) →
        accepted codec id ((ops.take n).foldl (Book.after codec) Book.default) delivery now =
          some l →
        n < m → delivery'.body = delivery.body → delivery'.peerIdentity = delivery.peerIdentity →
        ∃ flag, receive codec ((ops.take m).foldl (Book.after codec) Book.default) delivery' now' =
          .ok ((ops.take m).foldl (Book.after codec) Book.default, flag)) ∧
      ∀ (delivery : ApplicationDelivery) (l : Lease) (now : ℕ), Opens codec delivery l.envelope →
        ∃ next flag, receive codec (ops.foldl (Book.after codec) Book.default) delivery now =
          .ok (next, flag) ∧
            next.outbox = (ops.foldl (Book.after codec) Book.default).outbox := by
  have hopens : ∀ e ∈ queuedBy codec contact Book.default turns,
      ∀ delivery : ApplicationDelivery, delivery.body = e.2 →
        Opens codec delivery e.1.envelope := by
    intro e he delivery hbody
    exact opens_queuedBy hcodec he hbody
  refine ⟨pairwise_queuedBy (Nat.zero_le _), hopens, ?_, ?_, ?_, ?_⟩
  · intro hbodies l hl
    obtain hnone | ⟨delivery, now, hmem, hkey, hopen⟩ := Watch.mem_log hl
    · cases hnone
    · obtain ⟨e, he, hbody⟩ := hbodies delivery now hmem hkey
      have hsame : e.1.envelope = l.envelope := (hopens e he delivery hbody).unique hopen
      exact ⟨e, he, Lease.envelope_inj hsame⟩
  · have hsound : (ops.foldl (Watch.after codec id) Watch.start).Sound id :=
      (Watch.Sound.start id).run ops
    have hnewest := hsound.newest
    rwa [Watch.book_foldl] at hnewest
  · intro n m delivery delivery' now now' l hop hacc hm hbody hpeer
    exact redelivered ops hop hacc hm hbody hpeer now'
  · intro delivery l now hopen
    exact receive_presence_outbox hopen _ now

/-! ### A lease that arrives twice -/

namespace Sample

def lease : Lease := ⟨100000, .available, 700⟩

def leaseBytes : List UInt8 := [2, 160, 141, 6, 0, 188, 5]

def hashOfLease : Bytes 32 where
  toList := [212, 164, 135, 44, 211, 86, 218, 53, 17, 169, 246, 219, 237, 173, 132, 40, 20, 85,
      26, 180, 70, 15, 237, 55, 51, 184, 168, 147, 136, 4, 248, 134]
  length_toList := rfl

/-- The hash and the encodings as far as one presence needs them. -/
def presenceCodec : Codec where
  sha256 bytes :=
    if bytes = identity .a then hashOfA
    else if bytes = identity .b then hashOfB
    else if bytes = leaseBytes then hashOfLease
    else Bytes.fill 32 0
  toAllocvec e := if e = lease.envelope then .ok leaseBytes else .error "no sample"
  takeFromBytes bytes := if bytes = leaseBytes then some (lease.envelope, []) else none
  encode m := if m.contentType = mime then .ok m.body else .error "no sample"
  decode bytes := some ⟨mime, bytes⟩

theorem presence_roundTrips : presenceCodec.RoundTrips where
  envelope e bytes h := by
    simp only [presenceCodec] at h ⊢
    split at h
    case isTrue he =>
      cases h
      rw [if_pos rfl, he]
    case isFalse => cases h
  application m bytes h := by
    simp only [presenceCodec] at h ⊢
    split at h
    case isTrue hmime =>
      cases h
      rw [← hmime]
    case isFalse => cases h

/-- `a` adds `b` and shares with it. -/
def sharing : List Turn :=
  [.other (.add "bob" [] (identity .b) (identity .a)),
    .presence (sideKey presenceCodec identity .b) (some .available) 100]

/-- `b` adds `a` and receives the packet. -/
def observing : List Op :=
  [.add "alice" [] (identity .a) (identity .b), .receive (delivery .a leaseBytes) 101]

end Sample

/-- The lease is queued, accepted and observed, and its second arrival changes nothing. -/
theorem sample_lease_observed :
    queuedBy Sample.presenceCodec (sideKey Sample.presenceCodec Sample.identity .b) Book.default
        Sample.sharing = [(Sample.lease, Sample.leaseBytes)] ∧
      ((Sample.observing.foldl (Book.after Sample.presenceCodec) Book.default).presence
        (sideKey Sample.presenceCodec Sample.identity .a)).observed = some .available ∧
      ∃ flag, receive Sample.presenceCodec
          ((Sample.observing.take 2).foldl (Book.after Sample.presenceCodec) Book.default)
          (Sample.delivery .a Sample.leaseBytes) 102 =
        .ok ((Sample.observing.take 2).foldl (Book.after Sample.presenceCodec) Book.default,
          flag) := by
  have hqueued : queuedBy Sample.presenceCodec
      (sideKey Sample.presenceCodec Sample.identity .b) Book.default Sample.sharing =
        [(Sample.lease, Sample.leaseBytes)] := by
    decide +kernel
  have haccepted : acceptedSince Sample.presenceCodec
      (sideKey Sample.presenceCodec Sample.identity .a) Sample.observing = [Sample.lease] := by
    decide +kernel
  have hnow : accepted Sample.presenceCodec (sideKey Sample.presenceCodec Sample.identity .a)
      ((Sample.observing.take 1).foldl (Book.after Sample.presenceCodec) Book.default)
      (Sample.delivery .a Sample.leaseBytes) 101 = some Sample.lease := by
    decide +kernel
  obtain ⟨-, -, -, hobserved, hagain, -⟩ :=
    presence_last_writer_wins Sample.presenceCodec Sample.presence_roundTrips
      (sideKey Sample.presenceCodec Sample.identity .b) Sample.sharing
      (sideKey Sample.presenceCodec Sample.identity .a) Sample.observing
  refine ⟨hqueued, ?_, ?_⟩
  · rw [hobserved.1, haccepted]
    rfl
  · exact hagain 1 2 (Sample.delivery .a Sample.leaseBytes) (Sample.delivery .a Sample.leaseBytes)
      101 102 Sample.lease rfl hnow (by decide) rfl rfl

end Contacts

end GChat
