import GChat.Contacts.Arrivals
import GChat.Contacts.Delivery

/-!
# When the exchange makes progress

A message is accepted only with room for its receipt, and a message leaves the outbox
only for its receipt. So two parties with a message between them go on exactly as
long as the receiver of a message has room, or a receipt is on its way; and a book
accepts messages at all exactly as long as its outbox, which all contacts share, is
not full.
-/

namespace GChat

namespace Contacts

open Foundation Api

section Definitions

variable (codec : Codec) (identity : Side → List UInt8)

/-- Each party has the other one as a contact that is not blocked. -/
def Exchange.Mutual (s : Exchange) : Prop :=
  ∀ x, ∃ c, (s.book x).contacts[sideKey codec identity x.other]? = some c ∧ c.blocked = false

/-- A packet in the outbox of `x` with a message for the other party that has not seen it. -/
def Exchange.Undelivered (s : Exchange) (x : Side) (k : String) (p : Pending) : Prop :=
  (s.book x).outbox[k]? = some p ∧ p.receipt = false ∧
    p.contact = sideKey codec identity x.other ∧
    ∀ c, (s.book x.other).contacts[sideKey codec identity x]? = some c → c.seen.contains k = false

/-- A packet as the other party gets it. -/
def handedOver (x : Side) (p : Pending) (receivedAt : ℕ) : ApplicationDelivery :=
  ⟨none, none, identity x, receivedAt, p.wire⟩

/-- A message or a file is recorded that the contact had not sent before. -/
def Delivers (book next : Book) (contact : String) : Prop :=
  ∃ c c' mid content, book.contacts[contact]? = some c ∧ next.contacts[contact]? = some c' ∧
    c.seen.contains (hex mid.toList) = false ∧ c'.seen.contains (hex mid.toList) = true ∧
    Recorded c' mid content

/-- A packet that waited for its receipt is gone. -/
def Clears (book next : Book) : Prop :=
  ∃ (k : String) (q : Pending), book.outbox[k]? = some q ∧ q.receipt = false ∧
    next.outbox[k]? = none

/-- Some packet between the parties is received, and a message is delivered or a pending
packet cleared by it. -/
def Exchange.Progresses (s : Exchange) (receivedAt now : ℕ) : Prop :=
  ∃ (x : Side) (k : String) (p : Pending) (next : Book), (s.book x).outbox[k]? = some p ∧ p.contact = sideKey codec identity x.other ∧
    receive codec (s.book x.other) (handedOver identity x p receivedAt) now = .ok (next, true) ∧
    (Delivers (s.book x.other) next (sideKey codec identity x) ∨
      Clears (s.book x.other) next)

/-- Room for a new message of a contact and for its receipt. -/
def Book.HasRoom (book : Book) (contact : String) : Prop :=
  book.outbox.size < maxPending ∧
    ∀ c, book.contacts[contact]? = some c →
      c.messages.length < maxMessages ∧ c.seen.size < maxMessages

/-- A packet of `x` is the receipt of a packet that waits at the other party. -/
def Exchange.Acknowledges (s : Exchange) (x : Side) (p : Pending) : Prop :=
  ∃ mid q, (s.book x.other).outbox[hex mid.toList]? = some q ∧ q.receipt = false ∧
    q.contact = sideKey codec identity x ∧ packet codec (.receipt mid q.digest) = .ok p.wire

/-- The receiver of an undelivered message has room, or a receipt waits for its packet. -/
def Exchange.Unjammed (s : Exchange) : Prop :=
  ∃ (x : Side) (k : String) (p : Pending), (s.book x).outbox[k]? = some p ∧ p.contact = sideKey codec identity x.other ∧
    ((s.Undelivered codec identity x k p ∧
        (s.book x.other).HasRoom (sideKey codec identity x)) ∨
      s.Acknowledges codec identity x p)

/-- A message that can be encoded can be acknowledged. -/
def Codec.EncodesReceipts (codec : Codec) : Prop :=
  ∀ mid content hash, digest codec (.message mid content) = .ok hash →
    ∃ wire, packet codec (.receipt mid hash) = .ok wire

end Definitions

section Progress

variable {codec : Codec} {identity : Side → List UInt8} {s : Exchange} {book next : Book}

/-! ### What waits in an outbox -/

/-- A packet of an outbox: a valid message under its identifier, or a receipt or a
presence, which wait for nothing. -/
inductive Pending.Labelled (codec : Codec) (k : String) (p : Pending) : Prop
  | message {mid : Bytes 32} {content : Content} : p.receipt = false → k = hex mid.toList →
      validContent content = true → packet codec (.message mid content) = .ok p.wire →
      Labelled codec k p
  | receipt {mid hash : Bytes 32} : p.receipt = true →
      packet codec (.receipt mid hash) = .ok p.wire → Labelled codec k p
  | presence {generation : ℕ} {mode : ContactPresence} {expiresAt : ℕ} : p.receipt = true →
      packet codec (.presence generation mode expiresAt) = .ok p.wire → Labelled codec k p

theorem Pending.Labelled.same {k : String} {p p' : Pending} (h : p.Labelled codec k)
    (hsame : SamePacket p p') : p'.Labelled codec k := by
  cases h with
  | message hreceipt hk hvalid hwire =>
      exact .message (hsame.receipt.trans hreceipt) hk hvalid (hsame.wire ▸ hwire)
  | receipt hreceipt hwire => exact .receipt (hsame.receipt.trans hreceipt) (hsame.wire ▸ hwire)
  | presence hreceipt hwire => exact .presence (hsame.receipt.trans hreceipt) (hsame.wire ▸ hwire)

def Book.Labelled (codec : Codec) (book : Book) : Prop :=
  ∀ (k : String) (p : Pending), book.outbox[k]? = some p → p.Labelled codec k

namespace Book.Labelled

theorem start : Book.default.Labelled codec := by
  intro k p hp
  simp [Book.default] at hp

theorem insert {k : String} {p : Pending} {contacts : StringMap Contact}
    (h : book.Labelled codec) (hp : p.Labelled codec k) :
    Book.Labelled codec { book with contacts := contacts, outbox := book.outbox.insert k p } := by
  intro a q hq
  simp only [StringMap.get_insert] at hq
  split at hq
  case isTrue heq =>
    cases hq
    exact heq ▸ hp
  case isFalse => exact h a q hq

theorem quiet (h : book.Labelled codec) (hquiet : Quiet codec book next) :
    next.Labelled codec := by
  intro k p' hp'
  obtain ⟨p, hp, hsame⟩ | ⟨hreceipt, generation, mode, expiresAt, hwire⟩ := hquiet.outbox k p' hp'
  · exact (h k p hp).same hsame
  · exact .presence hreceipt hwire

theorem queue {contact operation : String} {content : Content} {mid : Bytes 32} {now : ℕ}
    (h : book.Labelled codec)
    (hrun : queue codec book contact content operation mid now = .ok next) :
    next.Labelled codec := by
  obtain ⟨-, rfl⟩ | ⟨peer, wire, hash, -, hvalid, -, -, -, -, hwire, -, rfl⟩ := queue_cases hrun
  · exact h
  · exact h.insert (.message rfl rfl hvalid hwire)

theorem receive {delivery : ApplicationDelivery} {now : ℕ} {flag : Bool}
    (h : book.Labelled codec) (hrun : receive codec book delivery now = .ok (next, flag)) :
    next.Labelled codec := by
  obtain hquiet | ⟨peer, hpeer, ⟨mid, hash, -, rfl⟩ | ⟨mid, content, -, hmessage⟩⟩ :=
    receive_effect hrun
  · exact h.quiet hquiet
  · obtain heq | ⟨p, -, -, heq⟩ := receiveReceipt_cases book _ peer mid hash
    · rw [heq]
      exact h
    · rw [heq]
      intro k q hq
      simp only [Book.write, StringMap.get_erase] at hq
      split at hq
      · cases hq
      · exact h k q hq
  · obtain ⟨error, rfl⟩ | ⟨hash, wire, peer', -, -, hwire, -, -, rfl⟩ :=
      receiveMessage_cases hmessage
    · exact h
    · exact h.insert (.receipt rfl hwire)

theorem run {op : Op} (h : book.Labelled codec) (hrun : op.run codec book = .ok next) :
    next.Labelled codec := by
  cases hcarries : op.carries with
  | false => exact h.quiet (quiet_run hcarries hrun)
  | true =>
      cases op with
      | queue contact content operation mid now => exact h.queue hrun
      | receive delivery now =>
          obtain ⟨result, hreceive, rfl⟩ := map_eq_ok.mp hrun
          exact h.receive hreceive
      | _ => cases hcarries

end Book.Labelled

/-- A step of the exchange writes at most one book, by one of its operations. -/
theorem exchange_step_book {t : Exchange} {event : Event}
    (h : Exchange.step codec identity s event = some t) :
    t.book = s.book ∨ ∃ (x : Side) (op : Op) (next : Book),
      op.run codec (s.book x) = .ok next ∧ t.book = Function.update s.book x next := by
  cases event with
  | op x op =>
      simp only [Exchange.step] at h
      split at h
      · cases hop : op.run codec (s.book x) with
        | error e =>
            rw [hop] at h
            cases h
        | ok next =>
            rw [hop] at h
            cases h
            exact Or.inr ⟨x, op, next, hop, rfl⟩
      · cases h
  | take x now =>
      cases h
      exact Or.inl rfl
  | send x id pending =>
      simp only [Exchange.step] at h
      split at h
      · obtain ⟨application, -, rfl⟩ := Option.map_eq_some_iff.mp h
        exact Or.inl rfl
      · cases h

/-- What every operation of a book keeps holds of both books of an exchange. -/
theorem reachable_books {I : Book → Prop} (hstart : I Book.default)
    (hrun : ∀ (book : Book) (op : Op) (next : Book), I book → op.run codec book = .ok next →
      I next) (h : (exchange codec identity).Reachable s) (x : Side) : I (s.book x) := by
  apply h.invariant (I := fun s => ∀ x, I (s.book x)) _ _ x
  · intro s hs
    cases hs
    exact fun _ => hstart
  · intro s event t _ hs hstep x
    obtain hbook | ⟨y, op, next, hop, hbook⟩ := exchange_step_book hstep
    · exact hbook ▸ hs x
    · rw [hbook]
      obtain rfl | hne := eq_or_ne x y
      · rw [Function.update_self]
        exact hrun _ op next (hs x) hop
      · rw [Function.update_of_ne hne]
        exact hs x

/-! ### The envelope of a packet -/

/-- A packet is read back as the envelope it was made of. -/
theorem opens_handedOver (hcodec : codec.RoundTrips) {envelope : Envelope} {p : Pending}
    (h : packet codec envelope = .ok p.wire) (x : Side) (receivedAt : ℕ) :
    Opens codec (handedOver identity x p receivedAt) envelope := by
  simp only [packet, bind_eq_ok] at h
  obtain ⟨body, hbody, hencode⟩ := h
  exact ⟨⟨mime, body⟩, hcodec.application _ _ hencode, rfl, hcodec.envelope _ _ hbody⟩

theorem exists_digest {envelope : Envelope} {wire : List UInt8}
    (h : packet codec envelope = .ok wire) : ∃ hash, digest codec envelope = .ok hash := by
  simp only [packet, bind_eq_ok] at h
  obtain ⟨body, hbody, -⟩ := h
  exact ⟨codec.sha256 body, by simp [digest, hbody, bind, Except.bind, pure, Except.pure]⟩

/-- Between contacts that are not blocked every packet brings its envelope. -/
theorem brings_handedOver (hcodec : codec.RoundTrips) (hmutual : s.Mutual codec identity)
    {x : Side} {p : Pending} {envelope : Envelope} (h : packet codec envelope = .ok p.wire)
    (receivedAt : ℕ) :
    ∃ peer, (s.book x.other).contacts[sideKey codec identity x]? = some peer ∧
      Brings codec (s.book x.other) (handedOver identity x p receivedAt) peer envelope := by
  obtain ⟨peer, hpeer, hblocked⟩ := hmutual x.other
  rw [x.other_other] at hpeer
  exact ⟨peer, hpeer, ⟨rfl, rfl⟩, hpeer, hblocked, opens_handedOver hcodec h x receivedAt⟩

/-! ### What an envelope can do -/

theorem Recorded.record (c : Contact) (contact : String) (mid hash : Bytes 32)
    (content : Content) (receivedAt : ℕ) :
    Recorded (c.record contact mid content hash receivedAt) mid content := by
  unfold Contact.record
  cases hentry : message mid contact c.name content false receivedAt with
  | none =>
      simp only [hentry]
      exact Or.inr ⟨message_eq_none hentry, StringMap.get_insert_self _ _ _⟩
  | some m =>
      simp only [hentry]
      obtain ⟨hid, hmine, hshows, -⟩ := message_eq_some hentry
      exact Or.inl ⟨m, List.mem_append_right _ (List.mem_singleton.mpr rfl), hmine, hid, hshows⟩

/-- Where nothing is recorded or removed there is no progress. -/
theorem no_progress {contact : String}
    (hseen : ∀ c c' : Contact, book.contacts[contact]? = some c →
      next.contacts[contact]? = some c' → c'.seen = c.seen)
    (houtbox : ∀ (k : String) (q : Pending), book.outbox[k]? = some q → q.receipt = false →
      next.outbox[k]? ≠ none) :
    ¬ (Delivers book next contact ∨ Clears book next) := by
  intro h
  obtain ⟨c, c', mid, content, hc, hc', hnot, hhas, -⟩ | ⟨k, q, hq, hreceipt, hgone⟩ := h
  · rw [hseen c c' hc hc', hnot] at hhas
    cases hhas
  · exact houtbox k q hq hreceipt hgone

theorem no_progress_setContact {contact : String} {peer peer' : Contact}
    (hpeer : book.contacts[contact]? = some peer) (hseen : peer'.seen = peer.seen) :
    ¬ (Delivers book (book.setContact contact peer') contact ∨
      Clears book (book.setContact contact peer')) := by
  apply no_progress
  · intro c c' hc hc'
    rw [hpeer] at hc
    cases hc
    rw [Book.setContact, StringMap.get_insert_self] at hc'
    cases hc'
    exact hseen
  · intro k q hq _
    rw [Book.setContact, hq]
    exact Option.some_ne_none q

theorem receivePresence_no_progress {contact : String} {peer : Contact}
    (hpeer : book.contacts[contact]? = some peer) (generation : ℕ) (mode : ContactPresence)
    (expiresAt now : ℕ) :
    ¬ (Delivers book (receivePresence book contact peer generation mode expiresAt now) contact ∨
      Clears book (receivePresence book contact peer generation mode expiresAt now)) := by
  obtain heq | ⟨presence, heq⟩ :=
    receivePresence_cases book contact peer generation mode expiresAt now
  · rw [heq]
    apply no_progress
    · intro c c' hc hc'
      rw [hc] at hc'
      cases hc'
      rfl
    · intro k q hq _
      rw [hq]
      exact Option.some_ne_none q
  · rw [heq]
    exact no_progress_setContact hpeer rfl

/-- A receipt makes progress only by the packet it belongs to. -/
theorem receiveReceipt_progress {contact : String} {peer : Contact} {mid hash : Bytes 32}
    (hpeer : book.contacts[contact]? = some peer)
    (h : Delivers book (receiveReceipt book contact peer mid hash) contact ∨
      Clears book (receiveReceipt book contact peer mid hash)) :
    ∃ q, book.outbox[hex mid.toList]? = some q ∧ q.acknowledgedBy contact hash = true := by
  obtain heq | ⟨q, hq, hack, -⟩ := receiveReceipt_cases book contact peer mid hash
  · rw [heq] at h
    refine absurd h (no_progress ?_ ?_)
    · intro c c' hc hc'
      rw [hc] at hc'
      cases hc'
      rfl
    · intro k q hq _
      rw [hq]
      exact Option.some_ne_none q
  · exact ⟨q, hq, hack⟩

/-- A message makes progress only if it was not seen before and there is room. -/
theorem receiveMessage_progress {contact : String} {peer : Contact} {mid : Bytes 32}
    {content : Content} {receivedAt : ℕ} (hpeer : book.contacts[contact]? = some peer)
    (hrun : receiveMessage codec book contact peer mid content receivedAt = .ok next)
    (h : Delivers book next contact ∨ Clears book next) :
    peer.seen[hex mid.toList]? = none ∧ book.outbox.size < maxPending ∧
      peer.messages.length < maxMessages ∧ peer.seen.size < maxMessages := by
  obtain ⟨error, rfl⟩ | ⟨hash, wire, peer', -, -, -, hroom, hcase, rfl⟩ :=
    receiveMessage_cases hrun
  · exact absurd h (no_progress_setContact hpeer rfl)
  · obtain ⟨-, rfl⟩ | ⟨hunseen, hmessages, hseen, -⟩ := hcase
    · refine absurd h (no_progress ?_ ?_)
      · intro c c' hc hc'
        rw [hpeer] at hc
        cases hc
        rw [Book.write, StringMap.get_insert_self] at hc'
        cases hc'
        rfl
      · intro k q hq _
        simp only [Book.write, StringMap.get_insert]
        split
        · exact Option.some_ne_none _
        · rw [hq]
          exact Option.some_ne_none q
    · exact ⟨hunseen, hroom, hmessages, hseen⟩

/-! ### Progress of the exchange -/

section Exchange

variable {x : Side} {k : String} {p : Pending}

/-- An undelivered message is delivered where there is room. -/
theorem Exchange.Undelivered.progresses (h : s.Undelivered codec identity x k p)
    (hcodec : codec.RoundTrips) (hreceipts : codec.EncodesReceipts)
    (hlabelled : (s.book x).Labelled codec) (hmutual : s.Mutual codec identity)
    (hroom : (s.book x.other).HasRoom (sideKey codec identity x)) (receivedAt now : ℕ) :
    s.Progresses codec identity receivedAt now := by
  obtain ⟨hp, hreceipt, hcontact, hunseen⟩ := h
  cases hlabelled k p hp with
  | receipt htrue => exact absurd (hreceipt.symm.trans htrue) Bool.false_ne_true
  | presence htrue => exact absurd (hreceipt.symm.trans htrue) Bool.false_ne_true
  | @message mid content _ hk hvalid hwire =>
      subst hk
      obtain ⟨peer, hpeer, hbrings⟩ := brings_handedOver hcodec hmutual hwire receivedAt
      obtain ⟨hash, hhash⟩ := exists_digest hwire
      obtain ⟨wire, hack⟩ := hreceipts mid content hash hhash
      have hnone : peer.seen[hex mid.toList]? = none := by
        have hnot := hunseen peer hpeer
        rwa [StringMap.contains_eq_isSome, Option.isSome_eq_false_iff,
          Option.isNone_iff_eq_none] at hnot
      have hadmits : Admits codec (s.book x.other) peer mid content hash wire :=
        ⟨hvalid, hhash, hack, hnone, hroom.1, (hroom.2 peer hpeer).1, (hroom.2 peer hpeer).2⟩
      have hrun := hbrings.receive now
      rw [receiveEnvelope, hadmits.receiveMessage] at hrun
      refine ⟨x, _, p, _, hp, hcontact, hrun, Or.inl ?_⟩
      refine ⟨peer, _, mid, content, hpeer, StringMap.get_insert_self _ _ _,
        hunseen peer hpeer, ?_, Recorded.record _ _ _ _ _ _⟩
      exact StringMap.contains_of_get (seen_record_self _ _ _ _ _ _)

/-- A receipt clears its packet. -/
theorem Exchange.Acknowledges.progresses (h : s.Acknowledges codec identity x p)
    (hp : (s.book x).outbox[k]? = some p) (hcontact : p.contact = sideKey codec identity x.other)
    (hcodec : codec.RoundTrips) (hmutual : s.Mutual codec identity) (receivedAt now : ℕ) :
    s.Progresses codec identity receivedAt now := by
  obtain ⟨mid, q, hq, hreceipt, hqcontact, hwire⟩ := h
  obtain ⟨peer, hpeer, hbrings⟩ := brings_handedOver hcodec hmutual hwire receivedAt
  have hrun := hbrings.receive now
  refine ⟨x, k, p, _, hp, hcontact, hrun, Or.inr ⟨hex mid.toList, q, hq, hreceipt, ?_⟩⟩
  have hack : q.acknowledgedBy (sideKey codec identity x) q.digest = true := by
    simp [Pending.acknowledgedBy, hreceipt, hqcontact]
  change (receiveReceipt (s.book x.other) (sideKey codec identity x) peer mid
    q.digest).outbox[hex mid.toList]? = none
  unfold receiveReceipt
  dsimp only
  rw [hq, Option.any_some, if_pos hack, StringMap.get_erase, if_pos rfl]

/-- Progress is made by a message where there is room, or by a receipt. -/
theorem Exchange.Progresses.unjammed {receivedAt now : ℕ}
    (h : s.Progresses codec identity receivedAt now) (hcodec : codec.RoundTrips)
    (hlabelled : ∀ x, (s.book x).Labelled codec) (hmutual : s.Mutual codec identity) :
    s.Unjammed codec identity := by
  obtain ⟨x, k, p, next, hp, hcontact, hrun, hprogress⟩ := h
  refine ⟨x, k, p, hp, hcontact, ?_⟩
  cases hlabelled x k p hp with
  | presence _ hwire =>
      obtain ⟨peer, hpeer, hbrings⟩ := brings_handedOver hcodec hmutual hwire receivedAt
      rw [hbrings.receive now] at hrun
      cases hrun
      exact absurd hprogress (receivePresence_no_progress hpeer _ _ _ _)
  | @receipt mid hash _ hwire =>
      obtain ⟨peer, hpeer, hbrings⟩ := brings_handedOver hcodec hmutual hwire receivedAt
      rw [hbrings.receive now] at hrun
      cases hrun
      obtain ⟨q, hq, hack⟩ := receiveReceipt_progress hpeer hprogress
      simp only [Pending.acknowledgedBy, Bool.and_eq_true, Bool.not_eq_true', beq_iff_eq] at hack
      exact Or.inr ⟨mid, q, hq, hack.1.1, hack.1.2, hack.2 ▸ hwire⟩
  | @message mid content hreceipt hk _ hwire =>
      subst hk
      obtain ⟨peer, hpeer, hbrings⟩ := brings_handedOver hcodec hmutual hwire receivedAt
      rw [hbrings.receive now] at hrun
      obtain ⟨b, hmessage, heq⟩ := map_eq_ok.mp hrun
      cases heq
      obtain ⟨hunseen, hroom, hlimits⟩ := receiveMessage_progress hpeer hmessage hprogress
      have hget : ∀ {c : Contact}, (s.book x.other).contacts[sideKey codec identity x]? = some c →
          c = peer := by
        intro c hc
        rw [hpeer] at hc
        exact (Option.some.inj hc).symm
      refine Or.inl ⟨⟨hp, hreceipt, hcontact, ?_⟩, hroom, ?_⟩
      · intro c hc
        rw [hget hc, StringMap.contains_eq_isSome, hunseen, Option.isSome_none]
      · intro c hc
        rw [hget hc]
        exact hlimits

theorem progresses_iff (hcodec : codec.RoundTrips) (hreceipts : codec.EncodesReceipts)
    (h : (exchange codec identity).Reachable s) (hmutual : s.Mutual codec identity)
    (receivedAt now : ℕ) :
    s.Progresses codec identity receivedAt now ↔ s.Unjammed codec identity := by
  have hlabelled : ∀ x, (s.book x).Labelled codec :=
    reachable_books Book.Labelled.start (fun _ _ _ hb hrun => hb.run hrun) h
  constructor
  · intro hprogress
    exact hprogress.unjammed hcodec hlabelled hmutual
  · intro hunjammed
    obtain ⟨x, k, p, hp, hcontact, ⟨hundelivered, hroom⟩ | hack⟩ := hunjammed
    · exact hundelivered.progresses hcodec hreceipts (hlabelled x) hmutual hroom receivedAt now
    · exact hack.progresses hp hcontact hcodec hmutual receivedAt now

end Exchange

/-- A message that is no reused identifier is refused for its receipt exactly where the
outbox is full. -/
theorem receive_refused_iff {delivery : ApplicationDelivery} {peer : Contact}
    {mid hash : Bytes 32} {content : Content} (hreceipts : codec.EncodesReceipts)
    (hbrings : Brings codec book delivery peer (.message mid content))
    (hvalid : validContent content = true)
    (hhash : digest codec (.message mid content) = .ok hash)
    (hsame : ∀ old, peer.seen[hex mid.toList]? = some old → old = hash) (now : ℕ) :
    receive codec book delivery now = .error "Contact receipt outbox is full" ↔
      maxPending ≤ book.outbox.size := by
  obtain ⟨wire, hwire⟩ := hreceipts mid content hash hhash
  have hnot : peer.seen[hex mid.toList]?.any (· != hash) = false := by
    cases hold : peer.seen[hex mid.toList]? with
    | none => rfl
    | some old => simp [hsame old hold]
  rw [hbrings.receive now, receiveEnvelope, receiveMessage, validateContent_eq_ok hvalid]
  by_cases hroom : maxPending ≤ book.outbox.size
  · simp [hhash, hnot, hroom, refuse, bind, Except.bind, Except.map]
  · simp only [hroom, iff_false]
    generalize hlimit : (!peer.seen.contains (hex mid.toList) &&
      (decide (maxMessages ≤ peer.messages.length) ||
        decide (maxMessages ≤ peer.seen.size))) = limit
    cases limit with
    | true => simp [hhash, hnot, hroom, hlimit, refuse, bind, Except.bind, Except.map]
    | false =>
        simp [hhash, hnot, hroom, hlimit, hwire, refuse, bind, Except.bind, Except.map, pure,
          Except.pure]

end Progress

/-- A delivery with a valid message, under an identifier that stands for nothing else. -/
def Offers (codec : Codec) (book : Book) (delivery : ApplicationDelivery) : Prop :=
  ∃ peer mid content hash, Brings codec book delivery peer (.message mid content) ∧
    validContent content = true ∧ digest codec (.message mid content) = .ok hash ∧
    ∀ old, peer.seen[hex mid.toList]? = some old → old = hash

/-- Between two parties with an undelivered message there is progress exactly if the receiver
of such a message has room or a receipt waits for its packet; and no message from any contact
is refused for its receipt exactly where the outbox is not full. -/
theorem exchange_progress_iff (codec : Codec) (identity : Side → List UInt8)
    (hcodec : codec.RoundTrips) (hreceipts : codec.EncodesReceipts) (s : Exchange)
    (h : (exchange codec identity).Reachable s) (hmutual : s.Mutual codec identity)
    (receivedAt now : ℕ) :
    (((∃ x k p, s.Undelivered codec identity x k p) →
        s.Progresses codec identity receivedAt now) ↔
      ((∃ x k p, s.Undelivered codec identity x k p) → s.Unjammed codec identity)) ∧
    ∀ (x : Side) (delivery : ApplicationDelivery), Offers codec (s.book x) delivery →
      (receive codec (s.book x) delivery now ≠ .error "Contact receipt outbox is full" ↔
        (s.book x).outbox.size < maxPending) := by
  constructor
  · rw [progresses_iff hcodec hreceipts h hmutual receivedAt now]
  · intro x delivery hoffers
    obtain ⟨peer, mid, content, hash, hbrings, hvalid, hhash, hsame⟩ := hoffers
    rw [ne_eq, receive_refused_iff hreceipts hbrings hvalid hhash hsame now, not_le]

/-! ### One message on its way -/

namespace Sample

theorem encodesReceipts : codec.EncodesReceipts := by
  intro id content hash h
  simp only [digest, bind_eq_ok, pure_eq_ok] at h
  obtain ⟨bytes, hbytes, rfl⟩ := h
  simp only [codec] at hbytes
  split at hbytes
  case isTrue heq =>
    cases heq
    cases hbytes
    exact ⟨receiptBytes, by decide +kernel⟩
  case isFalse =>
    split at hbytes
    case isTrue heq => cases heq
    case isFalse => cases hbytes

/-- The exchange when `a` has queued its message. -/
def waiting : Exchange :=
  ((run.take 3).foldlM (Exchange.step codec identity) Exchange.start).getD Exchange.start

theorem waiting_mutual : waiting.Mutual codec identity := by
  have hblocked : ∀ x, (waiting.book x).contacts[sideKey codec identity x.other]?.map (·.blocked) =
      some false := by
    intro x
    cases x <;> decide +kernel
  intro x
  exact Option.map_eq_some_iff.mp (hblocked x)

theorem waiting_undelivered : waiting.Undelivered codec identity .a (hex mid.toList)
    ⟨sideKey codec identity .b, messageBytes, 0, false, hashOfMessage⟩ := by
  have hseen : (waiting.book .b).contacts[sideKey codec identity .a]?.map
      (fun c => c.seen.contains (hex mid.toList)) = some false := by
    decide +kernel
  refine ⟨by decide +kernel, rfl, rfl, ?_⟩
  intro c hc
  change (waiting.book .b).contacts[sideKey codec identity .a]? = some c at hc
  rw [hc] at hseen
  exact Option.some.inj hseen

theorem waiting_hasRoom : (waiting.book .b).HasRoom (sideKey codec identity .a) := by
  have hlimits : (waiting.book .b).contacts[sideKey codec identity .a]?.map
      (fun c => (c.messages.length, c.seen.size)) = some (0, 0) := by
    decide +kernel
  refine ⟨by decide +kernel, ?_⟩
  intro c hc
  rw [hc, Option.map_some, Option.some.injEq, Prod.mk.injEq] at hlimits
  rw [hlimits.1, hlimits.2]
  decide

end Sample

theorem sample_progress :
    Sample.waiting.Progresses Sample.codec Sample.identity 101 101 := by
  have hwaiting := Sample.waiting_undelivered
  have h := exchange_progress_iff Sample.codec Sample.identity Sample.roundTrips
    Sample.encodesReceipts Sample.waiting
    (Machine.Reachable.getD_foldlM Exchange.start _ (Sample.run.take 3)) Sample.waiting_mutual
    101 101
  apply h.1.mpr
  · intro _
    exact ⟨.a, _, _, hwaiting.1, hwaiting.2.2.1, Or.inl ⟨hwaiting, Sample.waiting_hasRoom⟩⟩
  · exact ⟨.a, _, _, hwaiting⟩

end Contacts

end GChat
