import GChat.Contacts.Delivery

/-!
# Messages that wait

An own message is shown as accepted locally as long as its packet waits in the outbox. The
two collections are written by queueing, receipts and blocking; presence and receipts share
the outbox under keys that no message has.
-/

namespace GChat

namespace Contacts

open Foundation Api

/-! ### Changes of a book -/

/-- What an operation may change, apart from queueing and from completing a transmission. -/
inductive Change (book : Book) : Book → Prop where
  | contact {id : String} {c d : Contact} : book.contacts[id]? = some c →
      d.messages = c.messages → (c.blocked = false → d.blocked = false) →
      Change book (book.setContact id d)
  | added {id : String} {d : Contact} : book.contacts[id]? = none → d.messages = [] →
      Change book (book.setContact id d)
  | shutOut {id : String} {c : Contact} : book.contacts[id]? = some c →
      Change book (book.write id c.shutOut (book.outbox.filter fun _ p => p.contact != id))
  | parcel {contact k : String} {c d : Contact} {p : Pending} :
      book.contacts[contact]? = some c → c.blocked = false → d.blocked = false →
      (∀ m ∈ d.messages, m.mine = true → m ∈ c.messages) →
      p.contact = contact → p.receipt = true → '/' ∈ k.toList →
      Change book (book.write contact d (book.outbox.insert k p))
  | promoted {contact : String} {c : Contact} {p : Pending} {mid : Bytes 32} :
      book.contacts[contact]? = some c → book.outbox[hex mid.toList]? = some p →
      p.contact = contact →
      Change book (book.write contact
        { c with messages := c.messages.map (promote (hex mid.toList)) }
        (book.outbox.erase (hex mid.toList)))

section Changes

variable {codec : Codec} {book next : Book} {now : ℕ}

theorem slash_mem_presenceId (contact : String) : '/' ∈ (presenceId contact).toList := by
  simp [presenceId]

theorem slash_mem_ackId (contact : String) (mid : Bytes 32) :
    '/' ∈ (ackId contact mid).toList := by
  simp [ackId]

theorem change_queuePresence {contact : String} {desired : Option ContactPresence}
    (h : queuePresence codec book contact desired now = .ok next) : Change book next := by
  obtain ⟨peer, envelope, wire, hash, hpeer, hblocked, -, -, -, -, rfl⟩ := queuePresence_cases h
  exact .parcel hpeer hblocked hblocked (fun _ hm _ => hm) rfl rfl (slash_mem_presenceId contact)

theorem own_record {c : Contact} {contact : String} {mid hash : Bytes 32} {content : Content}
    {receivedAt : ℕ} {m : Message}
    (hm : m ∈ (c.record contact mid content hash receivedAt).messages) (hmine : m.mine = true) :
    m ∈ c.messages := by
  unfold Contact.record at hm
  cases hentry : message mid contact c.name content false receivedAt with
  | none =>
      simp only [hentry] at hm
      exact hm
  | some entry =>
      simp only [hentry] at hm
      obtain hold | hlast := List.mem_append.mp hm
      · exact hold
      · obtain ⟨-, hforeign, -⟩ := message_eq_some hentry
        rw [List.mem_singleton.mp hlast, hforeign] at hmine
        cases hmine

theorem blocked_record (c : Contact) (contact : String) (mid hash : Bytes 32) (content : Content)
    (receivedAt : ℕ) : (c.record contact mid content hash receivedAt).blocked = c.blocked := by
  unfold Contact.record
  dsimp only
  split
  · rfl
  · rfl

theorem change_receive {delivery : ApplicationDelivery} {flag : Bool}
    (h : receive codec book delivery now = .ok (next, flag)) :
    next = book ∨ Change book next := by
  obtain rfl | ⟨peer, hpeer, hblocked, ⟨error, rfl⟩ | ⟨application, envelope, -, -, -, henv⟩⟩ :=
    receive_cases h
  · exact Or.inl rfl
  · exact Or.inr (.contact hpeer rfl id)
  · cases envelope with
    | presence generation mode expiresAt =>
        cases henv
        obtain heq | ⟨presence, heq⟩ :=
          receivePresence_cases book _ peer generation mode expiresAt now
        · exact Or.inl heq
        · rw [heq]
          exact Or.inr (.contact hpeer rfl id)
    | receipt mid hash =>
        cases henv
        obtain heq | ⟨p, hp, hacknowledged, heq⟩ := receiveReceipt_cases book _ peer mid hash
        · exact Or.inl heq
        · rw [heq]
          simp only [Pending.acknowledgedBy, Bool.and_eq_true, beq_iff_eq] at hacknowledged
          exact Or.inr (.promoted hpeer hp hacknowledged.1.2)
    | message mid content =>
        obtain ⟨error, rfl⟩ | ⟨hash, wire, peer', -, -, -, -, hrecord, rfl⟩ :=
          receiveMessage_cases henv
        · exact Or.inr (.contact hpeer rfl id)
        · right
          obtain ⟨-, rfl⟩ | ⟨-, -, -, rfl⟩ := hrecord
          · exact .parcel hpeer hblocked hblocked (fun _ hm _ => hm) rfl rfl
              (slash_mem_ackId _ mid)
          · exact .parcel hpeer hblocked ((blocked_record ..).trans hblocked)
              (fun _ hm hmine => own_record hm hmine) rfl rfl (slash_mem_ackId _ mid)

/-- The operations with one change at most. -/
def Op.plain : Op → Bool
  | .queue .. => false
  | .completeSend .. => false
  | .renew .. => false
  | _ => true

theorem change_run {op : Op} (hop : op.plain = true) (h : op.run codec book = .ok next) :
    next = book ∨ Change book next := by
  cases op with
  | queue => cases hop
  | completeSend => cases hop
  | renew => cases hop
  | add name card identity own =>
      obtain ⟨-, -, -, hnew, rfl⟩ := contactAdd_cases h
      exact Or.inr (.added hnew rfl)
  | update name card identity own =>
      obtain ⟨c, hc, rfl⟩ := contactUpdate_cases h
      exact Or.inr (.contact hc rfl id)
  | rename name newName =>
      obtain ⟨key, c, hc, -, rfl⟩ := contactRename_cases h
      exact Or.inr (.contact hc rfl id)
  | verify name given =>
      obtain ⟨key, c, hc, rfl⟩ := contactVerify_cases h
      exact Or.inr (.contact hc rfl id)
  | block contact blocked =>
      obtain ⟨c, hc, ⟨-, rfl⟩ | ⟨-, rfl⟩⟩ := block_cases h
      · exact Or.inr (.shutOut hc)
      · exact Or.inr (.contact hc rfl fun _ => rfl)
  | away contact args now => exact Or.inr (change_queuePresence (away_cases h))
  | back contact now => exact Or.inr (change_queuePresence h)
  | presenceOff contact now => exact Or.inr (change_queuePresence h)
  | markRead contact messageId =>
      obtain rfl | ⟨c, hc, rfl⟩ := markRead_cases h
      · exact Or.inl rfl
      · exact Or.inr (.contact hc rfl id)
  | receive delivery now =>
      obtain ⟨⟨b, flag⟩, hreceive, rfl⟩ := map_eq_ok.mp h
      exact change_receive hreceive

end Changes

/-! ### Messages and the outbox -/

/-- The packet of a message waits in the outbox for a contact. -/
def Waits (outbox : StringMap Pending) (contact id : String) : Prop :=
  ∃ p, outbox[id]? = some p ∧ p.receipt = false ∧ p.contact = contact

/-- An own message is shown as accepted locally exactly if its packet waits. -/
def Book.InStep (book : Book) : Prop :=
  ∀ (id : String) (c : Contact), book.contacts[id]? = some c → ∀ m ∈ c.messages,
    m.mine = true → (m.delivery = some .localAccepted ↔ Waits book.outbox id m.id)

/-- The packets of the outbox are for contacts that are not blocked. -/
def Book.Admitted (book : Book) : Prop :=
  ∀ (k : String) (p : Pending), book.outbox[k]? = some p →
    ∃ c, book.contacts[p.contact]? = some c ∧ c.blocked = false

/-- Own messages have drawn identifiers, and what waits for no receipt has none. -/
structure Book.Named (drawn : List (Bytes 32)) (book : Book) : Prop where
  own : ∀ (id : String) (c : Contact), book.contacts[id]? = some c → ∀ m ∈ c.messages,
    m.mine = true → ∃ mid ∈ drawn, m.id = hex mid.toList
  aside : ∀ (k : String) (p : Pending), book.outbox[k]? = some p → p.receipt = true →
    '/' ∈ k.toList

structure Book.Accounted (drawn : List (Bytes 32)) (book : Book) : Prop where
  inStep : book.InStep
  admitted : book.Admitted
  named : book.Named drawn

section Waiting

variable {outbox : StringMap Pending} {contact id k : String}

theorem hex_ne_of_slash {mid : Bytes 32} (h : '/' ∈ k.toList) : k ≠ hex mid.toList := by
  rintro rfl
  rw [toList_hex] at h
  exact slash_not_mem_hexChars mid.toList h

theorem waits_insert_of_ne {p : Pending} (h : k ≠ id) :
    Waits (outbox.insert k p) contact id ↔ Waits outbox contact id := by
  simp only [Waits, StringMap.get_insert, if_neg h]

theorem waits_erase_of_ne (h : k ≠ id) :
    Waits (outbox.erase k) contact id ↔ Waits outbox contact id := by
  simp only [Waits, StringMap.get_erase, if_neg h]

theorem not_waits_erase : ¬ Waits (outbox.erase id) contact id := by
  simp [Waits, StringMap.get_erase]

theorem waits_attempted {p : Pending} (hp : outbox[k]? = some p) (now : ℕ) :
    Waits (outbox.insert k { p with lastAttempt := now }) contact id ↔
      Waits outbox contact id := by
  by_cases hk : k = id
  · subst hk
    simp [Waits, hp]
  · exact waits_insert_of_ne hk

theorem waits_filter {blocked : String} :
    Waits (outbox.filter fun _ p => p.contact != blocked) contact id ↔
      contact ≠ blocked ∧ Waits outbox contact id := by
  simp only [Waits, StringMap.get_filter, Option.filter_eq_some_iff, bne_iff_ne]
  constructor
  · rintro ⟨p, ⟨hp, hne⟩, hreceipt, rfl⟩
    exact ⟨hne, p, hp, hreceipt, rfl⟩
  · rintro ⟨hne, p, hp, hreceipt, rfl⟩
    exact ⟨p, ⟨hp, hne⟩, hreceipt, rfl⟩

end Waiting

section Writes

variable {book : Book} {drawn : List (Bytes 32)} {id : String} {c d : Contact}
  {outbox : StringMap Pending}

/-- A write keeps the other conversations in step if it keeps what waits for them. -/
theorem Book.InStep.write (h : book.InStep)
    (hd : ∀ m ∈ d.messages, m.mine = true →
      (m.delivery = some .localAccepted ↔ Waits outbox id m.id))
    (hothers : ∀ (a : String) (e : Contact), a ≠ id → book.contacts[a]? = some e →
      ∀ m ∈ e.messages, m.mine = true → (Waits outbox a m.id ↔ Waits book.outbox a m.id)) :
    (book.write id d outbox).InStep := by
  intro a e he m hm hmine
  simp only [Book.write, StringMap.get_insert] at he
  split at he
  case isTrue heq =>
    cases he
    exact heq ▸ hd m hm hmine
  case isFalse hne =>
    exact (h a e he m hm hmine).trans (hothers a e (Ne.symm hne) he m hm hmine).symm

/-- A write admits the packets for its contact if it leaves that unblocked, and those that
were there. -/
theorem Book.Admitted.write (h : book.Admitted)
    (hself : ∀ (k : String) (p : Pending), outbox[k]? = some p → p.contact = id →
      d.blocked = false)
    (hothers : ∀ (k : String) (p : Pending), outbox[k]? = some p → p.contact ≠ id →
      ∃ (a : String) (q : Pending), book.outbox[a]? = some q ∧ q.contact = p.contact) :
    (book.write id d outbox).Admitted := by
  intro k p hp
  simp only [Book.write, StringMap.get_insert]
  split
  case isTrue heq => exact ⟨d, rfl, hself k p hp heq.symm⟩
  case isFalse hne =>
    obtain ⟨a, q, hq, hcontact⟩ := hothers k p hp (Ne.symm hne)
    rw [← hcontact]
    exact h a q hq

theorem Book.Named.write (h : book.Named drawn) {drawn' : List (Bytes 32)}
    (hdrawn : drawn ⊆ drawn')
    (hd : ∀ m ∈ d.messages, m.mine = true → ∃ mid ∈ drawn', m.id = hex mid.toList)
    (hout : ∀ (k : String) (p : Pending), outbox[k]? = some p → p.receipt = true →
      '/' ∈ k.toList) :
    (book.write id d outbox).Named drawn' where
  own a e he m hm hmine := by
    simp only [Book.write, StringMap.get_insert] at he
    split at he
    · cases he
      exact hd m hm hmine
    · obtain ⟨mid, hmid, hid⟩ := h.own a e he m hm hmine
      exact ⟨mid, hdrawn hmid, hid⟩
  aside := hout

end Writes

section Steps

variable {codec : Codec} {book next : Book} {drawn : List (Bytes 32)} {now : ℕ}

theorem Book.Named.ne_slash (h : book.Named drawn) {id k : String} {c : Contact}
    (hc : book.contacts[id]? = some c) {m : Message} (hm : m ∈ c.messages)
    (hmine : m.mine = true) (hk : '/' ∈ k.toList) : k ≠ m.id := by
  obtain ⟨mid, -, hid⟩ := h.own id c hc m hm hmine
  rw [hid]
  exact hex_ne_of_slash hk

/-- The messages of the contacts and the outbox stay. -/
theorem Book.Accounted.contact (h : book.Accounted drawn) {id : String} {c d : Contact}
    (hc : book.contacts[id]? = some c) (hmessages : d.messages = c.messages)
    (hblocked : c.blocked = false → d.blocked = false) :
    (book.setContact id d).Accounted drawn where
  inStep := by
    rw [setContact_eq_write]
    apply h.inStep.write
    · rw [hmessages]
      exact h.inStep id c hc
    · exact fun _ _ _ _ _ _ _ => Iff.rfl
  admitted := by
    rw [setContact_eq_write]
    apply h.admitted.write
    · intro k p hp heq
      obtain ⟨e, he, hopen⟩ := h.admitted k p hp
      rw [heq, hc] at he
      cases he
      exact hblocked hopen
    · exact fun k p hp _ => ⟨k, p, hp, rfl⟩
  named := by
    rw [setContact_eq_write]
    apply h.named.write (List.Subset.refl drawn)
    · rw [hmessages]
      exact h.named.own id c hc
    · exact h.named.aside

theorem Book.Accounted.added (h : book.Accounted drawn) {id : String} {d : Contact}
    (hc : book.contacts[id]? = none) (hmessages : d.messages = []) :
    (book.setContact id d).Accounted drawn where
  inStep := by
    rw [setContact_eq_write]
    apply h.inStep.write
    · simp [hmessages]
    · exact fun _ _ _ _ _ _ _ => Iff.rfl
  admitted := by
    rw [setContact_eq_write]
    apply h.admitted.write
    · intro k p hp heq
      obtain ⟨e, he, -⟩ := h.admitted k p hp
      rw [heq, hc] at he
      cases he
    · exact fun k p hp _ => ⟨k, p, hp, rfl⟩
  named := by
    rw [setContact_eq_write]
    apply h.named.write (List.Subset.refl drawn)
    · simp [hmessages]
    · exact h.named.aside

theorem mem_shutOut {c : Contact} {m : Message} (hm : m ∈ c.shutOut.messages) :
    ∃ m₀ ∈ c.messages, m = giveUp m₀ := by
  obtain ⟨m₀, hm₀, rfl⟩ := List.mem_map.mp hm
  exact ⟨m₀, hm₀, rfl⟩

/-- What is given up does not wait. -/
theorem giveUp_delivery {m : Message} (hmine : m.mine = true) :
    (giveUp m).delivery ≠ some .localAccepted := by
  unfold giveUp
  split
  case isTrue => simp
  case isFalse hwaits =>
    intro hdelivery
    simp [hmine, hdelivery] at hwaits

theorem Book.Accounted.shutOut (h : book.Accounted drawn) {id : String} {c : Contact}
    (hc : book.contacts[id]? = some c) :
    (book.write id c.shutOut (book.outbox.filter fun _ p => p.contact != id)).Accounted drawn where
  inStep := by
    apply h.inStep.write
    · intro m hm hmine
      obtain ⟨m₀, hm₀, rfl⟩ := mem_shutOut hm
      rw [(SameEntry.giveUp m₀).mine] at hmine
      rw [waits_filter]
      exact iff_of_false (giveUp_delivery hmine) fun hwaits => hwaits.1 rfl
    · intro a e hne _ m _ _
      rw [waits_filter]
      exact and_iff_right hne
  admitted := by
    apply h.admitted.write
    · intro k p hp heq
      rw [StringMap.get_filter, Option.filter_eq_some_iff] at hp
      simp [heq] at hp
    · intro k p hp _
      rw [StringMap.get_filter, Option.filter_eq_some_iff] at hp
      exact ⟨k, p, hp.1, rfl⟩
  named := by
    apply h.named.write (List.Subset.refl drawn)
    · intro m hm hmine
      obtain ⟨m₀, hm₀, rfl⟩ := mem_shutOut hm
      rw [(SameEntry.giveUp m₀).mine] at hmine
      rw [(SameEntry.giveUp m₀).id]
      exact h.named.own id c hc m₀ hm₀ hmine
    · intro k p hp
      rw [StringMap.get_filter, Option.filter_eq_some_iff] at hp
      exact h.named.aside k p hp.1

/-- A receipt or a presence is put beside the messages. -/
theorem Book.Accounted.parcel (h : book.Accounted drawn) {contact k : String} {c d : Contact}
    {p : Pending} (hc : book.contacts[contact]? = some c) (hblocked : d.blocked = false)
    (hown : ∀ m ∈ d.messages, m.mine = true → m ∈ c.messages) (hcontact : p.contact = contact)
    (hk : '/' ∈ k.toList) :
    (book.write contact d (book.outbox.insert k p)).Accounted drawn where
  inStep := by
    apply h.inStep.write
    · intro m hm hmine
      rw [waits_insert_of_ne (h.named.ne_slash hc (hown m hm hmine) hmine hk)]
      exact h.inStep contact c hc m (hown m hm hmine) hmine
    · intro a e _ he m hm hmine
      exact waits_insert_of_ne (h.named.ne_slash he hm hmine hk)
  admitted := by
    apply h.admitted.write
    · exact fun _ _ _ _ => hblocked
    · intro a q hq hne
      rw [StringMap.get_insert] at hq
      split at hq
      · cases hq
        exact absurd hcontact hne
      · exact ⟨a, q, hq, rfl⟩
  named := by
    apply h.named.write (List.Subset.refl drawn)
    · exact fun m hm hmine => h.named.own contact c hc m (hown m hm hmine) hmine
    · intro a q hq hreceipt
      rw [StringMap.get_insert] at hq
      split at hq
      case isTrue heq => exact heq ▸ hk
      case isFalse => exact h.named.aside a q hq hreceipt

/-- A receipt ends the wait of the message it acknowledges. -/
theorem Book.Accounted.promoted (h : book.Accounted drawn) {contact id : String} {c : Contact}
    {p : Pending} (hc : book.contacts[contact]? = some c) (hp : book.outbox[id]? = some p)
    (hcontact : p.contact = contact) :
    (book.write contact { c with messages := c.messages.map (promote id) }
      (book.outbox.erase id)).Accounted drawn where
  inStep := by
    apply h.inStep.write
    · intro m hm hmine
      obtain ⟨m₀, hm₀, rfl⟩ := List.mem_map.mp hm
      rw [(SameEntry.promote id m₀).mine] at hmine
      rw [(SameEntry.promote id m₀).id]
      by_cases hid : m₀.id = id
      · rw [hid]
        refine iff_of_false ?_ not_waits_erase
        simp [promote, hid, hmine]
      · rw [waits_erase_of_ne (Ne.symm hid), ← h.inStep contact c hc m₀ hm₀ hmine]
        simp [promote, hid]
    · intro a e hne _ m _ _
      by_cases hid : id = m.id
      · rw [← hid]
        refine iff_of_false not_waits_erase ?_
        rintro ⟨q, hq, -, rfl⟩
        rw [hp] at hq
        cases hq
        exact hne hcontact
      · exact waits_erase_of_ne hid
  admitted := by
    apply h.admitted.write
    · intro k q hq heq
      rw [StringMap.get_erase] at hq
      split at hq
      · cases hq
      · obtain ⟨e, he, hopen⟩ := h.admitted k q hq
        rw [heq, hc] at he
        cases he
        exact hopen
    · intro k q hq _
      rw [StringMap.get_erase] at hq
      split at hq
      · cases hq
      · exact ⟨k, q, hq, rfl⟩
  named := by
    apply h.named.write (List.Subset.refl drawn)
    · intro m hm hmine
      obtain ⟨m₀, hm₀, rfl⟩ := List.mem_map.mp hm
      rw [(SameEntry.promote id m₀).mine] at hmine
      rw [(SameEntry.promote id m₀).id]
      exact h.named.own contact c hc m₀ hm₀ hmine
    · intro k q hq
      rw [StringMap.get_erase] at hq
      split at hq
      · cases hq
      · exact h.named.aside k q hq

theorem Change.accounted (h : book.Accounted drawn) (hchange : Change book next) :
    next.Accounted drawn := by
  cases hchange with
  | contact hc hmessages hblocked => exact h.contact hc hmessages hblocked
  | added hc hmessages => exact h.added hc hmessages
  | shutOut hc => exact h.shutOut hc
  | parcel hc _ hblocked hown hcontact _ hk => exact h.parcel hc hblocked hown hcontact hk
  | promoted hc hp hcontact => exact h.promoted hc hp hcontact

/-- An outbox with packets of the old one, among them all that own messages wait for. -/
theorem Book.Accounted.outbox (h : book.Accounted drawn) {outbox : StringMap Pending}
    (hwaits : ∀ (contact : String) (mid : Bytes 32),
      Waits outbox contact (hex mid.toList) ↔ Waits book.outbox contact (hex mid.toList))
    (hfrom : ∀ (k : String) (p : Pending), outbox[k]? = some p →
      ∃ q : Pending, book.outbox[k]? = some q ∧ q.contact = p.contact ∧ q.receipt = p.receipt) :
    Book.Accounted drawn { book with outbox := outbox } where
  inStep id c hc m hm hmine := by
    obtain ⟨mid, -, hid⟩ := h.named.own id c hc m hm hmine
    rw [h.inStep id c hc m hm hmine, hid]
    exact (hwaits id mid).symm
  admitted k p hp := by
    obtain ⟨q, hq, hcontact, -⟩ := hfrom k p hp
    rw [← hcontact]
    exact h.admitted k q hq
  named := by
    constructor
    · exact h.named.own
    · intro k p hp hreceipt
      obtain ⟨q, hq, -, hsame⟩ := hfrom k p hp
      exact h.named.aside k q hq (hsame.trans hreceipt)

/-- The outcome of a transmission; a packet is dropped only if it was taken as one that waits
for no receipt. -/
theorem Book.Accounted.completeSend (h : book.Accounted drawn) {id : String} {pending : Pending}
    {failure : Option String} (htaken : pending.receipt = true → '/' ∈ id.toList)
    (hrun : completeSend book id pending failure now = .ok next) : next.Accounted drawn := by
  obtain rfl | ⟨stored, outbox, hstored, hout, hnext⟩ := completeSend_cases hrun
  · exact h
  · have houtbox : Book.Accounted drawn { book with outbox := outbox } := by
      obtain ⟨hreceipt, rfl⟩ | rfl := hout
      · apply h.outbox
        · exact fun contact mid => waits_erase_of_ne (hex_ne_of_slash (htaken hreceipt))
        · intro k p hp
          rw [StringMap.get_erase] at hp
          split at hp
          · cases hp
          · exact ⟨p, hp, rfl, rfl⟩
      · apply h.outbox
        · exact fun contact mid => waits_attempted hstored now
        · intro k p hp
          rw [StringMap.get_insert] at hp
          split at hp
          case isTrue heq =>
            cases hp
            exact ⟨stored, heq ▸ hstored, rfl, rfl⟩
          case isFalse => exact ⟨p, hp, rfl, rfl⟩
    obtain ⟨peer, hpeer, rfl⟩ | rfl := hnext
    · exact houtbox.contact (c := peer) (d := peer.sent failure) hpeer rfl fun hopen => hopen
    · exact houtbox

/-- A message that is queued under a new identifier waits. -/
theorem Book.Accounted.queue (h : book.Accounted drawn) {contact operation : String}
    {content : Content} {mid : Bytes 32} (hfresh : mid ∉ drawn)
    (hrun : queue codec book contact content operation mid now = .ok next) :
    next.Accounted (mid :: drawn) := by
  have hsub : drawn ⊆ mid :: drawn := List.subset_cons_self mid drawn
  have hne : ∀ (id : String) (c : Contact), book.contacts[id]? = some c → ∀ m ∈ c.messages,
      m.mine = true → hex mid.toList ≠ m.id := by
    intro id c hc m hm hmine heq
    obtain ⟨old, hold, hid⟩ := h.named.own id c hc m hm hmine
    rw [hid] at heq
    exact hfresh (hexId_injective heq ▸ hold)
  obtain ⟨-, rfl⟩ | ⟨peer, wire, hash, -, -, -, hpeer, hblocked, -, -, -, rfl⟩ := queue_cases hrun
  · exact ⟨h.inStep, h.admitted, fun id c hc m hm hmine =>
      (h.named.own id c hc m hm hmine).imp fun _ hold => ⟨hsub hold.1, hold.2⟩, h.named.aside⟩
  · -- the new entry, if the content is shown
    have hnew : ∀ m ∈ (peer.push ((message mid contact peer.name content true now).map fun m =>
        { m with operationId := some operation })).messages, m ∈ peer.messages ∨
          m.id = hex mid.toList ∧ m.delivery = some .localAccepted := by
      intro m hm
      obtain hold | hlast := List.mem_append.mp hm
      · exact Or.inl hold
      · rw [Option.mem_toList, Option.map_eq_some_iff] at hlast
        obtain ⟨entry, hentry, rfl⟩ := hlast
        obtain ⟨hid, -, -, hdelivery⟩ := message_eq_some hentry
        exact Or.inr ⟨hid, hdelivery⟩
    constructor
    · apply h.inStep.write
      · intro m hm hmine
        obtain hold | ⟨hid, hdelivery⟩ := hnew m hm
        · rw [waits_insert_of_ne (hne contact peer hpeer m hold hmine)]
          exact h.inStep contact peer hpeer m hold hmine
        · rw [hid, hdelivery]
          exact iff_of_true rfl ⟨_, StringMap.get_insert_self _ _ _, rfl, rfl⟩
      · intro a e _ he m hm hmine
        exact waits_insert_of_ne (hne a e he m hm hmine)
    · apply h.admitted.write
      · exact fun _ _ _ _ => hblocked
      · intro k p hp hother
        rw [StringMap.get_insert] at hp
        split at hp
        · cases hp
          exact absurd rfl hother
        · exact ⟨k, p, hp, rfl⟩
    · apply h.named.write hsub
      · intro m hm hmine
        obtain hold | ⟨hid, -⟩ := hnew m hm
        · obtain ⟨old, hold, hid⟩ := h.named.own contact peer hpeer m hold hmine
          exact ⟨old, hsub hold, hid⟩
        · exact ⟨mid, List.mem_cons_self, hid⟩
      · intro k p hp hreceipt
        rw [StringMap.get_insert] at hp
        split at hp
        · cases hp
          cases hreceipt
        · exact h.named.aside k p hp hreceipt

end Steps

/-! ### Runs of one profile -/

/-- A book with the identifiers drawn so far and the packets taken for transmission. -/
structure Desk where
  book : Book
  drawn : List (Bytes 32)
  taken : List (String × Pending)

/-- An operation, or the outbox is read for transmission. -/
inductive Act where
  | op (op : Op)
  | take (now : ℕ)

section Runs

variable (codec : Codec)

/-- A drawn identifier is new; a transmission that completes was taken before. -/
def Desk.enabled (s : Desk) : Op → Bool
  | .queue _ _ _ id _ => !s.drawn.contains id
  | .completeSend id pending _ _ => s.taken.contains (id, pending)
  | _ => true

def Desk.drawnAfter (s : Desk) : Op → List (Bytes 32)
  | .queue _ _ _ id _ => id :: s.drawn
  | _ => s.drawn

/-- A step; an operation that returns an error is none. -/
def Desk.step (s : Desk) : Act → Option Desk
  | .op op =>
      if s.enabled op then
        match op.run codec s.book with
        | .ok next => some { s with book := next, drawn := s.drawnAfter op }
        | .error _ => none
      else none
  | .take now =>
      some { s with taken := (outgoing s.book now).map (fun e => (e.1, e.2.1)) ++ s.taken }

def desk : Machine Desk Act := Machine.ofPartial ⟨Book.default, [], []⟩ (Desk.step codec)

end Runs

/-- The messages that wait for a contact fail, the others stay, and no packet is left. -/
def Blocks (book next : Book) (id : String) : Prop :=
  ∃ c d, book.contacts[id]? = some c ∧ next.contacts[id]? = some d ∧ d.blocked = true ∧
    List.Forall₂ (fun m m' =>
      (m.mine = true ∧ Waits book.outbox id m.id → m' = { m with delivery := some .failed }) ∧
        (¬ (m.mine = true ∧ Waits book.outbox id m.id) → m' = m)) c.messages d.messages ∧
    ∀ (k : String) (p : Pending), next.outbox[k]? = some p → p.contact ≠ id

/-- Every packet of the next outbox is for a contact that was not blocked before. -/
def Guards (book next : Book) : Prop :=
  ∀ (k : String) (p : Pending), next.outbox[k]? = some p →
    ∃ c, book.contacts[p.contact]? = some c ∧ c.blocked = false

section Results

variable {codec : Codec} {book next : Book} {drawn : List (Bytes 32)} {now : ℕ} {s t : Desk}

/-- The invariant of a desk. -/
structure Desk.Inv (s : Desk) : Prop where
  accounted : s.book.Accounted s.drawn
  taken : ∀ e ∈ s.taken, e.2.receipt = true → '/' ∈ e.1.toList

/-- An operation that is enabled. -/
theorem Desk.Inv.op (h : s.Inv) {op : Op} (henabled : s.enabled op = true)
    (hrun : op.run codec s.book = .ok next) : next.Accounted (s.drawnAfter op) := by
  cases op with
  | queue contact content operation id now =>
      exact h.accounted.queue (by simpa [Desk.enabled] using henabled) hrun
  | completeSend id pending failure now =>
      have htaken : (id, pending) ∈ s.taken := by simpa [Desk.enabled] using henabled
      exact h.accounted.completeSend (h.taken _ htaken) hrun
  | renew now =>
      refine renewPresence_induction ?_ h.accounted hrun
      exact fun _ _ _ _ hb hone => (change_queuePresence hone).accounted hb
  | _ =>
      obtain rfl | hchange := change_run rfl hrun
      · exact h.accounted
      · exact hchange.accounted h.accounted

theorem Desk.Inv.step {act : Act} (h : s.Inv) (hstep : s.step codec act = some t) : t.Inv := by
  cases act with
  | take now =>
      cases hstep
      constructor
      · exact h.accounted
      · intro e he hreceipt
        obtain he | he := List.mem_append.mp he
        · obtain ⟨e', he', rfl⟩ := List.mem_map.mp he
          exact h.accounted.named.aside _ _ (mem_outgoing he') hreceipt
        · exact h.taken e he hreceipt
  | op op =>
      simp only [Desk.step] at hstep
      split at hstep
      case isFalse => cases hstep
      case isTrue henabled =>
        cases hrun : op.run codec s.book with
        | error e =>
            rw [hrun] at hstep
            cases hstep
        | ok next =>
            rw [hrun] at hstep
            cases hstep
            exact ⟨h.op henabled hrun, h.taken⟩

theorem desk_inv (hs : (desk codec).Reachable s) : s.Inv := by
  apply hs.invariant (I := Desk.Inv)
  · rintro s rfl
    constructor
    · constructor
      · intro id c hc
        simp [Book.default] at hc
      · intro k p hp
        simp [Book.default] at hp
      · constructor
        · intro id c hc
          simp [Book.default] at hc
        · intro k p hp
          simp [Book.default] at hp
    · simp
  · exact fun s act t _ h hstep => h.step hstep

/-! ### Blocked contacts -/

theorem Book.Admitted.insert (h : book.Admitted) {k : String} {p : Pending} {c : Contact}
    (hc : book.contacts[p.contact]? = some c) (hblocked : c.blocked = false)
    (hout : next.outbox = book.outbox.insert k p) : Guards book next := by
  intro a q hq
  rw [hout, StringMap.get_insert] at hq
  split at hq
  · cases hq
    exact ⟨c, hc, hblocked⟩
  · exact h a q hq

theorem Change.guards (h : book.Admitted) (hchange : Change book next) : Guards book next := by
  cases hchange with
  | contact hc hmessages hblocked => exact h
  | added hc hmessages => exact h
  | shutOut hc =>
      intro k p hp
      simp only [Book.write, StringMap.get_filter, Option.filter_eq_some_iff] at hp
      exact h k p hp.1
  | parcel hc hblocked _ _ hcontact _ _ => exact h.insert (hcontact ▸ hc) hblocked rfl
  | promoted hc hp hcontact =>
      intro k q hq
      simp only [Book.write, StringMap.get_erase] at hq
      split at hq
      · cases hq
      · exact h k q hq

theorem guards_completeSend (h : book.Admitted) {id : String} {pending : Pending}
    {failure : Option String} (hrun : completeSend book id pending failure now = .ok next) :
    Guards book next := by
  obtain rfl | ⟨stored, outbox, hstored, hout, hnext⟩ := completeSend_cases hrun
  · exact h
  · have houtbox : next.outbox = outbox := by
      obtain ⟨peer, -, rfl⟩ | rfl := hnext
      · rfl
      · rfl
    intro k p hp
    rw [houtbox] at hp
    obtain ⟨-, rfl⟩ | rfl := hout
    · rw [StringMap.get_erase] at hp
      split at hp
      · cases hp
      · exact h k p hp
    · rw [StringMap.get_insert] at hp
      split at hp
      · cases hp
        exact h id stored hstored
      · exact h k p hp

/-- Leases are for contacts that are open, and open none. -/
theorem guards_renew (h : book.Admitted) (hrun : renewPresence codec book now = .ok next) :
    Guards book next := by
  have hpass : Guards book next ∧ ∀ (id : String) (c : Contact), next.contacts[id]? = some c →
      ∃ c₀, book.contacts[id]? = some c₀ ∧ c₀.blocked = c.blocked := by
    refine renewPresence_induction (I := fun b => Guards book b ∧
      ∀ (id : String) (c : Contact), b.contacts[id]? = some c →
        ∃ c₀, book.contacts[id]? = some c₀ ∧ c₀.blocked = c.blocked) ?_
      ⟨h, fun id c hc => ⟨c, hc, rfl⟩⟩ hrun
    rintro b b' contact desired ⟨hguards, hkept⟩ hone
    obtain ⟨peer, envelope, wire, hash, hpeer, hblocked, -, -, -, -, rfl⟩ :=
      queuePresence_cases hone
    obtain ⟨c₀, hc₀, hsame⟩ := hkept contact peer hpeer
    constructor
    · intro k p hp
      simp only [Book.write, StringMap.get_insert] at hp
      split at hp
      · cases hp
        exact ⟨c₀, hc₀, hsame.trans hblocked⟩
      · exact hguards k p hp
    · intro id c hc
      simp only [Book.write, StringMap.get_insert] at hc
      split at hc
      case isTrue heq =>
        cases hc
        subst heq
        exact ⟨c₀, hc₀, hsame⟩
      case isFalse => exact hkept id c hc
  exact hpass.1

/-- No operation puts a packet for a blocked contact in the outbox. -/
theorem guards_run (h : book.Admitted) {op : Op} (hrun : op.run codec book = .ok next) :
    Guards book next := by
  cases op with
  | queue contact content operation id now =>
      obtain ⟨-, rfl⟩ | ⟨peer, wire, hash, -, -, -, hpeer, hblocked, -, -, -, rfl⟩ :=
        queue_cases hrun
      · exact h
      · exact h.insert hpeer hblocked rfl
  | completeSend id pending failure now => exact guards_completeSend h hrun
  | renew now => exact guards_renew h hrun
  | _ =>
      obtain rfl | hchange := change_run rfl hrun
      · exact h
      · exact hchange.guards h

theorem blocks_of_block (h : book.InStep) {id : String} (hrun : block book id true = .ok next) :
    Blocks book next id := by
  obtain ⟨c, hc, ⟨-, rfl⟩ | ⟨hfalse, -⟩⟩ := block_cases hrun
  · refine ⟨c, c.shutOut, hc, StringMap.get_insert_self _ _ _, rfl, ?_, ?_⟩
    · rw [Contact.shutOut, List.forall₂_map_right_iff, List.forall₂_same]
      intro m hm
      unfold giveUp
      constructor
      · rintro ⟨hmine, hwaits⟩
        rw [if_pos (by simp [hmine, (h id c hc m hm hmine).mpr hwaits])]
      · intro hnot
        rw [if_neg]
        intro hboth
        simp only [Bool.and_eq_true, beq_iff_eq] at hboth
        exact hnot ⟨hboth.1, (h id c hc m hm hboth.1).mp hboth.2⟩
    · intro k p hp
      simp only [Book.write, StringMap.get_filter, Option.filter_eq_some_iff, bne_iff_ne] at hp
      exact hp.2
  · cases hfalse

/-- In every book a profile can reach, an own message is shown as accepted locally exactly if
its packet waits; blocking fails what waits and leaves no packet; and no operation makes a
packet for a blocked contact. -/
theorem accepted_locally_iff_waits (codec : Codec) (s : Desk) (hs : (desk codec).Reachable s) :
    s.book.InStep ∧
      (∀ id next, block s.book id true = .ok next → Blocks s.book next id) ∧
      ∀ op next, Op.run codec s.book op = .ok next → Guards s.book next := by
  have hinv := (desk_inv hs).accounted
  exact ⟨hinv.inStep, fun _ _ hrun => blocks_of_block hinv.inStep hrun,
    fun _ _ hrun => guards_run hinv.admitted hrun⟩

end Results

/-! ### A message that waits -/

namespace Sample

def acts : List Act :=
  [.op (.add "bob" [] (identity .b) (identity .a)),
    .op (.queue (sideKey codec identity .b) (.text "hi") "op-1" mid 100),
    .take 100,
    .op (.completeSend (hex mid.toList)
      ⟨sideKey codec identity .b, messageBytes, 0, false, hashOfMessage⟩ none 101)]

def attempted : Desk :=
  (acts.foldlM (Desk.step codec) ⟨Book.default, [], []⟩).getD ⟨Book.default, [], []⟩

example : (attempted.book.outbox.toList.map (·.2.lastAttempt)) = [101] := by decide +kernel

end Sample

theorem sample_waits : Sample.attempted.book.InStep :=
  (accepted_locally_iff_waits Sample.codec Sample.attempted
    (Machine.Reachable.getD_foldlM _ _ Sample.acts)).1

end Contacts

end GChat
