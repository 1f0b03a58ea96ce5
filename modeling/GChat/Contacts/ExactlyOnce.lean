import GChat.Contacts.Faithful

/-!
# The exchange is exactly once and its receipts are truthful

`Inv` says of the two books and the network that every packet is authentic and
that the conversation between the parties is faithful on both sides. Every step
keeps it.
-/

namespace GChat

namespace Contacts

open Foundation Api

section Definitions

variable (codec : Codec) (identity : Side → List UInt8)

/-- A packet of the outbox; one that waits for a receipt stands under the identifier of
its message. -/
def PacketOk (s : Exchange) (x : Side) (k : String) (p : Pending) : Prop :=
  s.Carries codec x p ∧
    (p.receipt = false →
      ∃ q ∈ s.queued, q.source = x ∧ q.contact = p.contact ∧ k = hex q.id.toList)

structure Inv (s : Exchange) : Prop where
  unique : ∀ q ∈ s.queued, ∀ r ∈ s.queued, q.id = r.id → q = r
  outbox : ∀ (x : Side) (k : String) (p : Pending), (s.book x).outbox[k]? = some p →
    PacketOk codec s x k p
  taken : ∀ e ∈ s.taken, s.Carries codec e.source e.pending
  sent : ∀ e ∈ s.sent, ∃ envelope, codec.toAllocvec envelope = .ok e.body ∧
    s.Authentic e.source e.contact envelope
  faithful : ∀ (x : Side) (c : Contact),
    (s.book x).contacts[sideKey codec identity x.other]? = some c →
      Faithful codec identity s x c

end Definitions

variable {codec : Codec} {identity : Side → List UInt8} {s t : Exchange} {x : Side}

theorem PacketOk.mono {k : String} {p : Pending} (h : PacketOk codec s x k p)
    (hgrows : Grows s t) : PacketOk codec t x k p := by
  constructor
  · exact h.1.mono hgrows
  · intro hp
    obtain ⟨q, hq, hrest⟩ := h.2 hp
    exact ⟨q, hgrows.queued q hq, hrest⟩

/-! ### Steps of one party -/

/-- The exchange after a party wrote its book and perhaps queued a message. -/
def Exchange.after (s : Exchange) (x : Side) (next : Book) (queued : List Queued) : Exchange :=
  { s with book := Function.update s.book x next, queued := queued }

variable {next : Book} {queued : List Queued}

@[simp] theorem after_book_self (s : Exchange) (x : Side) (next : Book) (queued : List Queued) :
    (s.after x next queued).book x = next := by
  simp only [Exchange.after, Function.update_self]

theorem after_book_of_ne {y : Side} (h : y ≠ x) :
    (s.after x next queued).book y = s.book y := by
  simp only [Exchange.after, Function.update_of_ne h]

theorem grows_after (queued : List Queued) (hqueued : ∀ q ∈ s.queued, q ∈ queued)
    (hseen : SeenKept (s.book x) next) : Grows s (s.after x next queued) where
  queued := hqueued
  seen y := by
    obtain rfl | hne := eq_or_ne y x
    · rw [after_book_self]
      exact hseen
    · rw [after_book_of_ne hne]
      exact fun _ c hc => ⟨c, hc, fun _ _ hk => hk⟩

/-- What is left to show for a step of one party: its own packets and its own side of
the conversation. -/
theorem Inv.after (h : Inv codec identity s) (hgrows : Grows s (s.after x next queued))
    (hunique : ∀ q ∈ queued, ∀ r ∈ queued, q.id = r.id → q = r)
    (hout : ∀ (k : String) (p : Pending), next.outbox[k]? = some p →
      PacketOk codec (s.after x next queued) x k p)
    (hfaithful : ∀ c, next.contacts[sideKey codec identity x.other]? = some c →
      Faithful codec identity (s.after x next queued) x c) :
    Inv codec identity (s.after x next queued) where
  unique := hunique
  outbox y k p hp := by
    obtain rfl | hne := eq_or_ne y x
    · rw [after_book_self] at hp
      exact hout k p hp
    · rw [after_book_of_ne hne] at hp
      exact (h.outbox y k p hp).mono hgrows
  taken e he := (h.taken e he).mono hgrows
  sent e he := by
    obtain ⟨envelope, hbytes, hauth⟩ := h.sent e he
    exact ⟨envelope, hbytes, hauth.mono hgrows⟩
  faithful y c hc := by
    obtain rfl | hne := eq_or_ne y x
    · rw [after_book_self] at hc
      exact hfaithful c hc
    · rw [after_book_of_ne hne] at hc
      exact (h.faithful y c hc).mono hgrows

/-! ### Quiet operations -/

theorem Quiet.seenKept {book : Book} (h : Quiet codec book next) : SeenKept book next := by
  intro id c hc
  have hstep := h.contact id
  rw [hc] at hstep
  cases hnext : next.contacts[id]? with
  | none =>
      rw [hnext] at hstep
      cases hstep
  | some c' =>
      rw [hnext] at hstep
      cases hstep with
      | kept hfades =>
          obtain ⟨f, hf, -⟩ := hfades
          exact ⟨c', rfl, fun k hash hk => hf.seen ▸ hk⟩

theorem Inv.quiet (h : Inv codec identity s) (hq : Quiet codec (s.book x) next) :
    Inv codec identity (s.after x next s.queued) := by
  have hgrows : Grows s (s.after x next s.queued) :=
    grows_after s.queued (fun _ hq => hq) hq.seenKept
  apply h.after hgrows h.unique
  · intro k p hp
    obtain ⟨p₀, hp₀, hsame⟩ | ⟨hreceipt, generation, mode, expiresAt, hwire⟩ := hq.outbox k p hp
    · have hold := (h.outbox x k p₀ hp₀).mono hgrows
      constructor
      · obtain ⟨envelope, hwire, hauth⟩ := hold.1
        exact ⟨envelope, hsame.wire ▸ hwire, hsame.contact ▸ hauth⟩
      · intro hp
        rw [hsame.contact]
        exact hold.2 (hsame.receipt ▸ hp)
    · constructor
      · exact ⟨_, hwire, trivial⟩
      · intro hp
        rw [hreceipt] at hp
        cases hp
  · intro c hc
    have hstep := hq.contact (sideKey codec identity x.other)
    rw [hc] at hstep
    cases hold : (s.book x).contacts[sideKey codec identity x.other]? with
    | none =>
        rw [hold] at hstep
        cases hstep with
        | added hmessages hseen hfiles => exact Faithful.empty hmessages hseen hfiles
    | some c₀ =>
        rw [hold] at hstep
        cases hstep with
        | kept hfades => exact ((h.faithful x c₀ hold).mono hgrows).fades hfades

/-! ### Queueing a message -/

theorem seenKept_write {book : Book} {id : String} {c d : Contact} {outbox : StringMap Pending}
    (hc : book.contacts[id]? = some c)
    (hkeep : ∀ (k : String) (hash : Bytes 32), c.seen[k]? = some hash → d.seen[k]? = some hash) :
    SeenKept book (book.write id d outbox) := by
  intro a e he
  simp only [Book.write, StringMap.get_insert]
  split
  case isTrue heq =>
    subst heq
    rw [hc] at he
    cases he
    exact ⟨d, rfl, hkeep⟩
  case isFalse => exact ⟨e, he, fun _ _ hk => hk⟩

theorem Faithful.id_mem {c : Contact} (h : Faithful codec identity s x c) {m : Message}
    (hm : m ∈ c.messages) :
    ∃ q ∈ s.queued, q.source = origin x m ∧ m.id = hex q.id.toList := by
  obtain ⟨q, hq, hsource, -, hid, -⟩ := h.traced m hm
  exact ⟨q, hq, hsource, hid⟩

theorem Inv.queue {contact operation : String} {content : Content} {mid : Bytes 32} {now : ℕ}
    {peer : Contact} {own : Option Message} {wire : List UInt8} {hash : Bytes 32}
    (h : Inv codec identity s) (hfresh : ∀ q ∈ s.queued, q.id ≠ mid)
    (hpeer : (s.book x).contacts[contact]? = some peer)
    (hwire : packet codec (.message mid content) = .ok wire)
    (hown : own = (message mid contact peer.name content true now).map fun m =>
      { m with operationId := some operation }) :
    Inv codec identity (s.after x
      ((s.book x).write contact (peer.push own)
        ((s.book x).outbox.insert (hex mid.toList) ⟨contact, wire, 0, false, hash⟩))
      (⟨x, contact, mid, content⟩ :: s.queued)) := by
  have hseen : SeenKept (s.book x) ((s.book x).write contact (peer.push own)
      ((s.book x).outbox.insert (hex mid.toList) ⟨contact, wire, 0, false, hash⟩)) :=
    seenKept_write hpeer fun _ _ hk => hk
  have hgrows := grows_after (⟨x, contact, mid, content⟩ :: s.queued)
    (fun _ hq => List.mem_cons_of_mem _ hq) hseen
  apply h.after hgrows
  · intro q hq r hr hid
    obtain rfl | hq := List.mem_cons.mp hq
    · obtain rfl | hr := List.mem_cons.mp hr
      · rfl
      · exact absurd hid.symm (hfresh r hr)
    · obtain rfl | hr := List.mem_cons.mp hr
      · exact absurd hid (hfresh q hq)
      · exact h.unique q hq r hr hid
  · intro k p hp
    simp only [Book.write, StringMap.get_insert] at hp
    split at hp
    case isTrue heq =>
      cases hp
      exact ⟨⟨_, hwire, List.mem_cons_self⟩,
        fun _ => ⟨_, List.mem_cons_self, rfl, rfl, heq.symm⟩⟩
    case isFalse => exact (h.outbox x k p hp).mono hgrows
  · intro c hc
    simp only [Book.write, StringMap.get_insert] at hc
    split at hc
    case isFalse => exact (h.faithful x c hc).mono hgrows
    case isTrue heq =>
      cases hc
      subst heq
      have hold := h.faithful x peer hpeer
      cases hm : message mid (sideKey codec identity x.other) peer.name content true now with
      | none =>
          rw [hm, Option.map_none] at hown
          subst hown
          exact (hold.mono hgrows).fades (Fades.of_eq (List.append_nil _) rfl rfl)
      | some m =>
          rw [hm, Option.map_some] at hown
          subst hown
          obtain ⟨hid, hmine, hshows, hdelivery⟩ := message_eq_some hm
          have horigin : origin x { m with operationId := some operation } = x := by
            simp only [origin, hmine, if_true]
          apply (hold.mono hgrows).push (m := { m with operationId := some operation }) hmine
          · intro hmem
            obtain ⟨m', hm', heq⟩ := List.mem_map.mp hmem
            obtain ⟨q, hq, -, hqid⟩ := hold.id_mem hm'
            have hsame : q.id = mid := hexId_injective (hqid.symm.trans (heq.trans hid))
            exact hfresh q hq hsame
          · exact ⟨_, List.mem_cons_self, horigin.symm, by rw [horigin], hid, hshows⟩
          · intro hd
            rw [hdelivery] at hd
            cases hd

/-! ### Deliveries -/

section Deliveries

variable {delivery : ApplicationDelivery} {mid hash : Bytes 32} {peer : Contact}

/-- What arrives from a party was said by that party to the receiver. -/
theorem Inv.authentic (h : Inv codec identity s) (hcodec : codec.RoundTrips)
    (hparties : Parties codec identity) {y : Side} {envelope : Envelope}
    (harrives : s.arrives codec identity x delivery = true)
    (hopens : Opens codec delivery envelope)
    (hkey : key codec delivery.peerIdentity = sideKey codec identity y) :
    s.Authentic y (sideKey codec identity x) envelope := by
  obtain ⟨application, hdecode, hmime, hopen⟩ := hopens
  have hpeer : delivery.peerIdentity = identity y := hparties.of_key hkey
  have hsent : ⟨y, sideKey codec identity x, application.body⟩ ∈ s.sent := by
    simp only [Exchange.arrives, hdecode, hmime, bne_self_eq_false, Bool.false_or,
      List.all_eq_true] at harrives
    have hy : y ∈ [Side.a, Side.b] := by cases y <;> decide
    simpa [hpeer] using harrives y hy
  obtain ⟨envelope', hbytes, hauth⟩ := h.sent _ hsent
  have hread := hcodec.envelope envelope' application.body hbytes
  rw [hopen] at hread
  cases hread
  exact hauth

theorem Inv.receipt (h : Inv codec identity s) (hcodec : codec.RoundTrips)
    (hparties : Parties codec identity)
    (harrives : s.arrives codec identity x delivery = true)
    (hopens : Opens codec delivery (.receipt mid hash))
    (hpeer : (s.book x).contacts[key codec delivery.peerIdentity]? = some peer) :
    Inv codec identity (s.after x
      ((s.book x).write (key codec delivery.peerIdentity)
        { peer with messages := peer.messages.map (promote (hex mid.toList)) }
        ((s.book x).outbox.erase (hex mid.toList))) s.queued) := by
  have hseen : SeenKept (s.book x) ((s.book x).write (key codec delivery.peerIdentity)
      { peer with messages := peer.messages.map (promote (hex mid.toList)) }
      ((s.book x).outbox.erase (hex mid.toList))) := seenKept_write hpeer fun _ _ hk => hk
  have hgrows := grows_after s.queued (fun _ hq => hq) hseen
  apply h.after hgrows h.unique
  · intro k p hp
    simp only [Book.write, StringMap.get_erase] at hp
    split at hp
    · cases hp
    · exact (h.outbox x k p hp).mono hgrows
  · intro c hc
    simp only [Book.write, StringMap.get_insert] at hc
    split at hc
    case isFalse => exact (h.faithful x c hc).mono hgrows
    case isTrue heq =>
      cases hc
      have hold := (h.faithful x peer (heq ▸ hpeer)).mono hgrows
      obtain ⟨d, hd, hseen⟩ := h.authentic hcodec hparties harrives hopens heq
      obtain ⟨d', hd', hkeep⟩ := hgrows.seen x.other _ d hd
      exact hold.promoted ⟨d', hd', contains_of_keeps hkeep (StringMap.contains_of_get hseen)⟩

theorem Inv.message {content : Content} {peer' : Contact} {wire : List UInt8}
    (receivedAt : ℕ) (h : Inv codec identity s) (hcodec : codec.RoundTrips)
    (hparties : Parties codec identity)
    (harrives : s.arrives codec identity x delivery = true)
    (hopens : Opens codec delivery (.message mid content))
    (hpeer : (s.book x).contacts[key codec delivery.peerIdentity]? = some peer)
    (hwire : packet codec (.receipt mid hash) = .ok wire)
    (hrecord : (peer.seen[hex mid.toList]? = some hash ∧ peer' = peer) ∨
      (peer.seen[hex mid.toList]? = none ∧
        peer' = peer.record (key codec delivery.peerIdentity) mid content hash receivedAt)) :
    Inv codec identity (s.after x
      ((s.book x).write (key codec delivery.peerIdentity) peer'
        ((s.book x).outbox.insert (ackId (key codec delivery.peerIdentity) mid)
          ⟨key codec delivery.peerIdentity, wire, 0, true, hash⟩)) s.queued) := by
  have hseen : peer'.seen[hex mid.toList]? = some hash := by
    obtain ⟨hold, rfl⟩ | ⟨-, rfl⟩ := hrecord
    · exact hold
    · exact seen_record_self peer _ mid content hash receivedAt
  have hkeep : ∀ (k : String) (old : Bytes 32), peer.seen[k]? = some old →
      peer'.seen[k]? = some old := by
    intro k old hk
    obtain ⟨-, rfl⟩ | ⟨hnone, rfl⟩ := hrecord
    · exact hk
    · exact seen_record_of_get _ _ _ _ hnone hk
  have hseenKept : SeenKept (s.book x) ((s.book x).write (key codec delivery.peerIdentity) peer'
      ((s.book x).outbox.insert (ackId (key codec delivery.peerIdentity) mid)
        ⟨key codec delivery.peerIdentity, wire, 0, true, hash⟩)) := seenKept_write hpeer hkeep
  have hgrows := grows_after s.queued (fun _ hq => hq) hseenKept
  apply h.after hgrows h.unique
  · intro k p hp
    simp only [Book.write, StringMap.get_insert] at hp
    split at hp
    · cases hp
      constructor
      · refine ⟨_, hwire, peer', ?_, hseen⟩
        rw [after_book_self]
        exact StringMap.get_insert_self _ _ _
      · intro hreceipt
        cases hreceipt
    · exact (h.outbox x k p hp).mono hgrows
  · intro c hc
    simp only [Book.write, StringMap.get_insert] at hc
    split at hc
    case isFalse => exact (h.faithful x c hc).mono hgrows
    case isTrue heq =>
      cases hc
      have hold := (h.faithful x peer (heq ▸ hpeer)).mono hgrows
      obtain ⟨-, rfl⟩ | ⟨hnone, rfl⟩ := hrecord
      · exact hold
      · have hauth : (⟨x.other, sideKey codec identity x, mid, content⟩ : Queued) ∈ s.queued :=
          h.authentic hcodec hparties harrives hopens heq
        -- an own message under the same identifier would have been queued by both sides
        have hnew : ∀ m ∈ peer.messages, m.mine = true → m.id ≠ hex mid.toList := by
          intro m hm hmine hid
          obtain ⟨q, hq, hsource, hqid⟩ := hold.id_mem hm
          have hsame : q = ⟨x.other, sideKey codec identity x, mid, content⟩ :=
            h.unique q hq _ hauth (hexId_injective (hqid.symm.trans hid))
          rw [hsame, origin, hmine] at hsource
          exact x.other_ne hsource
        have hfaithful := hold.record (q := ⟨x.other, sideKey codec identity x, mid, content⟩)
          ⟨hauth, rfl, rfl, rfl⟩ hnone hnew hash receivedAt
        rw [← heq] at hfaithful
        exact hfaithful

theorem Inv.receive {now : ℕ} {flag : Bool} (h : Inv codec identity s)
    (hcodec : codec.RoundTrips) (hparties : Parties codec identity)
    (harrives : s.arrives codec identity x delivery = true)
    (hr : receive codec (s.book x) delivery now = .ok (next, flag)) :
    Inv codec identity (s.after x next s.queued) := by
  obtain hquiet | ⟨peer, hpeer, ⟨mid, hash, hopens, rfl⟩ | ⟨mid, content, hopens, hmessage⟩⟩ :=
    receive_effect hr
  · exact h.quiet hquiet
  · obtain heq | ⟨p, -, -, heq⟩ :=
      receiveReceipt_cases (s.book x) (key codec delivery.peerIdentity) peer mid hash
    · rw [heq]
      exact h.quiet (Quiet.refl codec (s.book x))
    · rw [heq]
      exact h.receipt hcodec hparties harrives hopens hpeer
  · obtain ⟨error, rfl⟩ | ⟨hash, wire, peer', -, -, hwire, -, hrecord, rfl⟩ :=
      receiveMessage_cases hmessage
    · exact h.quiet (Quiet.setContact hpeer (Fades.of_eq rfl rfl rfl))
    · obtain hseen | ⟨hnone, -, -, heq⟩ := hrecord
      · exact h.message delivery.receivedAtUnix hcodec hparties harrives hopens hpeer hwire
          (Or.inl hseen)
      · exact h.message delivery.receivedAtUnix hcodec hparties harrives hopens hpeer hwire
          (Or.inr ⟨hnone, heq⟩)

end Deliveries

/-! ### The network -/

theorem Inv.network (h : Inv codec identity s) {taken : List Taken} {sent : List Packet}
    (htaken : ∀ e ∈ taken, s.Carries codec e.source e.pending)
    (hsent : ∀ e ∈ sent, ∃ envelope, codec.toAllocvec envelope = .ok e.body ∧
      s.Authentic e.source e.contact envelope) :
    Inv codec identity { s with taken := taken, sent := sent } := by
  have hgrows : Grows s { s with taken := taken, sent := sent } :=
    ⟨fun _ hq => hq, fun _ _ c hc => ⟨c, hc, fun _ _ hk => hk⟩⟩
  constructor
  · exact h.unique
  · exact fun x k p hp => (h.outbox x k p hp).mono hgrows
  · exact fun e he => (htaken e he).mono hgrows
  · intro e he
    obtain ⟨envelope, hbytes, hauth⟩ := hsent e he
    exact ⟨envelope, hbytes, hauth.mono hgrows⟩
  · exact fun x c hc => (h.faithful x c hc).mono hgrows

theorem Exchange.Carries.body (hcodec : codec.RoundTrips) {p : Pending}
    {application : ApplicationMessage} (h : s.Carries codec x p)
    (hdecode : codec.decode p.wire = some application) :
    ∃ envelope, codec.toAllocvec envelope = .ok application.body ∧
      s.Authentic x p.contact envelope := by
  obtain ⟨envelope, hwire, hauth⟩ := h
  simp only [packet, bind_eq_ok] at hwire
  obtain ⟨body, hbody, hencode⟩ := hwire
  rw [hcodec.application _ _ hencode] at hdecode
  cases hdecode
  exact ⟨envelope, hbody, hauth⟩

/-- Every step of the exchange keeps the invariant. -/
theorem Inv.step (h : Inv codec identity s) (hcodec : codec.RoundTrips)
    (hparties : Parties codec identity) {event : Event}
    (hstep : s.step codec identity event = some t) : Inv codec identity t := by
  cases event with
  | take x now =>
      cases hstep
      apply h.network
      · intro e he
        obtain hnew | hold := List.mem_append.mp he
        · obtain ⟨entry, hentry, rfl⟩ := List.mem_map.mp hnew
          exact (h.outbox x entry.1 entry.2.1 (mem_outgoing hentry)).1
        · exact h.taken e hold
      · exact h.sent
  | send x id pending =>
      simp only [Exchange.step] at hstep
      split at hstep
      case isFalse => cases hstep
      case isTrue hguard =>
        obtain ⟨application, hdecode, rfl⟩ := Option.map_eq_some_iff.mp hstep
        rw [Bool.and_eq_true, List.contains_iff_mem] at hguard
        apply h.network h.taken
        intro e he
        obtain rfl | hold := List.mem_cons.mp he
        · exact (h.taken _ hguard.1).body hcodec hdecode
        · exact h.sent e hold
  | op x op =>
      simp only [Exchange.step] at hstep
      split at hstep
      case isFalse => cases hstep
      case isTrue henabled =>
        cases hrun : op.run codec (s.book x) with
        | error e =>
            rw [hrun] at hstep
            cases hstep
        | ok next =>
            rw [hrun] at hstep
            cases hstep
            cases op with
            | queue contact content operation mid now =>
                have hfresh : ∀ q ∈ s.queued, q.id ≠ mid := by
                  simpa [Exchange.enabled] using henabled
                obtain ⟨hold, rfl⟩ | ⟨peer, wire, hash, hnew, -, -, hpeer, -, -, hwire, -, rfl⟩ :=
                  queue_cases hrun
                · have hqueued : s.queuedAfter x (.queue contact content operation mid now) =
                      s.queued := if_pos hold
                  rw [hqueued]
                  exact h.quiet (Quiet.refl codec (s.book x))
                · have hqueued : s.queuedAfter x (.queue contact content operation mid now) =
                      ⟨x, contact, mid, content⟩ :: s.queued := if_neg (Bool.eq_false_iff.mp hnew)
                  rw [hqueued]
                  exact h.queue hfresh hpeer hwire rfl
            | receive delivery now =>
                obtain ⟨result, hr, rfl⟩ := map_eq_ok.mp hrun
                exact h.receive hcodec hparties henabled hr
            | _ => exact h.quiet (quiet_run rfl hrun)

theorem inv_start : Inv codec identity Exchange.start where
  unique q hq := by cases hq
  outbox x k p hp := by simp [Exchange.start, Book.default] at hp
  taken e he := by cases he
  sent e he := by cases he
  faithful x c hc := by simp [Exchange.start, Book.default] at hc

theorem reachable_inv (hcodec : codec.RoundTrips) (hparties : Parties codec identity)
    (h : (exchange codec identity).Reachable s) : Inv codec identity s :=
  h.invariant (fun _ hstart => hstart ▸ inv_start)
    fun _ _ _ _ hinv hstep => hinv.step hcodec hparties hstep

end Contacts

end GChat
