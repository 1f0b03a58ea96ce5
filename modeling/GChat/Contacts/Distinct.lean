import GChat.Contacts.Arrivals
import GChat.Contacts.Delivery

/-!
# Identifiers in a conversation

A history cursor and a read marker name a message by its identifier and mean the
first message that has it. Own messages get drawn identifiers, received ones the
identifier their sender chose. Received messages are told apart by the seen ones,
among which own messages are not: the identifiers of a conversation stay distinct
exactly as long as no contact sends a text under the identifier of an own message.
-/

namespace GChat

namespace Contacts

open Foundation Api

section Definitions

variable (codec : Codec)

/-- The book after an operation; an operation that fails leaves it. -/
def Book.after (book : Book) (op : Op) : Book := (op.run codec book).toOption.getD book

/-- No two messages of a conversation have the same identifier. -/
def Book.Distinct (book : Book) : Prop :=
  ∀ (id : String) (c : Contact), book.contacts[id]? = some c → (c.messages.map (·.id)).Nodup

/-- An identifier that is drawn is new in the conversation it is drawn for. -/
def Op.Fresh (book : Book) : Op → Prop
  | .queue contact _ _ id _ =>
      ∀ c, book.contacts[contact]? = some c → hex id.toList ∉ c.messages.map (·.id)
  | _ => True

/-- A delivery with a text that the book has room for, under the identifier of an own
message to the contact it comes from. -/
def ReusesOwn (book : Book) (delivery : ApplicationDelivery) : Prop :=
  ∃ peer mid content hash wire, Brings codec book delivery peer (.message mid content) ∧
    content.shown.isSome = true ∧ Admits codec book peer mid content hash wire ∧
    ∃ m ∈ peer.messages, m.mine = true ∧ m.id = hex mid.toList

/-- The operation receives no text under the identifier of an own message. -/
def Op.RespectsOwn (book : Book) : Op → Prop
  | .receive delivery _ => ¬ ReusesOwn codec book delivery
  | _ => True

end Definitions

/-! ### What identifies a message -/

/-- In a book with distinct identifiers a cursor or a marker stands for one message. -/
theorem Book.Distinct.eq_of_id {book : Book} (h : book.Distinct) {id : String} {c : Contact}
    (hc : book.contacts[id]? = some c) {m m' : Message} (hm : m ∈ c.messages)
    (hm' : m' ∈ c.messages) (hid : m.id = m'.id) : m = m' :=
  List.inj_on_of_nodup_map (h id c hc) hm hm' hid

/-! ### The invariant -/

/-- Distinct identifiers, and those of received messages are among the seen ones. -/
structure Contact.Tracked (c : Contact) : Prop where
  nodup : (c.messages.map (·.id)).Nodup
  heard : ∀ m ∈ c.messages, m.mine = false → c.seen.contains m.id = true

namespace Contact.Tracked

variable {c c' : Contact}

theorem empty (hmessages : c.messages = []) : c.Tracked where
  nodup := by simp [hmessages]
  heard := by simp [hmessages]

theorem rewrites {f : Message → Message} (h : c.Tracked) (hf : Rewrites f c c') :
    c'.Tracked where
  nodup := by
    rw [hf.ids]
    exact h.nodup
  heard m' hm' hmine := by
    obtain ⟨m, hm, rfl⟩ := hf.mem hm'
    rw [hf.seen, (hf.same m).id]
    exact h.heard m hm ((hf.same m).mine ▸ hmine)

theorem fades (h : c.Tracked) (hf : Fades c c') : c'.Tracked := by
  obtain ⟨f, hf, -⟩ := hf
  exact h.rewrites hf

theorem nodup_append {m : Message} (h : c.Tracked) (hnew : m.id ∉ c.messages.map (·.id)) :
    ((c.messages ++ [m]).map (·.id)).Nodup := by
  rw [List.map_append, List.map_singleton]
  exact List.Nodup.append h.nodup (List.nodup_singleton _) (List.disjoint_singleton.mpr hnew)

/-- An own message under a new identifier. -/
theorem push {own : Option Message} (h : c.Tracked)
    (hown : ∀ m, own = some m → m.mine = true ∧ m.id ∉ c.messages.map (·.id)) :
    (c.push own).Tracked := by
  cases own with
  | none =>
      rw [Contact.push, Option.toList_none, List.append_nil]
      exact h
  | some m =>
      obtain ⟨hmine, hnew⟩ := hown m rfl
      constructor
      · exact h.nodup_append hnew
      · intro m' hm' hmine'
        obtain hold | hlast := List.mem_append.mp hm'
        · exact h.heard m' hold hmine'
        · rw [List.mem_singleton.mp hlast, hmine] at hmine'
          cases hmine'

/-- A received message that was not seen before, under no identifier of an own one. -/
theorem record {contact : String} {mid hash : Bytes 32} {content : Content} {receivedAt : ℕ}
    (h : c.Tracked) (hunseen : c.seen[hex mid.toList]? = none)
    (hown : content.shown.isSome = true → ∀ m ∈ c.messages, m.mine = true → m.id ≠ hex mid.toList) :
    (c.record contact mid content hash receivedAt).Tracked := by
  have hheard : ∀ m ∈ c.messages, m.mine = false →
      (c.record contact mid content hash receivedAt).seen.contains m.id = true := by
    intro m hm hmine
    rw [seen_record, Std.ExtTreeMap.contains_insert, h.heard m hm hmine, Bool.or_true]
  have hself := seen_record_self c contact mid content hash receivedAt
  unfold Contact.record at hheard hself ⊢
  cases hentry : message mid contact c.name content false receivedAt with
  | none =>
      simp only [hentry] at hheard ⊢
      exact ⟨h.nodup, hheard⟩
  | some m =>
      simp only [hentry] at hheard hself ⊢
      obtain ⟨hid, hmine, ⟨kind, body, hshown, -, -⟩, -⟩ := message_eq_some hentry
      constructor
      · apply h.nodup_append
        intro hmem
        obtain ⟨m', hm', heq⟩ := List.mem_map.mp hmem
        rw [hid] at heq
        cases hmine' : m'.mine with
        | true => exact hown (by rw [hshown, Option.isSome_some]) m' hm' hmine' heq
        | false =>
            have hseen := h.heard m' hm' hmine'
            rw [heq, StringMap.contains_eq_isSome, hunseen] at hseen
            cases hseen
      · intro m' hm' hmine'
        obtain hold | hlast := List.mem_append.mp hm'
        · exact hheard m' hold hmine'
        · rw [List.mem_singleton.mp hlast, hid]
          exact StringMap.contains_of_get hself

end Contact.Tracked

/-- All conversations of a book are tracked. -/
def Book.Tracked (book : Book) : Prop :=
  ∀ (id : String) (c : Contact), book.contacts[id]? = some c → c.Tracked

namespace Book.Tracked

variable {codec : Codec} {book next : Book} {op : Op}

theorem start : Book.default.Tracked := by
  intro id c hc
  simp [Book.default] at hc

theorem distinct (h : book.Tracked) : book.Distinct := fun id c hc => (h id c hc).nodup

theorem write {id : String} {c : Contact} (h : book.Tracked) (hc : c.Tracked)
    (outbox : StringMap Pending) : (book.write id c outbox).Tracked := by
  intro a d hd
  simp only [Book.write, StringMap.get_insert] at hd
  split at hd
  · cases hd
    exact hc
  · exact h a d hd

theorem quiet (h : book.Tracked) (hquiet : Quiet codec book next) : next.Tracked := by
  intro id c hc
  have hstep := hquiet.contact id
  rw [hc] at hstep
  cases hbook : book.contacts[id]? with
  | none =>
      rw [hbook] at hstep
      cases hstep with
      | added hmessages => exact Contact.Tracked.empty hmessages
  | some d =>
      rw [hbook] at hstep
      cases hstep with
      | kept hfades => exact (h id d hbook).fades hfades

theorem queue {contact operation : String} {content : Content} {mid : Bytes 32} {now : ℕ}
    (h : book.Tracked) (hfresh : (Op.queue contact content operation mid now).Fresh book)
    (hrun : queue codec book contact content operation mid now = .ok next) : next.Tracked := by
  obtain ⟨-, rfl⟩ | ⟨peer, wire, hash, -, -, -, hpeer, -, -, -, -, rfl⟩ := queue_cases hrun
  · exact h
  · apply h.write
    apply (h contact peer hpeer).push
    intro own hown
    obtain ⟨m, hm, rfl⟩ := Option.map_eq_some_iff.mp hown
    obtain ⟨hid, hmine, -, -⟩ := message_eq_some hm
    exact ⟨hmine, hid ▸ hfresh peer hpeer⟩

theorem receive {delivery : ApplicationDelivery} {now : ℕ} {flag : Bool} (h : book.Tracked)
    (hown : ¬ ReusesOwn codec book delivery)
    (hrun : receive codec book delivery now = .ok (next, flag)) : next.Tracked := by
  obtain rfl | ⟨peer, error, hpeer, rfl⟩ | ⟨peer, envelope, hbrings, henv⟩ := receive_brings hrun
  · exact h
  · have hquiet : Quiet codec book
        (book.setContact (key codec delivery.peerIdentity) (peer.withError error)) :=
      Quiet.setContact hpeer (Fades.of_eq rfl rfl rfl)
    exact h.quiet hquiet
  · have hpeer := h _ peer hbrings.contact
    have hquiet : ∀ {c : Contact}, Fades peer c →
        Quiet codec book (book.setContact (key codec delivery.peerIdentity) c) :=
      fun hf => Quiet.setContact hbrings.contact hf
    cases envelope with
    | presence generation mode expiresAt =>
        cases henv
        obtain heq | ⟨presence, heq⟩ := receivePresence_cases book _ peer generation mode
          expiresAt now
        · rw [heq]
          exact h
        · rw [heq]
          exact h.quiet (hquiet (Fades.of_eq rfl rfl rfl))
    | receipt mid hash =>
        cases henv
        obtain heq | ⟨p, -, -, heq⟩ := receiveReceipt_cases book _ peer mid hash
        · rw [heq]
          exact h
        · rw [heq]
          have hf : Rewrites (promote (hex mid.toList)) peer
              { peer with messages := peer.messages.map (promote (hex mid.toList)) } :=
            ⟨rfl, rfl, rfl, SameEntry.promote _⟩
          exact h.write (hpeer.rewrites hf) _
    | message mid content =>
        obtain ⟨error, rfl⟩ | ⟨hash, wire, peer', hvalid, hhash, hwire, hroom, hcase, rfl⟩ :=
          receiveMessage_cases henv
        · exact h.quiet (hquiet (Fades.of_eq rfl rfl rfl))
        · apply h.write
          obtain ⟨-, rfl⟩ | ⟨hunseen, hmessages, hseen, rfl⟩ := hcase
          · exact hpeer
          · apply hpeer.record hunseen
            intro hshown m hm hmine hid
            exact hown ⟨peer, mid, content, hash, wire, hbrings, hshown,
              ⟨hvalid, hhash, hwire, hunseen, hroom, hmessages, hseen⟩, m, hm, hmine, hid⟩

/-- One operation keeps the invariant if it respects the own identifiers. -/
theorem after (h : book.Tracked) (hfresh : op.Fresh book) (hown : op.RespectsOwn codec book) :
    (book.after codec op).Tracked := by
  unfold Book.after
  cases hrun : op.run codec book with
  | error e => exact h
  | ok next =>
      change next.Tracked
      cases hcarries : op.carries with
      | false => exact h.quiet (quiet_run hcarries hrun)
      | true =>
          cases op with
          | queue contact content operation mid now => exact h.queue hfresh hrun
          | receive delivery now =>
              obtain ⟨⟨b, flag⟩, hreceive, rfl⟩ := map_eq_ok.mp hrun
              exact h.receive hown hreceive
          | _ => cases hcarries

end Book.Tracked

/-! ### A text under an identifier of an own message -/

/-- The text stands beside the own message with the same identifier. -/
theorem ReusesOwn.not_distinct {codec : Codec} {book : Book} {delivery : ApplicationDelivery}
    (h : ReusesOwn codec book delivery) (now : ℕ) :
    ¬ (book.after codec (.receive delivery now)).Distinct := by
  obtain ⟨peer, mid, content, hash, wire, hbrings, hshown, hadmits, own, hmem, -, hid⟩ := h
  have hrun : (book.after codec (.receive delivery now)) =
      book.write (key codec delivery.peerIdentity)
        (peer.record (key codec delivery.peerIdentity) mid content hash delivery.receivedAtUnix)
        (book.outbox.insert (ackId (key codec delivery.peerIdentity) mid)
          ⟨key codec delivery.peerIdentity, wire, 0, true, hash⟩) := by
    rw [Book.after, Op.run, hbrings.receive now, receiveEnvelope,
      hadmits.receiveMessage _ delivery.receivedAtUnix]
    rfl
  intro hdistinct
  rw [hrun] at hdistinct
  have hnodup := hdistinct _ _ (StringMap.get_insert_self _ _ _)
  unfold Contact.record at hnodup
  cases hentry : message mid (key codec delivery.peerIdentity) peer.name content false
      delivery.receivedAtUnix with
  | none =>
      rw [message_eq_none hentry] at hshown
      cases hshown
  | some m =>
      simp only [hentry, List.map_append, List.map_singleton] at hnodup
      have hdisjoint := List.disjoint_of_nodup_append hnodup
      apply hdisjoint (List.mem_map_of_mem hmem)
      rw [List.mem_singleton, hid, (message_eq_some hentry).1]

/-- In every run that draws new identifiers the conversations have distinct identifiers
throughout, exactly if no text is received under the identifier of an own message. -/
theorem ids_distinct_iff (codec : Codec) (ops : List Op)
    (hfresh : ∀ (n : ℕ) (op : Op), ops[n]? = some op →
      op.Fresh ((ops.take n).foldl (Book.after codec) Book.default)) :
    (∀ n, ((ops.take n).foldl (Book.after codec) Book.default).Distinct) ↔
      ∀ (n : ℕ) (op : Op), ops[n]? = some op →
        op.RespectsOwn codec ((ops.take n).foldl (Book.after codec) Book.default) := by
  apply Machine.forall_take_iff_of (I := Book.Tracked) (A := fun book op => op.Fresh book)
    Book.Tracked.start (fun book h => h.distinct) (fun book op h hf hown => h.after hf hown)
  · intro book op _ _ hreuse
    cases op with
    | receive delivery now =>
        exact ReusesOwn.not_distinct (Classical.not_not.mp hreuse) now
    | _ => exact absurd trivial hreuse
  · exact hfresh

/-! ### Runs with one message -/

namespace Sample

/-- A queues a message for B and receives a delivery from B. -/
def answered (body : List UInt8) : List Op :=
  [.add "bob" [] (identity .b) (identity .a),
    .queue (sideKey codec identity .b) (.text "hi") "op-1" mid 100,
    .receive (delivery .b body) 101]

theorem answered_fresh (body : List UInt8) (n : ℕ) (op : Op)
    (hop : (answered body)[n]? = some op) :
    op.Fresh (((answered body).take n).foldl (Book.after codec) Book.default) := by
  match n with
  | 0 =>
      cases hop
      trivial
  | 1 =>
      cases hop
      have hmessages : (Book.default.after codec (.add "bob" [] (identity .b) (identity .a))).contacts[
          sideKey codec identity .b]?.map (fun c => c.messages.map (·.id)) = some [] := by
        decide +kernel
      intro c hc
      simp only [answered, List.take_succ_cons, List.take_zero, List.foldl_cons,
        List.foldl_nil] at hc
      rw [hc] at hmessages
      simp at hmessages
      simp [hmessages]
  | 2 =>
      cases hop
      trivial
  | n + 3 => cases hop

end Sample

/-- After a receipt from B the identifiers are distinct. -/
theorem sample_ids_distinct :
    (((Sample.answered Sample.receiptBytes).take 3).foldl (Book.after Sample.codec)
      Book.default).Distinct := by
  apply (ids_distinct_iff Sample.codec (Sample.answered Sample.receiptBytes)
    (Sample.answered_fresh Sample.receiptBytes)).mpr
  intro m op hop
  match m with
  | 0 =>
      cases hop
      trivial
  | 1 =>
      cases hop
      trivial
  | 2 =>
      cases hop
      have hreceipt : Opens Sample.codec (Sample.delivery .b Sample.receiptBytes)
          (.receipt Sample.mid Sample.hashOfMessage) :=
        ⟨⟨mime, Sample.receiptBytes⟩, rfl, rfl, by decide +kernel⟩
      intro h
      obtain ⟨peer, mid, content, hash, wire, hbrings, -⟩ := h
      cases hbrings.opens.unique hreceipt
  | m + 3 => cases hop

/-- B sends the envelope of A back: every drawn identifier was new, and A holds two messages
with one identifier. -/
theorem sample_ids_collide :
    (∀ (n : ℕ) (op : Op), (Sample.answered Sample.messageBytes)[n]? = some op →
      op.Fresh (((Sample.answered Sample.messageBytes).take n).foldl (Book.after Sample.codec)
        Book.default)) ∧
      ¬ ((Sample.answered Sample.messageBytes).foldl (Book.after Sample.codec)
        Book.default).Distinct := by
  constructor
  · exact Sample.answered_fresh Sample.messageBytes
  · intro hdistinct
    have hmessages : ((Sample.answered Sample.messageBytes).foldl (Book.after Sample.codec)
        Book.default).contacts[sideKey Sample.codec Sample.identity .b]?.map
          (fun c => c.messages.map (·.id)) =
        some [hex Sample.mid.toList, hex Sample.mid.toList] := by
      decide +kernel
    obtain ⟨c, hc, hids⟩ := Option.map_eq_some_iff.mp hmessages
    have hnodup := hdistinct _ c hc
    rw [hids] at hnodup
    simp at hnodup

end Contacts

end GChat
