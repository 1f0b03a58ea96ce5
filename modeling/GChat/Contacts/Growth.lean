import GChat.Contacts.Distinct
import GChat.Contacts.Quiet

/-!
# Conversations with contacts only grow

No operation removes a message of a contact, moves it, or changes anything of it but its
delivery; new messages stand at the end. Only a read marker that is set changes which
message is read.
-/

namespace GChat

namespace Contacts

open Foundation Api

/-- A message without the state of its delivery. -/
def entry (m : Message) : Message := { m with delivery := none }

/-- The conversation is continued and its marker stays. -/
structure Contact.Grows (c d : Contact) : Prop where
  entries : c.messages.map entry <+: d.messages.map entry
  read : d.read = c.read

/-- Every contact stays, and its conversation is continued. -/
def Book.Continues (book next : Book) : Prop :=
  ∀ (id : String) (c : Contact), book.contacts[id]? = some c →
    ∃ d, next.contacts[id]? = some d ∧ c.Grows d

variable {codec : Codec} {book next : Book} {id : String} {now : ℕ}

theorem entry_giveUp (m : Message) : entry (giveUp m) = entry m := by
  unfold giveUp
  split
  · rfl
  · rfl

theorem entry_promote (id : String) (m : Message) : entry (promote id m) = entry m := by
  unfold promote
  split
  · rfl
  · rfl

namespace Contact.Grows

variable {c d e : Contact}

theorem of_eq (hmessages : d.messages = c.messages) (hread : d.read = c.read) : c.Grows d where
  entries := hmessages ▸ List.prefix_refl _
  read := hread

theorem refl (c : Contact) : c.Grows c := of_eq rfl rfl

theorem trans (h : c.Grows d) (h' : d.Grows e) : c.Grows e :=
  ⟨h.entries.trans h'.entries, h'.read.trans h.read⟩

theorem rewritten {f : Message → Message} (hf : ∀ m, entry (f m) = entry m)
    (hmessages : d.messages = c.messages.map f) (hread : d.read = c.read) : c.Grows d where
  entries := by
    have hsame : d.messages.map entry = c.messages.map entry := by
      rw [hmessages, List.map_map]
      exact List.map_congr_left fun m _ => hf m
    exact hsame ▸ List.prefix_refl _
  read := hread

theorem appended (tail : List Message) (hmessages : d.messages = c.messages ++ tail)
    (hread : d.read = c.read) : c.Grows d where
  entries := by
    rw [hmessages, List.map_append]
    exact List.prefix_append _ _
  read := hread

theorem record (c : Contact) (contact : String) (mid : Bytes 32) (content : Content)
    (hash : Bytes 32) (receivedAt : ℕ) : c.Grows (c.record contact mid content hash receivedAt) := by
  unfold Contact.record
  dsimp only
  split
  case h_1 m hm => exact appended [m] rfl rfl
  case h_2 => exact of_eq rfl rfl

end Contact.Grows

namespace Book.Continues

theorem refl (book : Book) : book.Continues book := fun _ c hc => ⟨c, hc, .refl c⟩

theorem trans {last : Book} (h : book.Continues next) (h' : next.Continues last) :
    book.Continues last := by
  intro id c hc
  obtain ⟨d, hd, hgrows⟩ := h id c hc
  obtain ⟨e, he, hgrows'⟩ := h' id d hd
  exact ⟨e, he, hgrows.trans hgrows'⟩

theorem write {c d : Contact} (hc : book.contacts[id]? = some c) (hgrows : c.Grows d)
    (outbox : StringMap Pending) : book.Continues (book.write id d outbox) := by
  intro k e he
  simp only [Book.write, StringMap.get_insert]
  by_cases hk : id = k
  · subst hk
    rw [hc] at he
    cases he
    exact ⟨d, if_pos rfl, hgrows⟩
  · rw [if_neg hk]
    exact ⟨e, he, .refl e⟩

theorem setContact {c d : Contact} (hc : book.contacts[id]? = some c) (hgrows : c.Grows d) :
    book.Continues (book.setContact id d) :=
  write hc hgrows book.outbox

theorem add {d : Contact} (hnew : book.contacts[id]? = none) :
    book.Continues (book.setContact id d) := by
  intro k c hc
  have hne : id ≠ k := by
    intro heq
    rw [heq, hc] at hnew
    cases hnew
  simp only [Book.setContact]
  rw [StringMap.get_insert_of_ne _ _ hne]
  exact ⟨c, hc, .refl c⟩

end Book.Continues

theorem continues_queuePresence {contact : String} {desired : Option ContactPresence}
    (h : queuePresence codec book contact desired now = .ok next) : book.Continues next := by
  obtain ⟨peer, -, -, -, hpeer, -, -, -, -, -, rfl⟩ := queuePresence_cases h
  refine .write hpeer ?_ _
  exact .of_eq rfl rfl

/-- A received message is new at the end of its conversation, or it was seen before. -/
theorem continues_receiveMessage {contact : String} {peer : Contact} {mid : Bytes 32}
    {content : Content} {receivedAt : ℕ} (hpeer : book.contacts[contact]? = some peer)
    (h : receiveMessage codec book contact peer mid content receivedAt = .ok next) :
    book.Continues next := by
  obtain ⟨error, rfl⟩ | ⟨hash, wire, peer', -, -, -, -, hseen, rfl⟩ := receiveMessage_cases h
  · refine .setContact hpeer ?_
    exact .of_eq rfl rfl
  · obtain ⟨-, rfl⟩ | ⟨-, -, -, rfl⟩ := hseen
    · refine .write hpeer ?_ _
      exact .refl _
    · refine .write hpeer ?_ _
      exact .record peer contact mid content hash receivedAt

theorem continues_receive {delivery : ApplicationDelivery} {flag : Bool}
    (h : receive codec book delivery now = .ok (next, flag)) : book.Continues next := by
  obtain rfl | ⟨peer, hpeer, -, ⟨error, rfl⟩ | ⟨application, envelope, -, -, -, henv⟩⟩ :=
    receive_cases h
  · exact .refl _
  · refine .setContact hpeer ?_
    exact .of_eq rfl rfl
  · cases envelope with
    | message mid content => exact continues_receiveMessage hpeer henv
    | receipt mid hash =>
        cases henv
        obtain heq | ⟨p, -, -, heq⟩ := receiveReceipt_cases book _ peer mid hash
        · rw [heq]
          exact .refl _
        · rw [heq]
          refine .write hpeer ?_ _
          exact .rewritten (entry_promote _) rfl rfl
    | presence generation mode expiresAt =>
        cases henv
        obtain heq | ⟨presence, heq⟩ :=
          receivePresence_cases book _ peer generation mode expiresAt now
        · rw [heq]
          exact .refl _
        · rw [heq]
          refine .setContact hpeer ?_
          exact .of_eq rfl rfl

/-- The operation sets a read marker. -/
def Op.marks : Op → Bool
  | .markRead .. => true
  | _ => false

theorem continues_run {op : Op} (hop : op.marks = false) (h : op.run codec book = .ok next) :
    book.Continues next := by
  cases op with
  | add name card identity own =>
      obtain ⟨-, -, -, hnew, rfl⟩ := contactAdd_cases h
      exact .add hnew
  | update name card identity own =>
      obtain ⟨c, hc, rfl⟩ := contactUpdate_cases h
      refine .setContact hc ?_
      exact .of_eq rfl rfl
  | rename name newName =>
      obtain ⟨k, c, hc, -, rfl⟩ := contactRename_cases h
      refine .setContact hc ?_
      exact .of_eq rfl rfl
  | verify name given =>
      obtain ⟨k, c, hc, rfl⟩ := contactVerify_cases h
      refine .setContact hc ?_
      exact .of_eq rfl rfl
  | block k blocked =>
      obtain ⟨c, hc, ⟨-, rfl⟩ | ⟨-, rfl⟩⟩ := block_cases h
      · refine .write hc ?_ _
        exact .rewritten entry_giveUp rfl rfl
      · refine .setContact hc ?_
        exact .of_eq rfl rfl
  | queue k content operation mid now =>
      obtain ⟨-, rfl⟩ | ⟨peer, wire, hash, -, -, -, hpeer, -, -, -, -, rfl⟩ := queue_cases h
      · exact .refl _
      · refine .write hpeer ?_ _
        exact .appended _ rfl rfl
  | away k args now => exact continues_queuePresence (away_cases h)
  | back k now => exact continues_queuePresence h
  | presenceOff k now => exact continues_queuePresence h
  | renew now =>
      have hstep : ∀ b c k desired, book.Continues b →
          queuePresence codec b k desired now = .ok c → book.Continues c := by
        intro b c k desired hb hq
        exact hb.trans (continues_queuePresence hq)
      exact renewPresence_induction hstep (.refl _) h
  | completeSend k pending failure now =>
      obtain rfl | ⟨stored, outbox, -, -, ⟨peer, hpeer, rfl⟩ | rfl⟩ := completeSend_cases h
      · exact .refl _
      · refine .write hpeer ?_ _
        exact .of_eq rfl rfl
      · exact .refl _
  | markRead k messageId => cases hop
  | receive delivery now =>
      obtain ⟨r, hreceive, rfl⟩ := map_eq_ok.mp h
      exact continues_receive hreceive

end Contacts

end GChat
