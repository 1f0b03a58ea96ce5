import GChat.Contacts.Steps

/-!
# Quiet operations

An operation is quiet if it writes no message, records none and confirms none.
All operations of a book are quiet but three: queueing a message, receiving one,
and receiving a receipt that matches the outbox.
-/

namespace GChat

namespace Contacts

open Foundation Api

variable {codec : Codec} {book next : Book}

/-- What stays of a stored message: all but its delivery. -/
structure SameEntry (m m' : Message) : Prop where
  id : m'.id = m.id
  mine : m'.mine = m.mine
  messageKind : m'.messageKind = m.messageKind
  body : m'.body = m.body

theorem SameEntry.refl (m : Message) : SameEntry m m := ⟨rfl, rfl, rfl, rfl⟩

theorem SameEntry.trans {m m' m'' : Message} (h : SameEntry m m') (h' : SameEntry m' m'') :
    SameEntry m m'' :=
  ⟨h'.id.trans h.id, h'.mine.trans h.mine, h'.messageKind.trans h.messageKind,
    h'.body.trans h.body⟩

theorem SameEntry.giveUp (m : Message) : SameEntry m (giveUp m) := by
  unfold Contacts.giveUp
  split
  · exact ⟨rfl, rfl, rfl, rfl⟩
  · exact SameEntry.refl m

theorem SameEntry.promote (id : String) (m : Message) : SameEntry m (promote id m) := by
  unfold Contacts.promote
  split
  · exact ⟨rfl, rfl, rfl, rfl⟩
  · exact SameEntry.refl m

/-- The contact keeps what it recorded and its messages stay the same entries. -/
structure Rewrites (f : Message → Message) (c c' : Contact) : Prop where
  seen : c'.seen = c.seen
  files : c'.files = c.files
  messages : c'.messages = c.messages.map f
  same : ∀ m, SameEntry m (f m)

namespace Rewrites

variable {f : Message → Message} {c c' : Contact}

theorem ids (h : Rewrites f c c') : c'.messages.map (·.id) = c.messages.map (·.id) := by
  rw [h.messages, List.map_map]
  exact List.map_congr_left fun m _ => (h.same m).id

theorem mem (h : Rewrites f c c') {m' : Message} (hm : m' ∈ c'.messages) :
    ∃ m ∈ c.messages, m' = f m := by
  rw [h.messages] at hm
  obtain ⟨m, hmem, heq⟩ := List.mem_map.mp hm
  exact ⟨m, hmem, heq.symm⟩

theorem mem_of (h : Rewrites f c c') {m : Message} (hm : m ∈ c.messages) :
    f m ∈ c'.messages := by
  rw [h.messages]
  exact List.mem_map_of_mem hm

end Rewrites

/-- The messages are rewritten and none becomes delivered. -/
def Fades (c c' : Contact) : Prop :=
  ∃ f, Rewrites f c c' ∧
    ∀ m, (f m).delivery = some .delivered → m.delivery = some .delivered

namespace Fades

variable {c c' c'' : Contact}

theorem of_eq (hmessages : c'.messages = c.messages) (hseen : c'.seen = c.seen)
    (hfiles : c'.files = c.files) : Fades c c' :=
  ⟨id, ⟨hseen, hfiles, by rw [List.map_id, hmessages], SameEntry.refl⟩, fun _ hd => hd⟩

theorem trans (h : Fades c c') (h' : Fades c' c'') : Fades c c'' := by
  obtain ⟨f, hf, hfd⟩ := h
  obtain ⟨g, hg, hgd⟩ := h'
  refine ⟨g ∘ f, ⟨hg.seen.trans hf.seen, hg.files.trans hf.files, ?_, ?_⟩, ?_⟩
  · rw [hg.messages, hf.messages, List.map_map]
  · exact fun m => (hf.same m).trans (hg.same (f m))
  · exact fun m hd => hfd m (hgd (f m) hd)

theorem shutOut (c : Contact) : Fades c c.shutOut := by
  refine ⟨giveUp, ⟨rfl, rfl, rfl, SameEntry.giveUp⟩, ?_⟩
  intro m hd
  unfold giveUp at hd
  split at hd
  · cases hd
  · exact hd

end Fades

/-- A contact stays, or it is added with nothing recorded. -/
inductive ContactStep : Option Contact → Option Contact → Prop where
  | none : ContactStep none none
  | added {c : Contact} : c.messages = [] → c.seen = ∅ → c.files = ∅ →
      ContactStep none (some c)
  | kept {c c' : Contact} : Fades c c' → ContactStep (some c) (some c')

theorem ContactStep.refl (c : Option Contact) : ContactStep c c := by
  cases c with
  | none => exact .none
  | some c => exact .kept (Fades.of_eq rfl rfl rfl)

theorem ContactStep.trans {a b c : Option Contact} (h : ContactStep a b)
    (h' : ContactStep b c) : ContactStep a c := by
  cases h with
  | none => exact h'
  | added hmessages hseen hfiles =>
      cases h' with
      | kept hfades =>
          obtain ⟨f, hf, -⟩ := hfades
          exact .added (by rw [hf.messages, hmessages, List.map_nil]) (hf.seen.trans hseen)
            (hf.files.trans hfiles)
  | kept hfades =>
      cases h' with
      | kept hfades' => exact .kept (hfades.trans hfades')

/-- What an outbox keeps of a packet. -/
structure SamePacket (p p' : Pending) : Prop where
  contact : p'.contact = p.contact
  wire : p'.wire = p.wire
  receipt : p'.receipt = p.receipt

/-- Packets may go, and packets about presence may come. -/
def OutboxStep (codec : Codec) (outbox outbox' : StringMap Pending) : Prop :=
  ∀ (k : String) (p' : Pending), outbox'[k]? = some p' →
    (∃ p, outbox[k]? = some p ∧ SamePacket p p') ∨
      (p'.receipt = true ∧ ∃ generation mode expiresAt,
        packet codec (.presence generation mode expiresAt) = .ok p'.wire)

namespace OutboxStep

variable {outbox outbox' outbox'' : StringMap Pending}

theorem refl (codec : Codec) (outbox : StringMap Pending) : OutboxStep codec outbox outbox :=
  fun _ p h => Or.inl ⟨p, h, rfl, rfl, rfl⟩

theorem trans (h : OutboxStep codec outbox outbox') (h' : OutboxStep codec outbox' outbox'') :
    OutboxStep codec outbox outbox'' := by
  intro k p'' hp''
  obtain ⟨p', hp', hsame'⟩ | hpresence := h' k p'' hp''
  · obtain ⟨p, hp, hsame⟩ | ⟨hreceipt, generation, mode, expiresAt, hwire⟩ := h k p' hp'
    · exact Or.inl ⟨p, hp, hsame'.contact.trans hsame.contact, hsame'.wire.trans hsame.wire,
        hsame'.receipt.trans hsame.receipt⟩
    · exact Or.inr ⟨hsame'.receipt.trans hreceipt, generation, mode, expiresAt,
        hsame'.wire ▸ hwire⟩
  · exact Or.inr hpresence

theorem erase (outbox : StringMap Pending) (k : String) :
    OutboxStep codec outbox (outbox.erase k) := by
  intro a p hp
  rw [StringMap.get_erase] at hp
  split at hp
  · cases hp
  · exact Or.inl ⟨p, hp, rfl, rfl, rfl⟩

theorem filter (outbox : StringMap Pending) (f : String → Pending → Bool) :
    OutboxStep codec outbox (outbox.filter f) := by
  intro a p hp
  rw [StringMap.get_filter, Option.filter_eq_some_iff] at hp
  exact Or.inl ⟨p, hp.1, rfl, rfl, rfl⟩

theorem attempted {k : String} {p : Pending} (hp : outbox[k]? = some p) (now : ℕ) :
    OutboxStep codec outbox (outbox.insert k { p with lastAttempt := now }) := by
  intro a q hq
  rw [StringMap.get_insert] at hq
  split at hq
  case isTrue heq =>
    cases hq
    exact Or.inl ⟨p, heq ▸ hp, rfl, rfl, rfl⟩
  case isFalse => exact Or.inl ⟨q, hq, rfl, rfl, rfl⟩

end OutboxStep

/-- What a quiet operation does to a book. -/
structure Quiet (codec : Codec) (book next : Book) : Prop where
  contact : ∀ id : String, ContactStep book.contacts[id]? next.contacts[id]?
  outbox : OutboxStep codec book.outbox next.outbox

namespace Quiet

theorem refl (codec : Codec) (book : Book) : Quiet codec book book :=
  ⟨fun _ => ContactStep.refl _, OutboxStep.refl codec book.outbox⟩

theorem trans {last : Book} (h : Quiet codec book next) (h' : Quiet codec next last) :
    Quiet codec book last :=
  ⟨fun id => (h.contact id).trans (h'.contact id), h.outbox.trans h'.outbox⟩

theorem write {id : String} {c d : Contact} {outbox : StringMap Pending}
    (hc : book.contacts[id]? = some c) (hd : Fades c d)
    (hout : OutboxStep codec book.outbox outbox) :
    Quiet codec book (book.write id d outbox) where
  outbox := hout
  contact a := by
    simp only [Book.write, StringMap.get_insert]
    split
    case isTrue heq =>
      subst heq
      rw [hc]
      exact .kept hd
    case isFalse => exact ContactStep.refl _

theorem setContact {id : String} {c d : Contact} (hc : book.contacts[id]? = some c)
    (hd : Fades c d) : Quiet codec book (book.setContact id d) :=
  setContact_eq_write book id d ▸ write hc hd (OutboxStep.refl codec book.outbox)

theorem add {id : String} {d : Contact} (hc : book.contacts[id]? = none)
    (hmessages : d.messages = []) (hseen : d.seen = ∅) (hfiles : d.files = ∅) :
    Quiet codec book (book.setContact id d) where
  outbox := OutboxStep.refl codec book.outbox
  contact a := by
    simp only [Book.setContact, StringMap.get_insert]
    split
    case isTrue heq =>
      subst heq
      rw [hc]
      exact .added hmessages hseen hfiles
    case isFalse => exact ContactStep.refl _

end Quiet

/-! ### The quiet operations -/

section Operations

variable {id : String} {now : ℕ}

theorem quiet_queuePresence {contact : String} {desired : Option ContactPresence}
    (h : queuePresence codec book contact desired now = .ok next) : Quiet codec book next := by
  obtain ⟨peer, envelope, wire, hash, hpeer, -, -, henv, hwire, -, rfl⟩ := queuePresence_cases h
  have hout : OutboxStep codec book.outbox
      (book.outbox.insert (presenceId contact) ⟨contact, wire, 0, true, hash⟩) := by
    intro k p hp
    rw [StringMap.get_insert] at hp
    split at hp
    · cases hp
      exact Or.inr ⟨rfl, _, _, _, henv ▸ hwire⟩
    · exact Or.inl ⟨p, hp, rfl, rfl, rfl⟩
  exact Quiet.write hpeer (Fades.of_eq rfl rfl rfl) hout

theorem quiet_block {blocked : Bool} (h : block book id blocked = .ok next) :
    Quiet codec book next := by
  obtain ⟨c, hc, ⟨-, rfl⟩ | ⟨-, rfl⟩⟩ := block_cases h
  · exact Quiet.write hc (Fades.shutOut c) (OutboxStep.filter _ _)
  · exact Quiet.setContact hc (Fades.of_eq rfl rfl rfl)

theorem quiet_completeSend {pending : Pending} {failure : Option String}
    (h : completeSend book id pending failure now = .ok next) : Quiet codec book next := by
  obtain rfl | ⟨stored, outbox, hstored, hout, hnext⟩ := completeSend_cases h
  · exact Quiet.refl codec next
  · have hstep : OutboxStep codec book.outbox outbox := by
      obtain ⟨-, rfl⟩ | rfl := hout
      · exact OutboxStep.erase book.outbox id
      · exact OutboxStep.attempted hstored now
    obtain ⟨peer, hpeer, rfl⟩ | rfl := hnext
    · exact Quiet.write hpeer (Fades.of_eq rfl rfl rfl) hstep
    · exact ⟨fun _ => ContactStep.refl _, hstep⟩

/-- The operations that carry messages in or out of a book. -/
def Op.carries : Op → Bool
  | .queue .. => true
  | .receive .. => true
  | _ => false

theorem quiet_run {op : Op} (hop : op.carries = false) (h : op.run codec book = .ok next) :
    Quiet codec book next := by
  cases op with
  | queue => cases hop
  | receive => cases hop
  | add name card identity own =>
      obtain ⟨-, -, -, hnew, rfl⟩ := contactAdd_cases h
      exact Quiet.add hnew rfl rfl rfl
  | update name card identity own =>
      obtain ⟨c, hc, rfl⟩ := contactUpdate_cases h
      exact Quiet.setContact hc (Fades.of_eq rfl rfl rfl)
  | rename name newName =>
      obtain ⟨id, c, hc, -, rfl⟩ := contactRename_cases h
      exact Quiet.setContact hc (Fades.of_eq rfl rfl rfl)
  | verify name given =>
      obtain ⟨id, c, hc, rfl⟩ := contactVerify_cases h
      exact Quiet.setContact hc (Fades.of_eq rfl rfl rfl)
  | block id blocked => exact quiet_block h
  | away contact args now => exact quiet_queuePresence (away_cases h)
  | back contact now => exact quiet_queuePresence h
  | presenceOff contact now => exact quiet_queuePresence h
  | renew now =>
      exact renewPresence_induction (fun _ _ _ _ hb hq => hb.trans (quiet_queuePresence hq))
        (Quiet.refl codec book) h
  | completeSend id pending failure now => exact quiet_completeSend h
  | markRead id messageId =>
      obtain rfl | ⟨c, hc, rfl⟩ := markRead_cases h
      · exact Quiet.refl codec next
      · exact Quiet.setContact hc (Fades.of_eq rfl rfl rfl)

/-- The envelope a delivery holds for this protocol. -/
def Opens (codec : Codec) (delivery : ApplicationDelivery) (envelope : Envelope) : Prop :=
  ∃ application, codec.decode delivery.body = some application ∧
    application.contentType = mime ∧
    codec.takeFromBytes application.body = some (envelope, [])

/-- A delivery is quiet, or it brings a receipt that matches the outbox, or a message. -/
theorem receive_effect {delivery : ApplicationDelivery} {flag : Bool}
    (h : receive codec book delivery now = .ok (next, flag)) :
    Quiet codec book next ∨ ∃ peer,
      book.contacts[key codec delivery.peerIdentity]? = some peer ∧
      ((∃ mid hash, Opens codec delivery (.receipt mid hash) ∧
          receiveReceipt book (key codec delivery.peerIdentity) peer mid hash = next) ∨
        ∃ mid content, Opens codec delivery (.message mid content) ∧
          receiveMessage codec book (key codec delivery.peerIdentity) peer mid content
            delivery.receivedAtUnix = .ok next) := by
  obtain rfl | ⟨peer, hpeer, -, ⟨error, rfl⟩ | ⟨application, envelope, hdec, hmime, hopen, henv⟩⟩ :=
    receive_cases h
  · exact Or.inl (Quiet.refl codec next)
  · exact Or.inl (Quiet.setContact hpeer (Fades.of_eq rfl rfl rfl))
  · have hopens : Opens codec delivery envelope := ⟨application, hdec, hmime, hopen⟩
    cases envelope with
    | message mid content => exact Or.inr ⟨peer, hpeer, Or.inr ⟨mid, content, hopens, henv⟩⟩
    | receipt mid hash =>
        cases henv
        exact Or.inr ⟨peer, hpeer, Or.inl ⟨mid, hash, hopens, rfl⟩⟩
    | presence generation mode expiresAt =>
        cases henv
        obtain heq | ⟨presence, heq⟩ :=
          receivePresence_cases book _ peer generation mode expiresAt now
        · rw [heq]
          exact Or.inl (Quiet.refl codec book)
        · rw [heq]
          exact Or.inl (Quiet.setContact hpeer (Fades.of_eq rfl rfl rfl))

end Operations

end Contacts

end GChat
