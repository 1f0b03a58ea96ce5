import GChat.Contacts.Steps
import GChat.Foundation.Machine

/-!
# Every reachable book validates

`Valid` says of a book what the check at the unlock tests. Each operation keeps
it, whatever packets the peers send, so a book that was saved is accepted again.
-/

namespace GChat

namespace Contacts

open Foundation Api

variable {codec : Codec} {book next : Book} {id : String} {c d : Contact}

/-- What the stored contact under `id` satisfies. -/
structure ContactValid (codec : Codec) (id : String) (c : Contact) : Prop where
  key : key codec c.identity = id
  name : c.name.isEmpty = false
  messages : c.messages.length ≤ maxMessages
  seen : c.seen.size ≤ maxMessages

/-- A book within the supported bounds, whose packets all go to a contact of it. -/
structure Valid (codec : Codec) (book : Book) : Prop where
  version : book.version = 1
  contacts_size : book.contacts.size ≤ maxContacts
  outbox_size : book.outbox.size ≤ maxPending
  contact : ∀ (id : String) (c : Contact), book.contacts[id]? = some c → ContactValid codec id c
  pending : ∀ (id : String) (p : Pending), book.outbox[id]? = some p → book.contacts.contains p.contact = true

theorem contactOk_iff : contactOk codec id c = true ↔ ContactValid codec id c := by
  simp only [contactOk, Bool.and_eq_true, beq_iff_eq, Bool.not_eq_true', decide_eq_true_iff]
  constructor
  · intro h
    exact ⟨h.1.1.1, h.1.1.2, h.1.2, h.2⟩
  · intro h
    exact ⟨⟨⟨h.key, h.name⟩, h.messages⟩, h.seen⟩

theorem any_toList_eq_false_iff {V : Type} {m : StringMap V} {f : String × V → Bool} :
    m.toList.any f = false ↔ ∀ k v, m[k]? = some v → f (k, v) = false := by
  rw [List.any_eq_false]
  constructor
  · intro h k v hv
    have hmem := h (k, v) (Std.ExtTreeMap.mem_toList_iff_getElem?_eq_some.mpr hv)
    rwa [Bool.not_eq_true] at hmem
  · intro h e he
    rw [Bool.not_eq_true]
    exact h e.1 e.2 (Std.ExtTreeMap.mem_toList_iff_getElem?_eq_some.mp he)

/-- The check at the unlock passes on the valid books and on no others. -/
theorem validateBook_eq_ok_iff : validateBook codec book = .ok () ↔ Valid codec book := by
  simp only [validateBook, refuse_eq_ok, Bool.or_eq_false_iff, bne_eq_false_iff_eq,
    decide_eq_false_iff_not, Nat.not_lt, any_toList_eq_false_iff, Bool.not_eq_false',
    contactOk_iff]
  constructor
  · intro h
    exact ⟨h.1.1.1.1, h.1.1.1.2, h.1.1.2, h.1.2, h.2⟩
  · intro h
    exact ⟨⟨⟨⟨h.version, h.contacts_size⟩, h.outbox_size⟩, h.contact⟩, h.pending⟩

theorem valid_default : Valid codec Book.default where
  version := rfl
  contacts_size := Nat.zero_le _
  outbox_size := Nat.zero_le _
  contact id c h := by simp [Book.default] at h
  pending id p h := by simp [Book.default] at h

/-! ### Edits of one contact -/

namespace ContactValid

/-- An edit that keeps the identity, the alias, the messages and the seen identifiers. -/
theorem congr (h : ContactValid codec id c) (hidentity : d.identity = c.identity)
    (hname : d.name = c.name) (hmessages : d.messages.length = c.messages.length)
    (hseen : d.seen = c.seen) : ContactValid codec id d where
  key := by rw [hidentity, h.key]
  name := by rw [hname, h.name]
  messages := by rw [hmessages]; exact h.messages
  seen := by rw [hseen]; exact h.seen

theorem push (h : ContactValid codec id c) (hroom : c.messages.length < maxMessages)
    (m : Option Message) : ContactValid codec id (c.push m) where
  key := h.key
  name := h.name
  seen := h.seen
  messages := by
    have hm : m.toList.length ≤ 1 := by cases m <;> simp
    simp only [Contact.push, List.length_append]
    omega

theorem record (h : ContactValid codec id c) (hroom : c.messages.length < maxMessages)
    (hseen : c.seen.size < maxMessages) (contact : String) (mid : Bytes 32) (content : Content)
    (hash : Bytes 32) (receivedAt : ℕ) :
    ContactValid codec id (c.record contact mid content hash receivedAt) := by
  have hinsert : (c.seen.insert (hex mid.toList) hash).size ≤ maxMessages :=
    Nat.le_trans (StringMap.size_insert_le c.seen (hex mid.toList) hash) hseen
  unfold Contact.record
  dsimp only
  split
  · have hlen : ∀ m : Message, (c.messages ++ [m]).length ≤ maxMessages := by
      intro m
      rw [List.length_append]
      exact hroom
    exact ⟨h.key, h.name, hlen _, hinsert⟩
  · exact ⟨h.key, h.name, h.messages, hinsert⟩

end ContactValid

/-! ### Edits of the book -/

/-- Packets may be added for contacts of the book as far as the bound. -/
def OutboxValid (book : Book) (outbox : StringMap Pending) : Prop :=
  outbox.size ≤ maxPending ∧
    ∀ (k : String) (p : Pending), outbox[k]? = some p → book.contacts.contains p.contact = true

namespace OutboxValid

theorem self (h : Valid codec book) : OutboxValid book book.outbox :=
  ⟨h.outbox_size, h.pending⟩

theorem erase (h : Valid codec book) (k : String) : OutboxValid book (book.outbox.erase k) := by
  constructor
  · exact Nat.le_trans Std.ExtTreeMap.size_erase_le h.outbox_size
  · intro a p hp
    rw [StringMap.get_erase] at hp
    split at hp
    · cases hp
    · exact h.pending a p hp

theorem filter (h : Valid codec book) (f : String → Pending → Bool) :
    OutboxValid book (book.outbox.filter f) := by
  constructor
  · exact Nat.le_trans Std.ExtTreeMap.size_filter_le_size h.outbox_size
  · intro a p hp
    rw [StringMap.get_filter, Option.filter_eq_some_iff] at hp
    exact h.pending a p hp.1

theorem insert (h : Valid codec book) {k : String} {p : Pending}
    (hroom : book.outbox.size < maxPending ∨ book.outbox.contains k = true)
    (hp : book.contacts.contains p.contact = true) :
    OutboxValid book (book.outbox.insert k p) := by
  constructor
  · cases hroom with
    | inl hsize => exact Nat.le_trans (StringMap.size_insert_le _ k p) hsize
    | inr hold =>
        rw [StringMap.size_insert_of_contains hold]
        exact h.outbox_size
  · intro a q hq
    rw [StringMap.get_insert] at hq
    split at hq
    · cases hq
      exact hp
    · exact h.pending a q hq

/-- A new packet for a contact of the book. -/
theorem push (h : Valid codec book) {k contact : String} {peer : Contact}
    (hpeer : book.contacts[contact]? = some peer)
    (hroom : book.outbox.size < maxPending ∨ book.outbox.contains k = true)
    (wire : List UInt8) (receipt : Bool) (hash : Bytes 32) :
    OutboxValid book (book.outbox.insert k ⟨contact, wire, 0, receipt, hash⟩) :=
  insert h hroom (StringMap.contains_of_get hpeer)

end OutboxValid

namespace Valid

/-- Writing a valid contact over a stored one, with a valid outbox. -/
theorem write (h : Valid codec book) (hc : book.contacts[id]? = some c)
    (hd : ContactValid codec id d) {outbox : StringMap Pending}
    (hout : OutboxValid book outbox) : Valid codec (book.write id d outbox) where
  version := h.version
  contacts_size := by
    simp only [Book.write, StringMap.size_insert_of_contains (StringMap.contains_of_get hc)]
    exact h.contacts_size
  outbox_size := hout.1
  contact a e he := by
    simp only [Book.write, StringMap.get_insert] at he
    split at he
    case isTrue heq =>
      cases he
      exact heq ▸ hd
    case isFalse => exact h.contact a e he
  pending k p hp := by
    simp only [Book.write, Std.ExtTreeMap.contains_insert, hout.2 k p hp, Bool.or_true]

theorem setContact (h : Valid codec book) (hc : book.contacts[id]? = some c)
    (hd : ContactValid codec id d) : Valid codec (book.setContact id d) :=
  setContact_eq_write book id d ▸ h.write hc hd (OutboxValid.self h)

/-- Adding a contact under a new key. -/
theorem add (h : Valid codec book) (hroom : book.contacts.size < maxContacts)
    (hd : ContactValid codec id d) : Valid codec (book.setContact id d) where
  version := h.version
  contacts_size := Nat.le_trans (StringMap.size_insert_le _ id d) hroom
  outbox_size := h.outbox_size
  contact a e he := by
    simp only [Book.setContact, StringMap.get_insert] at he
    split at he
    case isTrue heq =>
      cases he
      exact heq ▸ hd
    case isFalse => exact h.contact a e he
  pending k p hp := by
    simp only [Book.setContact, Std.ExtTreeMap.contains_insert, h.pending k p hp, Bool.or_true]

theorem setOutbox (h : Valid codec book) {outbox : StringMap Pending}
    (hout : OutboxValid book outbox) : Valid codec { book with outbox := outbox } where
  version := h.version
  contacts_size := h.contacts_size
  outbox_size := hout.1
  contact := h.contact
  pending := hout.2

end Valid

/-! ### The operations -/

section Operations

variable {now : ℕ} {contact : String}

theorem Valid.queuePresence {desired : Option ContactPresence} (h : Valid codec book)
    (hq : queuePresence codec book contact desired now = .ok next) : Valid codec next := by
  obtain ⟨peer, envelope, wire, hash, hpeer, -, hroom, -, -, -, rfl⟩ := queuePresence_cases hq
  have hd : ContactValid codec contact
      { peer with presence := peer.presence.renew desired now } :=
    (h.contact contact peer hpeer).congr rfl rfl rfl rfl
  exact h.write hpeer hd (OutboxValid.push h hpeer hroom wire true hash)

theorem Valid.queue {content : Content} {operation : String} {mid : Bytes 32}
    (h : Valid codec book)
    (hq : queue codec book contact content operation mid now = .ok next) : Valid codec next := by
  obtain ⟨-, rfl⟩ | ⟨peer, wire, hash, -, -, hroom, hpeer, -, hlen, -, -, rfl⟩ := queue_cases hq
  · exact h
  · exact h.write hpeer ((h.contact contact peer hpeer).push hlen _)
      (OutboxValid.push h hpeer (Or.inl hroom) wire false hash)

theorem Valid.block {blocked : Bool} (h : Valid codec book)
    (hb : block book id blocked = .ok next) : Valid codec next := by
  obtain ⟨c, hc, ⟨-, rfl⟩ | ⟨-, rfl⟩⟩ := block_cases hb
  · have hd : ContactValid codec id c.shutOut :=
      (h.contact id c hc).congr rfl rfl (List.length_map ..) rfl
    exact h.write hc hd (OutboxValid.filter h _)
  · exact h.setContact hc ((h.contact id c hc).congr rfl rfl rfl rfl)

theorem Valid.completeSend {pending : Pending} {failure : Option String} (h : Valid codec book)
    (hs : completeSend book id pending failure now = .ok next) : Valid codec next := by
  obtain rfl | ⟨stored, outbox, hstored, hout, hnext⟩ := completeSend_cases hs
  · exact h
  · have hvalid : OutboxValid book outbox := by
      obtain ⟨-, rfl⟩ | rfl := hout
      · exact OutboxValid.erase h id
      · exact OutboxValid.insert h (Or.inr (StringMap.contains_of_get hstored))
          (h.pending id stored hstored)
    obtain ⟨peer, hpeer, rfl⟩ | rfl := hnext
    · have hd : ContactValid codec pending.contact (peer.sent failure) :=
        (h.contact _ peer hpeer).congr rfl rfl rfl rfl
      exact h.write hpeer hd hvalid
    · exact h.setOutbox hvalid

theorem Valid.receiveMessage {peer : Contact} {mid : Bytes 32} {content : Content}
    {receivedAt : ℕ} (h : Valid codec book) (hpeer : book.contacts[contact]? = some peer)
    (hr : receiveMessage codec book contact peer mid content receivedAt = .ok next) :
    Valid codec next := by
  have hold := h.contact contact peer hpeer
  obtain ⟨error, rfl⟩ | ⟨hash, wire, peer', -, -, -, hroom, hrecord, rfl⟩ :=
    receiveMessage_cases hr
  · exact h.setContact hpeer (hold.congr rfl rfl rfl rfl)
  · have hout := OutboxValid.push h (k := ackId contact mid) hpeer (Or.inl hroom) wire true hash
    obtain ⟨-, rfl⟩ | ⟨-, hlen, hseen, rfl⟩ := hrecord
    · exact h.write hpeer hold hout
    · exact h.write hpeer (hold.record hlen hseen contact mid content hash receivedAt) hout

/-- A delivery keeps the book valid, whatever it holds and whoever sent it. -/
theorem Valid.receive {delivery : ApplicationDelivery} {flag : Bool} (h : Valid codec book)
    (hr : receive codec book delivery now = .ok (next, flag)) : Valid codec next := by
  obtain rfl | ⟨peer, hpeer, -, ⟨error, rfl⟩ | ⟨application, envelope, -, -, -, henv⟩⟩ :=
    receive_cases hr
  · exact h
  · exact h.setContact hpeer ((h.contact _ peer hpeer).congr rfl rfl rfl rfl)
  · have hold := h.contact _ peer hpeer
    cases envelope with
    | message mid content => exact h.receiveMessage hpeer henv
    | receipt mid hash =>
        cases henv
        obtain heq | ⟨p, -, -, heq⟩ := receiveReceipt_cases book _ peer mid hash
        · rw [heq]
          exact h
        · rw [heq]
          have hd : ContactValid codec (key codec delivery.peerIdentity)
              { peer with messages := peer.messages.map (promote (hex mid.toList)) } :=
            hold.congr rfl rfl (List.length_map ..) rfl
          exact h.write hpeer hd (OutboxValid.erase h _)
    | presence generation mode expiresAt =>
        cases henv
        obtain heq | ⟨presence, heq⟩ :=
          receivePresence_cases book _ peer generation mode expiresAt now
        · rw [heq]
          exact h
        · rw [heq]
          exact h.setContact hpeer (hold.congr rfl rfl rfl rfl)

/-- Every operation that returned keeps the book valid. -/
theorem Valid.run {op : Op} (h : Valid codec book) (hrun : op.run codec book = .ok next) :
    Valid codec next := by
  cases op with
  | add name card identity own =>
      obtain ⟨hname, -, hroom, -, rfl⟩ := contactAdd_cases hrun
      exact h.add hroom ⟨rfl, hname, Nat.zero_le _, Nat.zero_le _⟩
  | update name card identity own =>
      obtain ⟨c, hc, rfl⟩ := contactUpdate_cases hrun
      exact h.setContact hc ((h.contact _ c hc).congr rfl rfl rfl rfl)
  | rename name newName =>
      obtain ⟨id, c, hc, hname, rfl⟩ := contactRename_cases hrun
      have hold := h.contact id c hc
      exact h.setContact hc ⟨hold.key, hname, hold.messages, hold.seen⟩
  | verify name given =>
      obtain ⟨id, c, hc, rfl⟩ := contactVerify_cases hrun
      exact h.setContact hc ((h.contact id c hc).congr rfl rfl rfl rfl)
  | block id blocked => exact Valid.block h hrun
  | queue contact content operation mid now => exact h.queue hrun
  | away contact args now => exact h.queuePresence (away_cases hrun)
  | back contact now => exact h.queuePresence hrun
  | presenceOff contact now => exact h.queuePresence hrun
  | renew now => exact renewPresence_induction (fun _ _ _ _ hb hq => hb.queuePresence hq) h hrun
  | completeSend id pending failure now => exact h.completeSend hrun
  | markRead id messageId =>
      obtain rfl | ⟨c, hc, rfl⟩ := markRead_cases hrun
      · exact h
      · exact h.setContact hc ((h.contact id c hc).congr rfl rfl rfl rfl)
  | receive delivery now =>
      obtain ⟨result, hr, rfl⟩ := map_eq_ok.mp hrun
      exact h.receive hr

end Operations

/-! ### Runs -/

/-- The machine of one book: a step is an operation that returned `ok`. -/
def machine (codec : Codec) : Machine Book Op :=
  Machine.ofPartial Book.default fun book op => (op.run codec book).toOption

theorem reachable_valid (h : (machine codec).Reachable book) : Valid codec book :=
  h.invariant (fun _ hstart => hstart ▸ valid_default)
    fun _ _ _ _ hbook hstep => hbook.run (toOption_eq_some.mp hstep)

/-- Every book that operations reach from the default one, by any packets of any
peer, passes the check made when the profile is unlocked. -/
theorem reachable_validates (codec : Codec) (book : Book)
    (h : (machine codec).Reachable book) : validateBook codec book = .ok () :=
  validateBook_eq_ok_iff.mpr (reachable_valid h)

/-! ### A run with a malformed packet -/

namespace Sample

theorem length_hash : [75, 245, 18, 47, 52, 69, 84, 197, 59, 222, 46, 187, 140, 210, 183, 227,
    209, 96, 10, 214, 49, 195, 133, 165, 215, 204, 226, 60, 119, 133, 69, (154 : UInt8)].length =
      32 := rfl

/-- A hash with the value of `[1]`, and encodings that read no envelope. -/
def mute : Codec where
  sha256 _ :=
    { toList := [75, 245, 18, 47, 52, 69, 84, 197, 59, 222, 46, 187, 140, 210, 183, 227, 209, 96,
        10, 214, 49, 195, 133, 165, 215, 204, 226, 60, 119, 133, 69, 154]
      length_toList := length_hash }
  toAllocvec _ := .error "no sample"
  takeFromBytes _ := none
  encode m := .ok m.body
  decode bytes := some ⟨mime, bytes⟩

def ops : List Op :=
  [.add "bob" [] [1] [2], .receive ⟨none, none, [1], 100, [255]⟩ 100, .block (key mute [1]) true]

def reached : Book :=
  (ops.foldlM (fun book op => (Op.run mute book op).toOption) Book.default).getD Book.default

example : reached.contacts.size = 1 := by decide +kernel

end Sample

theorem sample_validates : validateBook Sample.mute Sample.reached = .ok () :=
  reachable_validates Sample.mute Sample.reached
    (Machine.Reachable.getD_foldlM Book.default _ Sample.ops)

end Contacts

end GChat
