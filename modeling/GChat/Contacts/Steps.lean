import GChat.Contacts.Operations

/-!
# What the operations of a book can do

One lemma for each operation that lists the books it can return, with the checks
that passed on the way. Later modules reason from these lists and do not unfold
the operations.
-/

namespace GChat

namespace Contacts

open Foundation Api

variable {codec : Codec} {book next : Book} {id name : String} {now : ℕ}

/-- A step that writes contacts and outbox together. -/
def Book.write (book : Book) (id : String) (c : Contact) (outbox : StringMap Pending) : Book :=
  { book with contacts := book.contacts.insert id c, outbox := outbox }

theorem setContact_eq_write (book : Book) (id : String) (c : Contact) :
    book.setContact id c = book.write id c book.outbox := rfl

/-! ### Commands of the owner -/

theorem resolve_contains (h : resolve book name = .ok id) :
    book.contacts.contains id = true := by
  unfold resolve at h
  split at h
  case isTrue hname =>
    cases h
    exact hname
  case isFalse =>
    obtain ⟨e, hfind, rfl⟩ := Option.map_eq_some_iff.mp (okOr_eq_ok.mp h)
    have hget := Std.ExtTreeMap.mem_toList_iff_getElem?_eq_some.mp (List.mem_of_find?_eq_some hfind)
    exact StringMap.contains_of_get hget

theorem checkAlias_nonempty (h : checkAlias name = .ok ()) : name.isEmpty = false := by
  simp only [checkAlias, refuse_eq_ok, Bool.or_eq_false_iff] at h
  exact h.1.1

theorem markRead_cases {messageId : String} (h : markRead book id messageId = .ok next) :
    next = book ∨ ∃ c, book.contacts[id]? = some c ∧
      next = book.setContact id { c with read := some messageId } := by
  simp only [markRead, bind_eq_ok, okOr_eq_ok] at h
  obtain ⟨c, hc, n, -, h⟩ := h
  split at h
  · exact Or.inr ⟨c, hc, (pure_eq_ok.mp h).symm⟩
  · exact Or.inl (pure_eq_ok.mp h).symm

theorem contactAdd_cases {card : ContactCard} {identity own : List UInt8}
    (h : contactAdd codec book name card identity own = .ok next) :
    name.isEmpty = false ∧ identity ≠ own ∧ book.contacts.size < maxContacts ∧
      book.contacts[key codec identity]? = none ∧
      next = book.setContact (key codec identity) (Contact.added identity card name) := by
  simp only [contactAdd, bind_eq_ok, refuse_eq_ok, pure_eq_ok] at h
  obtain ⟨_, hname, _, hown, _, hsize, _, hnew, rfl⟩ := h
  rw [Bool.or_eq_false_iff] at hnew
  rw [StringMap.contains_eq_isSome] at hnew
  exact ⟨checkAlias_nonempty hname, beq_eq_false_iff_ne.mp hown,
    Nat.lt_of_not_le (decide_eq_false_iff_not.mp hsize),
    Option.isSome_eq_false_iff.mp hnew.1 |> Option.isNone_iff_eq_none.mp, rfl⟩

theorem contactUpdate_cases {card : ContactCard} {identity own : List UInt8}
    (h : contactUpdate codec book name card identity own = .ok next) :
    ∃ c, book.contacts[key codec identity]? = some c ∧
      next = book.setContact (key codec identity) { c with card := card } := by
  simp only [contactUpdate, bind_eq_ok, okOr_eq_ok, pure_eq_ok] at h
  obtain ⟨_, -, _, -, _, -, _, -, c, hc, rfl⟩ := h
  exact ⟨c, hc, rfl⟩

theorem contactRename_cases {newName : String}
    (h : contactRename book name newName = .ok next) :
    ∃ id c, book.contacts[id]? = some c ∧ newName.isEmpty = false ∧
      next = book.setContact id { c with name := newName } := by
  simp only [contactRename, bind_eq_ok, okOr_eq_ok, pure_eq_ok] at h
  obtain ⟨id, -, _, hname, _, -, c, hc, rfl⟩ := h
  exact ⟨id, c, hc, checkAlias_nonempty hname, rfl⟩

theorem contactVerify_cases {given : String} (h : contactVerify book name given = .ok next) :
    ∃ id c, book.contacts[id]? = some c ∧
      next = book.setContact id { c with verified := true } := by
  simp only [contactVerify, bind_eq_ok, okOr_eq_ok, pure_eq_ok] at h
  obtain ⟨id, -, _, -, c, hc, rfl⟩ := h
  exact ⟨id, c, hc, rfl⟩

theorem block_cases {blocked : Bool} (h : block book id blocked = .ok next) :
    ∃ c, book.contacts[id]? = some c ∧
      ((blocked = true ∧
          next = book.write id c.shutOut (book.outbox.filter fun _ p => p.contact != id)) ∨
        (blocked = false ∧ next = book.setContact id { c with blocked := false })) := by
  simp only [block, bind_eq_ok, okOr_eq_ok] at h
  obtain ⟨c, hc, h⟩ := h
  cases blocked with
  | true => exact ⟨c, hc, Or.inl ⟨rfl, (pure_eq_ok.mp h).symm⟩⟩
  | false => exact ⟨c, hc, Or.inr ⟨rfl, (pure_eq_ok.mp h).symm⟩⟩

/-! ### Packets queued by the owner -/

/-- Whether an operation already has its message in the conversation. -/
def Book.answers (book : Book) (contact operation : String) : Bool :=
  book.contacts[contact]?.any fun peer =>
    peer.messages.any fun m => m.operationId == some operation

/-- A queued message: its packet stands in the outbox under its identifier. -/
theorem queue_cases {contact operation : String} {content : Content} {mid : Bytes 32}
    (h : queue codec book contact content operation mid now = .ok next) :
    (book.answers contact operation = true ∧ next = book) ∨ ∃ peer wire hash,
      book.answers contact operation = false ∧
      validContent content = true ∧ book.outbox.size < maxPending ∧
      book.contacts[contact]? = some peer ∧ peer.blocked = false ∧
      peer.messages.length < maxMessages ∧
      packet codec (.message mid content) = .ok wire ∧
      digest codec (.message mid content) = .ok hash ∧
      next = book.write contact
        (peer.push ((message mid contact peer.name content true now).map fun m =>
          { m with operationId := some operation }))
        (book.outbox.insert (hex mid.toList) ⟨contact, wire, 0, false, hash⟩) := by
  simp only [queue, bind_eq_ok, refuse_eq_ok, okOr_eq_ok] at h
  obtain ⟨_, hvalid, _, hroom, peer, hpeer, _, hblocked, _, hlen, h⟩ := h
  have hanswers : book.answers contact operation =
      peer.messages.any fun m => m.operationId == some operation := by
    rw [Book.answers, hpeer, Option.any_some]
  split at h
  case isTrue hany => exact Or.inl ⟨hanswers ▸ hany, (pure_eq_ok.mp h).symm⟩
  case isFalse hany =>
    simp only [bind_eq_ok, pure_eq_ok] at h
    obtain ⟨wire, hwire, hash, hhash, h⟩ := h
    refine Or.inr ⟨peer, wire, hash, hanswers ▸ Bool.eq_false_iff.mpr hany, ?_, ?_, hpeer,
      hblocked, ?_, hwire, hhash, h.symm⟩
    · simpa [validateContent, refuse_eq_ok] using hvalid
    · simpa using hroom
    · simpa using hlen

theorem queuePresence_cases {contact : String} {desired : Option ContactPresence}
    (h : queuePresence codec book contact desired now = .ok next) :
    ∃ peer envelope wire hash,
      book.contacts[contact]? = some peer ∧ peer.blocked = false ∧
      (book.outbox.size < maxPending ∨ book.outbox.contains (presenceId contact) = true) ∧
      envelope = .presence (peer.presence.renew desired now).generation
        (desired.getD .unknown) (saturatingAdd now 600) ∧
      packet codec envelope = .ok wire ∧ digest codec envelope = .ok hash ∧
      next = book.write contact { peer with presence := peer.presence.renew desired now }
        (book.outbox.insert (presenceId contact) ⟨contact, wire, 0, true, hash⟩) := by
  simp only [queuePresence, bind_eq_ok, refuse_eq_ok, okOr_eq_ok, pure_eq_ok] at h
  obtain ⟨peer, hpeer, _, hblocked, _, hroom, wire, hwire, hash, hhash, h⟩ := h
  refine ⟨peer, _, wire, hash, hpeer, hblocked, ?_, rfl, hwire, hhash, h.symm⟩
  rw [Bool.and_eq_false_iff] at hroom
  cases hroom with
  | inl hsize => exact Or.inl (Nat.lt_of_not_le (decide_eq_false_iff_not.mp hsize))
  | inr hold => exact Or.inr (by simpa using hold)

theorem away_cases {args : String} (h : away codec book id args now = .ok next) :
    queuePresence codec book id (some (.away args)) now = .ok next := by
  simp only [away, bind_eq_ok] at h
  obtain ⟨_, -, h⟩ := h
  exact h

theorem renewOne_cases {renewal : String × Option ContactPresence}
    (h : renewOne codec now book renewal = .ok next) :
    next = book ∨ queuePresence codec book renewal.1 renewal.2 now = .ok next := by
  unfold renewOne at h
  split at h
  · exact Or.inr h
  · exact Or.inl (pure_eq_ok.mp h).symm

/-- What every lease of a pass keeps is kept by the pass. -/
theorem renewPresence_induction {I : Book → Prop}
    (hstep : ∀ b c contact desired, I b → queuePresence codec b contact desired now = .ok c → I c)
    (hbook : I book) (h : renewPresence codec book now = .ok next) : I next := by
  unfold renewPresence at h
  generalize renewals book now = pass at h
  induction pass generalizing book with
  | nil =>
      rw [List.foldlM_nil] at h
      rwa [← pure_eq_ok.mp h]
  | cons renewal pass ih =>
      rw [List.foldlM_cons, bind_eq_ok] at h
      obtain ⟨b, hone, h⟩ := h
      cases renewOne_cases hone with
      | inl heq => exact ih (heq ▸ hbook) h
      | inr hqueue => exact ih (hstep _ _ _ _ hbook hqueue) h

theorem completeSend_cases {pending : Pending} {failure : Option String}
    (h : completeSend book id pending failure now = .ok next) :
    next = book ∨ ∃ stored outbox,
      book.outbox[id]? = some stored ∧
      ((pending.receipt = true ∧ outbox = book.outbox.erase id) ∨
        outbox = book.outbox.insert id { stored with lastAttempt := now }) ∧
      ((∃ peer, book.contacts[pending.contact]? = some peer ∧
          next = book.write pending.contact (peer.sent failure) outbox) ∨
        next = { book with outbox := outbox }) := by
  unfold completeSend at h
  cases hstored : book.outbox[id]? with
  | none => exact Or.inl (by simpa [hstored] using h.symm)
  | some stored =>
      simp only [hstored] at h
      split at h
      · cases h
      · refine Or.inr ⟨stored, next.outbox, rfl, ?_, ?_⟩
        · cases h
          dsimp only
          split
          case isTrue hdone => exact Or.inl ⟨(Bool.and_eq_true_iff.mp hdone).1, rfl⟩
          case isFalse => exact Or.inr rfl
        · cases h
          cases hpeer : book.contacts[pending.contact]? with
          | none => exact Or.inr (by simp)
          | some peer => exact Or.inl ⟨peer, rfl, by simp [Book.write]⟩

/-- The packets of a pass are from the outbox. -/
theorem mem_outgoing {book : Book} {now : ℕ} {e : String × Pending × ContactCard}
    (h : e ∈ outgoing book now) : book.outbox[e.1]? = some e.2.1 := by
  have hmem := List.mem_mergeSort.mp (List.mem_of_mem_take h)
  obtain ⟨p, hp, heq⟩ := List.mem_filterMap.mp hmem
  obtain ⟨c, -, rfl⟩ := Option.map_eq_some_iff.mp heq
  exact Std.ExtTreeMap.mem_toList_iff_getElem?_eq_some.mp (List.mem_filter.mp hp).1

/-! ### Packets received -/

theorem receivePresence_cases (book : Book) (contact : String) (peer : Contact)
    (generation : ℕ) (mode : ContactPresence) (expiresAt now : ℕ) :
    receivePresence book contact peer generation mode expiresAt now = book ∨
      ∃ presence, receivePresence book contact peer generation mode expiresAt now =
        book.setContact contact { peer with presence := presence } := by
  unfold receivePresence
  split
  · exact Or.inr ⟨_, rfl⟩
  · exact Or.inl rfl

theorem receiveReceipt_cases (book : Book) (contact : String) (peer : Contact)
    (mid hash : Bytes 32) :
    receiveReceipt book contact peer mid hash = book ∨
      ∃ p, book.outbox[hex mid.toList]? = some p ∧ p.acknowledgedBy contact hash = true ∧
        receiveReceipt book contact peer mid hash =
          book.write contact { peer with messages := peer.messages.map (promote (hex mid.toList)) }
            (book.outbox.erase (hex mid.toList)) := by
  unfold receiveReceipt
  dsimp only
  split
  case isTrue hany =>
    cases hp : book.outbox[hex mid.toList]? with
    | none =>
        rw [hp] at hany
        cases hany
    | some p =>
        rw [hp] at hany
        exact Or.inr ⟨p, rfl, hany, rfl⟩
  case isFalse => exact Or.inl rfl

/-- A received message leaves an error with its contact, or it is recorded unless it
was seen before, and in both cases its receipt is queued. -/
theorem receiveMessage_cases {contact : String} {peer : Contact} {mid : Bytes 32}
    {content : Content} {receivedAt : ℕ}
    (h : receiveMessage codec book contact peer mid content receivedAt = .ok next) :
    (∃ error, next = book.setContact contact (peer.withError error)) ∨
      ∃ hash wire peer', validContent content = true ∧
        digest codec (.message mid content) = .ok hash ∧
        packet codec (.receipt mid hash) = .ok wire ∧
        book.outbox.size < maxPending ∧
        ((peer.seen[hex mid.toList]? = some hash ∧ peer' = peer) ∨
          (peer.seen[hex mid.toList]? = none ∧ peer.messages.length < maxMessages ∧
            peer.seen.size < maxMessages ∧
            peer' = peer.record contact mid content hash receivedAt)) ∧
        next = book.write contact peer'
          (book.outbox.insert (ackId contact mid) ⟨contact, wire, 0, true, hash⟩) := by
  unfold receiveMessage at h
  cases hvalid : validateContent content with
  | error e =>
      rw [hvalid] at h
      cases h
      exact Or.inl ⟨e, rfl⟩
  | ok u =>
      rw [hvalid] at h
      simp only [bind_eq_ok] at h
      obtain ⟨hash, hhash, h⟩ := h
      split at h
      · exact Or.inl ⟨_, (pure_eq_ok.mp h).symm⟩
      case isFalse hsame =>
        simp only [bind_eq_ok, refuse_eq_ok, pure_eq_ok] at h
        obtain ⟨_, hroom, _, hlimit, wire, hwire, h⟩ := h
        refine Or.inr ⟨hash, wire, _, ?_, hhash, hwire, ?_, ?_, h.symm⟩
        · simpa [validateContent, refuse_eq_ok] using hvalid
        · simpa using hroom
        · cases hseen : peer.seen[hex mid.toList]? with
          | none =>
              have hfresh : peer.seen.contains (hex mid.toList) = false := by
                rw [StringMap.contains_eq_isSome, hseen]
                rfl
              rw [hfresh] at hlimit ⊢
              simp only [Bool.not_false, Bool.true_and, Bool.or_eq_false_iff,
                decide_eq_false_iff_not, Nat.not_le] at hlimit
              exact Or.inr ⟨rfl, hlimit.1, hlimit.2, rfl⟩
          | some old =>
              have hold : peer.seen.contains (hex mid.toList) = true :=
                StringMap.contains_of_get hseen
              rw [hold]
              rw [hseen] at hsame
              have heq : old = hash := by simpa using hsame
              exact Or.inl ⟨by rw [heq], rfl⟩

/-- A delivery changes the book only through an envelope of an unblocked contact. -/
theorem receive_cases {delivery : ApplicationDelivery} {flag : Bool}
    (h : receive codec book delivery now = .ok (next, flag)) :
    next = book ∨ ∃ peer,
      book.contacts[key codec delivery.peerIdentity]? = some peer ∧ peer.blocked = false ∧
      ((∃ error, next = book.setContact (key codec delivery.peerIdentity) (peer.withError error)) ∨
        ∃ application envelope, codec.decode delivery.body = some application ∧
          application.contentType = mime ∧
          codec.takeFromBytes application.body = some (envelope, []) ∧
          receiveEnvelope codec book (key codec delivery.peerIdentity) peer envelope
            delivery.receivedAtUnix now = .ok next) := by
  unfold receive at h
  split at h
  · cases h
    exact Or.inl rfl
  · cases happ : codec.decode delivery.body with
    | none =>
        rw [happ] at h
        cases h
        exact Or.inl rfl
    | some application =>
        simp only [happ] at h
        split at h
        · cases h
          exact Or.inl rfl
        case isFalse hmime =>
          cases hpeer : book.contacts[key codec delivery.peerIdentity]? with
          | none =>
              simp only [hpeer] at h
              cases h
              exact Or.inl rfl
          | some peer =>
              simp only [hpeer] at h
              split at h
              · cases h
                exact Or.inl rfl
              case isFalse hblocked =>
                refine Or.inr ⟨peer, rfl, Bool.eq_false_iff.mpr hblocked, ?_⟩
                split at h
                case h_1 envelope henv =>
                  right
                  refine ⟨application, envelope, rfl, by simpa using hmime, henv, ?_⟩
                  cases hrec : receiveEnvelope codec book (key codec delivery.peerIdentity) peer
                      envelope delivery.receivedAtUnix now with
                  | error e =>
                      rw [hrec] at h
                      cases h
                  | ok b =>
                      rw [hrec] at h
                      cases h
                      rfl
                case h_2 =>
                  cases h
                  exact Or.inl ⟨_, rfl⟩

end Contacts

end GChat
