import GChat.Contacts.Deadlock
import GChat.Contacts.Growth

/-!
# An operation that is queued again

A message carries the operation it was queued for, and it keeps it. An operation that has
its message is answered by it and queues nothing more, but the outbox and the conversation
are asked for room first: when either is full, an operation that was accepted long ago is
refused.
-/

namespace GChat

namespace Contacts

open Foundation Api

/-- The contact books of an open profile, and the one its archive holds. -/
structure Profile where
  state : Book
  stored : Book

section Definitions

variable (codec : Codec)

/-- A text, an action or a notice is sent to a contact. `save` says what becomes of the stored
book when the archive is asked to write another one, and `files` whether the index of the
files is brought up to date. -/
def submitContact (save : Book → Book → Except String Unit × Book) (files : Except String Unit)
    (p : Profile) (contact : String) (content : Content) (operation : String) (id : Bytes 32)
    (now : ℕ) : Except String Unit × Profile :=
  match queue codec p.state contact content operation id now with
  | .error message => (.error message, p)
  | .ok candidate =>
      match save p.stored candidate with
      | (.error message, stored) => (.error message, { p with stored := stored })
      | (.ok (), stored) => (files, ⟨candidate, stored⟩)

end Definitions

variable {codec : Codec} {book next : Book} {contact operation : String} {content : Content}
  {mid : Bytes 32} {now : ℕ}

/-! ### Operations stay answered -/

theorem answers_iff : book.answers contact operation = true ↔
    ∃ c, book.contacts[contact]? = some c ∧
      ∃ m ∈ c.messages, m.operationId = some operation := by
  unfold Book.answers
  cases book.contacts[contact]? with
  | none => simp
  | some c => simp

theorem Book.Continues.answers (h : book.Continues next)
    (hanswers : book.answers contact operation = true) :
    next.answers contact operation = true := by
  obtain ⟨c, hc, m, hm, hoperation⟩ := answers_iff.mp hanswers
  obtain ⟨d, hd, hgrows⟩ := h contact c hc
  have hentry : entry m ∈ d.messages.map entry :=
    hgrows.entries.subset (List.mem_map_of_mem hm)
  obtain ⟨m', hm', heq⟩ := List.mem_map.mp hentry
  have hsame : m'.operationId = m.operationId := congrArg (fun m => m.operationId) heq
  exact answers_iff.mpr ⟨d, hd, m', hm', hsame.trans hoperation⟩

theorem answers_after (h : book.answers contact operation = true) (op : Op) :
    (book.after codec op).answers contact operation = true := by
  unfold Book.after
  cases hrun : op.run codec book with
  | error message => exact h
  | ok next =>
      change next.answers contact operation = true
      cases hop : op.marks with
      | false => exact (continues_run hop hrun).answers h
      | true =>
          cases op with
          | markRead id messageId =>
              obtain rfl | ⟨c, hc, rfl⟩ := markRead_cases hrun
              · exact h
              · obtain ⟨d, hd, hmessage⟩ := answers_iff.mp h
                rw [answers_iff]
                simp only [Book.setContact, StringMap.get_insert]
                by_cases hid : id = contact
                · subst hid
                  rw [hc] at hd
                  cases hd
                  exact ⟨{ c with read := some messageId }, if_pos rfl, hmessage⟩
                · rw [if_neg hid]
                  exact ⟨d, hd, hmessage⟩
          | _ => cases hop

/-- A text that is queued leaves a message for its operation. -/
theorem answers_queue (hshown : content.shown.isSome = true)
    (h : queue codec book contact content operation mid now = .ok next) :
    next.answers contact operation = true := by
  obtain ⟨hanswers, rfl⟩ | ⟨peer, wire, hash, -, -, -, hpeer, -, -, -, -, rfl⟩ := queue_cases h
  · exact hanswers
  · rw [answers_iff]
    refine ⟨_, StringMap.get_insert_self _ _ _, ?_⟩
    cases content with
    | file contentType body => cases hshown
    | text s => exact ⟨_, List.mem_append_right _ (List.mem_singleton_self _), rfl⟩
    | action s => exact ⟨_, List.mem_append_right _ (List.mem_singleton_self _), rfl⟩
    | notice s => exact ⟨_, List.mem_append_right _ (List.mem_singleton_self _), rfl⟩

theorem answers_run (ops : List Op) {n m : ℕ} (h : n ≤ m)
    (hanswers : ((ops.take n).foldl (Book.after codec) book).answers contact operation = true) :
    ((ops.take m).foldl (Book.after codec) book).answers contact operation = true := by
  induction m, h using Nat.le_induction with
  | base => exact hanswers
  | succ m _ ih =>
      cases hop : ops[m]? with
      | none =>
          have hlen : ops.length ≤ m := List.getElem?_eq_none_iff.mp hop
          rw [List.take_of_length_le hlen] at ih
          rwa [List.take_of_length_le (Nat.le_succ_of_le hlen)]
      | some op =>
          rw [Machine.foldl_take_succ _ _ hop]
          exact answers_after ih op

/-! ### The retry -/

theorem validContent_of_queue
    (h : queue codec book contact content operation mid now = .ok next) :
    validContent content = true := by
  simp only [queue, bind_eq_ok] at h
  obtain ⟨_, hvalid, -⟩ := h
  simpa [validateContent, refuse_eq_ok] using hvalid

/-- An answered operation is accepted again exactly if there is still room. -/
theorem queue_again_iff {c : Contact} (hvalid : validContent content = true)
    (hc : book.contacts[contact]? = some c) (hblocked : c.blocked = false)
    (hanswers : book.answers contact operation = true) :
    queue codec book contact content operation mid now = .ok book ↔
      book.outbox.size < maxPending ∧ c.messages.length < maxMessages := by
  have hany : (c.messages.any fun m => m.operationId == some operation) = true := by
    rw [Book.answers, hc, Option.any_some] at hanswers
    exact hanswers
  simp only [queue, bind_eq_ok, refuse_eq_ok, okOr_eq_ok]
  constructor
  · intro h
    obtain ⟨_, -, _, hroom, peer, hpeer, _, -, _, hlength, -⟩ := h
    rw [hc] at hpeer
    cases hpeer
    exact ⟨Nat.lt_of_not_le (decide_eq_false_iff_not.mp hroom),
      Nat.lt_of_not_le (decide_eq_false_iff_not.mp hlength)⟩
  · intro h
    refine ⟨(), validateContent_eq_ok hvalid, (), ?_, c, hc, (), hblocked, (), ?_, ?_⟩
    · exact decide_eq_false (Nat.not_le.mpr h.1)
    · exact decide_eq_false (Nat.not_le.mpr h.2)
    · rw [if_pos hany]
      rfl

/-- A text whose operation was queued before is accepted again, with nothing changed, exactly
if the outbox and the conversation have room for one more; and what `queue` refuses changes
neither the open book nor the stored one. -/
theorem retry_iff_room (codec : Codec) (ops : List Op) (n : ℕ) (contact operation : String)
    (content : Content) (mid : Bytes 32) (now : ℕ) (hshown : content.shown.isSome = true)
    (hop : ops[n]? = some (.queue contact content operation mid now))
    (hqueued : ∃ next, queue codec ((ops.take n).foldl (Book.after codec) Book.default) contact
      content operation mid now = .ok next) :
    (∀ c, (ops.foldl (Book.after codec) Book.default).contacts[contact]? = some c →
      c.blocked = false → ∀ (mid' : Bytes 32) (now' : ℕ),
        queue codec (ops.foldl (Book.after codec) Book.default) contact content operation mid'
            now' = .ok (ops.foldl (Book.after codec) Book.default) ↔
          (ops.foldl (Book.after codec) Book.default).outbox.size < maxPending ∧
            c.messages.length < maxMessages) ∧
      ∀ (save : Book → Book → Except String Unit × Book) (files : Except String Unit)
        (p : Profile) (contact : String) (content : Content) (operation : String)
        (mid : Bytes 32) (now : ℕ) (message : String),
        queue codec p.state contact content operation mid now = .error message →
        submitContact codec save files p contact content operation mid now =
          (.error message, p) := by
  obtain ⟨next, hnext⟩ := hqueued
  constructor
  · intro c hc hblocked mid' now'
    have hafter : ((ops.take (n + 1)).foldl (Book.after codec) Book.default).answers contact
        operation = true := by
      rw [Machine.foldl_take_succ _ _ hop]
      rw [Book.after, Op.run, hnext]
      exact answers_queue hshown hnext
    have hlen : n + 1 ≤ ops.length := by
      obtain ⟨hlt, -⟩ := List.getElem?_eq_some_iff.mp hop
      exact hlt
    have hanswers := answers_run ops hlen hafter
    rw [List.take_length] at hanswers
    exact queue_again_iff (validContent_of_queue hnext) hc hblocked hanswers
  · intro save files p contact content operation mid now message h
    unfold submitContact
    rw [h]

/-! ### A full outbox -/

namespace Sample

/-- The bytes of a text "hi" under an identifier. -/
def hiBytes (id : Bytes 32) : List UInt8 := 0 :: (id.toList ++ [0, 2, 104, 105])

/-- An encoding of the texts of the run. -/
def textCodec : Codec where
  sha256 bytes :=
    if bytes = identity .a then hashOfA
    else if bytes = identity .b then hashOfB
    else Bytes.fill 32 0
  toAllocvec
    | .message id sent => if sent = .text "hi" then .ok (hiBytes id) else .error "no sample"
    | _ => .error "no sample"
  takeFromBytes
    | 0 :: bytes =>
        if h : (bytes.take 32).length = 32 then some (.message ⟨bytes.take 32, h⟩ (.text "hi"), [])
        else none
    | _ => none
  encode m := if m.contentType = mime then .ok m.body else .error "no sample"
  decode bytes := some ⟨mime, bytes⟩

/-- The operation of text number `i`. -/
def opName (i : ℕ) : String := String.ofList (List.replicate i 'x')

def bob : String := sideKey textCodec identity .b

def text (i : ℕ) : Op := .queue bob (.text "hi") (opName i) (Jam.mid .a i) 100

/-- A contact, and `n` texts for it. -/
def texts (n : ℕ) : List Op :=
  .add "bob" [] (identity .b) (identity .a) :: (List.range n).map text

theorem opName_injective {i j : ℕ} (h : opName i = opName j) : i = j := by
  have hlist := congrArg String.toList h
  simp only [opName, String.toList_ofList] at hlist
  have hlength := congrArg List.length hlist
  simpa using hlength

/-- The contact has the texts below `n`, each with its packet in the outbox. -/
structure Flooded (book : Book) (n : ℕ) : Prop where
  contact : ∃ c, book.contacts[bob]? = some c ∧ c.blocked = false ∧ c.messages.length = n ∧
    ∀ m ∈ c.messages, ∃ i < n, m.operationId = some (opName i)
  size : book.outbox.size = n
  outbox : ∀ k, book.outbox.contains k = true → ∃ i < n, k = hex (Jam.mid .a i).toList

theorem packet_hi (id : Bytes 32) :
    packet textCodec (.message id (.text "hi")) = .ok (hiBytes id) := by
  simp [packet, textCodec, bind, Except.bind]

theorem queue_hi {book : Book} {n : ℕ} (h : Flooded book n) (hn : n < maxPending) :
    ∃ next, queue textCodec book bob (.text "hi") (opName n) (Jam.mid .a n) 100 = .ok next ∧
      Flooded next (n + 1) := by
  obtain ⟨c, hc, hblocked, hlength, hoperations⟩ := h.contact
  obtain ⟨hash, hhash⟩ := exists_digest (packet_hi (Jam.mid .a n))
  have hany : (c.messages.any fun m => m.operationId == some (opName n)) = false := by
    rw [List.any_eq_false]
    intro m hm heq
    obtain ⟨i, hi, hm⟩ := hoperations m hm
    rw [beq_iff_eq, hm] at heq
    exact absurd (opName_injective (Option.some.inj heq)) (Nat.ne_of_lt hi)
  have hvalid : validateContent (.text "hi") = .ok () := validateContent_eq_ok (by decide)
  have hroom : ¬ maxPending ≤ book.outbox.size := by
    rw [h.size]
    exact Nat.not_le.mpr hn
  have hspace : ¬ maxMessages ≤ c.messages.length := by
    rw [hlength]
    exact Nat.not_le.mpr (hn.trans (by decide))
  have hnew : book.outbox.contains (hex (Jam.mid .a n).toList) = false := by
    rw [Bool.eq_false_iff]
    intro hmem
    obtain ⟨i, hi, heq⟩ := h.outbox _ hmem
    obtain ⟨-, rfl⟩ := Jam.mid_injective hn (hi.trans hn) (hexId_injective heq)
    exact lt_irrefl _ hi
  have haccepted : ∃ next,
      queue textCodec book bob (.text "hi") (opName n) (Jam.mid .a n) 100 = .ok next := by
    simp only [queue, hvalid, hc, hblocked, hroom, hspace, hany, hhash, packet_hi, refuse, okOr,
      bind, Except.bind, pure, Except.pure, decide_false, Bool.false_eq_true, if_false]
    exact ⟨_, rfl⟩
  obtain ⟨next, hnext⟩ := haccepted
  refine ⟨next, hnext, ?_⟩
  obtain ⟨hanswers, -⟩ | ⟨peer, wire, hash, -, -, -, hpeer, -, -, -, -, rfl⟩ := queue_cases hnext
  · rw [Book.answers, hc, Option.any_some, hany] at hanswers
    cases hanswers
  · rw [hc] at hpeer
    cases hpeer
    constructor
    · refine ⟨_, StringMap.get_insert_self _ _ _, hblocked, ?_, ?_⟩
      · simp [Contact.push, message, hlength]
      · intro m hm
        obtain hold | hlast := List.mem_append.mp hm
        · obtain ⟨i, hi, hname⟩ := hoperations m hold
          exact ⟨i, Nat.lt_succ_of_lt hi, hname⟩
        · refine ⟨n, Nat.lt_succ_self n, ?_⟩
          rw [List.mem_singleton.mp hlast]
    · simp only [Book.write]
      rw [Std.ExtTreeMap.size_insert, if_neg (Bool.eq_false_iff.mp hnew), h.size]
    · intro k hk
      obtain ⟨p, hp⟩ := StringMap.get_of_contains hk
      simp only [Book.write, StringMap.get_insert] at hp
      split at hp
      case isTrue heq => exact ⟨n, Nat.lt_succ_self n, heq.symm⟩
      case isFalse =>
        obtain ⟨i, hi, heq⟩ := h.outbox k (StringMap.contains_of_get hp)
        exact ⟨i, Nat.lt_succ_of_lt hi, heq⟩

theorem flooded_zero : Flooded ((texts 0).foldl (Book.after textCodec) Book.default) 0 := by
  have hcontact : ((texts 0).foldl (Book.after textCodec) Book.default).contacts[bob]?.map
      (fun c => (c.blocked, c.messages)) = some (false, []) := by
    decide +kernel
  have hsize : ((texts 0).foldl (Book.after textCodec) Book.default).outbox.size = 0 := by
    decide +kernel
  obtain ⟨c, hc, heq⟩ := Option.map_eq_some_iff.mp hcontact
  simp only [Prod.mk.injEq] at heq
  refine ⟨⟨c, hc, heq.1, by rw [heq.2, List.length_nil], by simp [heq.2]⟩, hsize, ?_⟩
  intro k hk
  rw [Std.ExtTreeMap.eq_empty_iff_size_eq_zero.mpr hsize, Std.ExtTreeMap.contains_empty] at hk
  cases hk

theorem texts_succ (n : ℕ) : texts (n + 1) = texts n ++ [text n] := by
  simp [texts, List.range_succ]

/-- The texts fill the outbox. -/
theorem flooded {n : ℕ} (hn : n ≤ maxPending) :
    Flooded ((texts n).foldl (Book.after textCodec) Book.default) n := by
  induction n with
  | zero => exact flooded_zero
  | succ n ih =>
      obtain ⟨next, hnext, hflooded⟩ := queue_hi (ih (Nat.le_of_succ_le hn)) hn
      rw [texts_succ, List.foldl_append, List.foldl_cons, List.foldl_nil]
      rw [text, Book.after, Op.run, hnext]
      exact hflooded

/-- The first text is queued. -/
theorem first_queued : ∃ next, queue textCodec
    (((texts maxPending).take 1).foldl (Book.after textCodec) Book.default) bob (.text "hi")
      (opName 0) (Jam.mid .a 0) 100 = .ok next := by
  have htake : (texts maxPending).take 1 = texts 0 := by
    simp [texts]
  rw [htake]
  obtain ⟨next, hnext, -⟩ := queue_hi flooded_zero (by decide)
  exact ⟨next, hnext⟩

theorem first_text : (texts maxPending)[1]? =
    some (.queue bob (.text "hi") (opName 0) (Jam.mid .a 0) 100) := by
  simp [texts, text, maxPending]

end Sample

/-- While nothing else waits, the first text is accepted again. -/
theorem sample_retry : queue Sample.textCodec
    ((Sample.texts 1).foldl (Book.after Sample.textCodec) Book.default) Sample.bob (.text "hi")
      (Sample.opName 0) (Jam.mid .a 1) 200 =
    .ok ((Sample.texts 1).foldl (Book.after Sample.textCodec) Book.default) := by
  have hflooded := Sample.flooded (n := 1) (by decide)
  obtain ⟨c, hc, hblocked, hlength, -⟩ := hflooded.contact
  have hfirst : ∃ next, queue Sample.textCodec
      (((Sample.texts 1).take 1).foldl (Book.after Sample.textCodec) Book.default) Sample.bob
        (.text "hi") (Sample.opName 0) (Jam.mid .a 0) 100 = .ok next := by
    obtain ⟨next, hnext, -⟩ := Sample.queue_hi Sample.flooded_zero (by decide)
    exact ⟨next, hnext⟩
  have hretry := (retry_iff_room Sample.textCodec (Sample.texts 1) 1 Sample.bob (Sample.opName 0)
    (.text "hi") (Jam.mid .a 0) 100 rfl rfl hfirst).1 c hc hblocked (Jam.mid .a 1) 200
  apply hretry.mpr
  rw [hflooded.size, hlength]
  decide

/-- With a full outbox the first text is refused, though it was accepted and is in the
conversation. -/
theorem full_outbox_refuses_retry :
    ¬ ∀ (codec : Codec) (ops : List Op) (n : ℕ) (contact operation : String) (content : Content)
      (mid : Bytes 32) (now : ℕ), content.shown.isSome = true →
      ops[n]? = some (.queue contact content operation mid now) →
      (∃ next, queue codec ((ops.take n).foldl (Book.after codec) Book.default) contact content
        operation mid now = .ok next) →
      ∀ c, (ops.foldl (Book.after codec) Book.default).contacts[contact]? = some c →
        c.blocked = false → ∀ (mid' : Bytes 32) (now' : ℕ),
          queue codec (ops.foldl (Book.after codec) Book.default) contact content operation mid'
            now' = .ok (ops.foldl (Book.after codec) Book.default) := by
  intro h
  have hflooded := Sample.flooded (Nat.le_refl maxPending)
  obtain ⟨c, hc, hblocked, -⟩ := hflooded.contact
  have hagain := h Sample.textCodec (Sample.texts maxPending) 1 Sample.bob (Sample.opName 0)
    (.text "hi") (Jam.mid .a 0) 100 rfl Sample.first_text Sample.first_queued c hc hblocked
    (Jam.mid .a 0) 200
  simp only [queue, bind_eq_ok, refuse_eq_ok] at hagain
  obtain ⟨_, -, _, hroom, -⟩ := hagain
  rw [hflooded.size] at hroom
  exact absurd hroom (by decide)

end Contacts

end GChat
