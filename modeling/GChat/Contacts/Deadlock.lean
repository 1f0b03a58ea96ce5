import GChat.Contacts.Progress

/-!
# Two full outboxes

Two parties that queue messages for each other until both outboxes are full, before
one of them is delivered. Neither has room for a receipt, so neither accepts a
message of the other, and nothing makes room: the state is reached by `maxPending`
messages from each side.
-/

namespace GChat

namespace Contacts

open Foundation Api

namespace Jam

def identity : Side → List UInt8 := Sample.identity

/-- The empty file that every message of the run carries. -/
def content : Content := .file "a" []

/-- The identifier of the message number `i` of a party. -/
def mid (x : Side) (i : ℕ) : Bytes 32 where
  toList := (if x = .a then 0 else 1) :: UInt8.ofNat (i / 256) :: UInt8.ofNat (i % 256) ::
    List.replicate 29 0
  length_toList := by simp

/-- An encoding of the messages of the run and of all receipts. -/
def codec : Codec where
  sha256 bytes :=
    if bytes = identity .a then Sample.hashOfA
    else if bytes = identity .b then Sample.hashOfB
    else Bytes.fill 32 0
  toAllocvec
    | .message id sent => if sent = content then .ok (0 :: id.toList) else .error "no sample"
    | .receipt id digest => .ok (1 :: (id.toList ++ digest.toList))
    | .presence _ _ _ => .error "no sample"
  takeFromBytes
    | 0 :: bytes =>
        if h : bytes.length = 32 then some (.message ⟨bytes, h⟩ content, []) else none
    | 1 :: bytes =>
        if h : (bytes.take 32).length = 32 ∧ (bytes.drop 32).length = 32 then
          some (.receipt ⟨bytes.take 32, h.1⟩ ⟨bytes.drop 32, h.2⟩, [])
        else none
    | _ => none
  encode m := if m.contentType = mime then .ok m.body else .error "no sample"
  decode bytes := some ⟨mime, bytes⟩

theorem roundTrips : codec.RoundTrips where
  envelope e bytes h := by
    cases e with
    | message id sent =>
        simp only [codec] at h
        split at h
        case isTrue heq =>
          cases h
          subst heq
          simp [codec, id.length_toList]
        case isFalse => cases h
    | receipt id digest =>
        cases h
        have htake : (id.toList ++ digest.toList).take 32 = id.toList := by
          rw [List.take_append_of_le_length (Nat.le_of_eq id.length_toList.symm),
            List.take_of_length_le (Nat.le_of_eq id.length_toList)]
        have hdrop : (id.toList ++ digest.toList).drop 32 = digest.toList := by
          rw [List.drop_append_of_le_length (Nat.le_of_eq id.length_toList.symm),
            List.drop_of_length_le (Nat.le_of_eq id.length_toList), List.nil_append]
        simp only [codec, htake, hdrop]
        rw [dif_pos ⟨id.length_toList, digest.length_toList⟩]
    | presence => cases h
  application m bytes h := by
    simp only [codec] at h ⊢
    split at h
    case isTrue hmime =>
      cases h
      rw [← hmime]
    case isFalse => cases h

theorem encodesReceipts : codec.EncodesReceipts := by
  intro id sent hash _
  exact ⟨1 :: (id.toList ++ hash.toList), rfl⟩

theorem packet_message (id : Bytes 32) :
    packet codec (.message id content) = .ok (0 :: id.toList) := by
  simp [packet, codec, bind, Except.bind]

theorem mid_injective {x y : Side} {i j : ℕ} (hi : i < maxPending) (hj : j < maxPending)
    (h : mid x i = mid y j) : x = y ∧ i = j := by
  have hlist := congrArg Bytes.toList h
  simp only [mid, List.cons.injEq] at hlist
  obtain ⟨hside, hhigh, hlow, -⟩ := hlist
  unfold maxPending at hi hj
  constructor
  · cases x <;> cases y <;> first | rfl | (simp at hside)
  · have hdiv := congrArg UInt8.toNat hhigh
    have hmod := congrArg UInt8.toNat hlow
    simp only [UInt8.toNat_ofNat'] at hdiv hmod
    omega

/-! ### Filling the outboxes -/

/-- Number `i` of the messages a party queues. -/
def message (x : Side) (i : ℕ) : Event :=
  .op x (.queue (sideKey codec identity x.other) content "file" (mid x i) 100)

/-- Each party has the other as a contact and has queued its first messages, of which none
was delivered. -/
structure Filled (s : Exchange) (count : Side → ℕ) : Prop where
  contact : ∀ x, ∃ c, (s.book x).contacts[sideKey codec identity x.other]? = some c ∧
    c.blocked = false ∧ c.messages = [] ∧ c.seen = ∅
  size : ∀ x, (s.book x).outbox.size = count x
  outbox : ∀ (x : Side) (k : String) (p : Pending), (s.book x).outbox[k]? = some p →
    ∃ i < count x, k = hex (mid x i).toList ∧ p.receipt = false ∧
      p.contact = sideKey codec identity x.other ∧
      packet codec (.message (mid x i) content) = .ok p.wire
  queued : ∀ q ∈ s.queued, ∃ x, ∃ i < count x, q.id = mid x i

theorem queue_file {book : Book} {contact : String} {c : Contact} (x : Side) (i : ℕ)
    (hc : book.contacts[contact]? = some c) (hblocked : c.blocked = false)
    (hmessages : c.messages = []) (hroom : book.outbox.size < maxPending) :
    ∃ hash, queue codec book contact content "file" (mid x i) 100 =
      .ok (book.write contact c (book.outbox.insert (hex (mid x i).toList)
        ⟨contact, 0 :: (mid x i).toList, 0, false, hash⟩)) := by
  have hvalid : validateContent content = .ok () := validateContent_eq_ok (by decide)
  obtain ⟨hash, hhash⟩ := exists_digest (packet_message (mid x i))
  have hpush : c.push none = c := by
    simp [Contact.push]
  have hnone : Contacts.message (mid x i) contact c.name content true 100 = none := rfl
  refine ⟨hash, ?_⟩
  simp [queue, hvalid, hc, hblocked, hmessages, Nat.not_le.mpr hroom, hhash, packet_message, hnone,
    hpush, refuse, okOr, bind, Except.bind, pure, Except.pure, Book.write, maxMessages]

namespace Filled

variable {s : Exchange} {count : Side → ℕ} {x : Side}

theorem fresh (h : Filled s count) (hcount : ∀ y, count y ≤ maxPending)
    (hx : count x < maxPending) : s.queued.all (·.id != mid x (count x)) = true := by
  rw [List.all_eq_true]
  intro q hq
  obtain ⟨y, i, hi, hid⟩ := h.queued q hq
  rw [bne_iff_ne, hid]
  intro heq
  obtain ⟨rfl, rfl⟩ := mid_injective (lt_of_lt_of_le hi (hcount y)) hx heq
  exact lt_irrefl _ hi

theorem not_contains (h : Filled s count) (hx : count x < maxPending) :
    ¬ (s.book x).outbox.contains (hex (mid x (count x)).toList) = true := by
  intro hmem
  obtain ⟨p, hp⟩ := StringMap.get_of_contains hmem
  obtain ⟨i, hi, hk, -⟩ := h.outbox x _ p hp
  obtain ⟨-, rfl⟩ := mid_injective hx (hi.trans hx) (hexId_injective hk)
  exact lt_irrefl _ hi

/-- The state with one more message in the outbox of a party. -/
theorem after (h : Filled s count) (hx : count x < maxPending) {c : Contact}
    (hc : c.blocked = false ∧ c.messages = [] ∧ c.seen = ∅) {p : Pending}
    (hp : p.receipt = false ∧ p.contact = sideKey codec identity x.other ∧
      packet codec (.message (mid x (count x)) content) = .ok p.wire) :
    Filled (s.after x ((s.book x).write (sideKey codec identity x.other) c
        ((s.book x).outbox.insert (hex (mid x (count x)).toList) p))
      (⟨x, sideKey codec identity x.other, mid x (count x), content⟩ :: s.queued))
      (Function.update count x (count x + 1)) where
  contact y := by
    obtain rfl | hne := eq_or_ne y x
    · rw [after_book_self]
      exact ⟨c, StringMap.get_insert_self _ _ _, hc⟩
    · rw [after_book_of_ne hne]
      exact h.contact y
  size y := by
    obtain rfl | hne := eq_or_ne y x
    · rw [after_book_self, Function.update_self, Book.write, Std.ExtTreeMap.size_insert,
        if_neg (h.not_contains hx), h.size y]
    · rw [after_book_of_ne hne, Function.update_of_ne hne]
      exact h.size y
  outbox y k q hq := by
    obtain rfl | hne := eq_or_ne y x
    · rw [after_book_self] at hq
      rw [Function.update_self]
      simp only [Book.write, StringMap.get_insert] at hq
      split at hq
      case isTrue heq =>
        cases hq
        exact ⟨count y, Nat.lt_succ_self _, heq.symm, hp⟩
      case isFalse =>
        obtain ⟨i, hi, hrest⟩ := h.outbox y k q hq
        exact ⟨i, Nat.lt_succ_of_lt hi, hrest⟩
    · rw [after_book_of_ne hne] at hq
      rw [Function.update_of_ne hne]
      exact h.outbox y k q hq
  queued q hq := by
    obtain rfl | hold := List.mem_cons.mp hq
    · exact ⟨x, count x, by rw [Function.update_self]; exact Nat.lt_succ_self _, rfl⟩
    · obtain ⟨y, i, hi, hid⟩ := h.queued q hold
      refine ⟨y, i, lt_of_lt_of_le hi ?_, hid⟩
      obtain rfl | hne := eq_or_ne y x
      · rw [Function.update_self]
        exact Nat.le_succ _
      · rw [Function.update_of_ne hne]

/-- One more message is queued while there is room. -/
theorem step (h : Filled s count) (hcount : ∀ y, count y ≤ maxPending)
    (hx : count x < maxPending) :
    ∃ t, Exchange.step codec identity s (message x (count x)) = some t ∧
      Filled t (Function.update count x (count x + 1)) := by
  obtain ⟨c, hc, hempty⟩ := h.contact x
  obtain ⟨hash, hrun⟩ := queue_file x (count x) hc hempty.1 hempty.2.1 ((h.size x).symm ▸ hx)
  have hanswers : (s.book x).answers (sideKey codec identity x.other) "file" = false := by
    rw [Book.answers, hc, Option.any_some, hempty.2.1, List.any_nil]
  have hafter := h.after hx hempty
    (p := ⟨sideKey codec identity x.other, 0 :: (mid x (count x)).toList, 0, false, hash⟩)
    ⟨rfl, rfl, packet_message _⟩
  refine ⟨_, ?_, hafter⟩
  simp only [message, Exchange.step, Exchange.enabled, h.fresh hcount hx, if_true, Op.run, hrun,
    Exchange.queuedAfter, hanswers]
  rfl

/-- A party fills its outbox up to any size below the bound. -/
theorem run (hs : (exchange codec identity).Reachable s) (h : Filled s count)
    (hcount : ∀ y, count y ≤ maxPending) {n : ℕ} (hfrom : count x ≤ n) (hn : n ≤ maxPending) :
    ∃ t, (exchange codec identity).Reachable t ∧ Filled t (Function.update count x n) := by
  induction n, hfrom using Nat.le_induction with
  | base => exact ⟨s, hs, by rwa [Function.update_eq_self]⟩
  | succ n hle ih =>
      obtain ⟨t, ht, hfilled⟩ := ih (Nat.le_of_succ_le hn)
      have hbound : ∀ y, Function.update count x n y ≤ maxPending := by
        intro y
        obtain rfl | hne := eq_or_ne y x
        · rw [Function.update_self]
          exact Nat.le_of_succ_le hn
        · rw [Function.update_of_ne hne]
          exact hcount y
      have hself : Function.update count x n x = n := Function.update_self x n count
      obtain ⟨u, hstep, hu⟩ := hfilled.step hbound (hself.symm ▸ hn)
      rw [hself, Function.update_idem] at hu
      exact ⟨u, ht.step hstep, hu⟩

/-- With both outboxes full nothing makes progress. -/
theorem not_unjammed (h : Filled s fun _ => maxPending) : ¬ s.Unjammed codec identity := by
  intro hunjammed
  obtain ⟨x, k, p, hp, -, ⟨-, hroom⟩ | ⟨id, q, -, -, -, hwire⟩⟩ := hunjammed
  · exact absurd hroom.1 (Nat.not_lt.mpr (h.size x.other).ge)
  · obtain ⟨i, -, -, -, -, hmessage⟩ := h.outbox x k p hp
    have hreceipt : Opens codec (handedOver identity x p 0) (.receipt id q.digest) :=
      opens_handedOver roundTrips hwire x 0
    cases hreceipt.unique (opens_handedOver roundTrips hmessage x 0)

end Filled

/-- Both parties have added each other. -/
def start : Exchange :=
  ((Sample.run.take 2).foldlM (Exchange.step codec identity) Exchange.start).getD Exchange.start

theorem start_filled : Filled start fun _ => 0 := by
  have hcontact : ∀ x, (start.book x).contacts[sideKey codec identity x.other]?.map
      (fun c => (c.blocked, c.messages, c.seen.size)) = some (false, [], 0) := by
    intro x
    cases x <;> decide +kernel
  have hsize : ∀ x, (start.book x).outbox.size = 0 := by
    intro x
    cases x <;> decide +kernel
  constructor
  · intro x
    obtain ⟨c, hc, hempty⟩ := Option.map_eq_some_iff.mp (hcontact x)
    simp only [Prod.mk.injEq] at hempty
    exact ⟨c, hc, hempty.1, hempty.2.1, Std.ExtTreeMap.eq_empty_iff_size_eq_zero.mpr hempty.2.2⟩
  · exact hsize
  · intro x k p hp
    have hnone : (start.book x).outbox = ∅ :=
      Std.ExtTreeMap.eq_empty_iff_size_eq_zero.mpr (hsize x)
    simp [hnone] at hp
  · intro q hq
    have hqueued : start.queued = [] := by decide +kernel
    rw [hqueued] at hq
    cases hq

/-- Both parties fill their outboxes. -/
theorem exists_full : ∃ s, (exchange codec identity).Reachable s ∧
    Filled s fun _ => maxPending := by
  have hstart := Machine.Reachable.getD_foldlM Exchange.start (Exchange.step codec identity)
    (Sample.run.take 2)
  obtain ⟨s, hs, hfilled⟩ := start_filled.run (x := .a) hstart (fun _ => Nat.zero_le _)
    (Nat.zero_le maxPending) le_rfl
  have hbound : ∀ y, Function.update (fun _ => 0) Side.a maxPending y ≤ maxPending := by
    intro y
    cases y <;> decide
  obtain ⟨t, ht, hfull⟩ := hfilled.run (x := .b) hs hbound (Nat.zero_le maxPending) le_rfl
  have hcount : Function.update (Function.update (fun _ => 0) Side.a maxPending) Side.b maxPending =
      fun _ => maxPending := by
    funext y
    cases y <;> rfl
  exact ⟨t, ht, hcount ▸ hfull⟩

theorem Filled.mutual {s : Exchange} {count : Side → ℕ} (h : Filled s count) :
    s.Mutual codec identity := by
  intro x
  obtain ⟨c, hc, hblocked, -⟩ := h.contact x
  exact ⟨c, hc, hblocked⟩

theorem Filled.undelivered {s : Exchange} {count : Side → ℕ} (h : Filled s count) {x : Side}
    (hx : 0 < count x) : ∃ k p, s.Undelivered codec identity x k p := by
  have hsome : ∃ k, (s.book x).outbox.contains k = true := by
    by_contra hall
    have hempty : (s.book x).outbox = ∅ := Std.ExtTreeMap.eq_empty_iff_forall_contains.mpr
      fun k => Bool.eq_false_iff.mpr fun hk => hall ⟨k, hk⟩
    have hsize := h.size x
    rw [hempty, Std.ExtTreeMap.size_empty] at hsize
    exact absurd hsize (Nat.ne_of_lt hx)
  obtain ⟨k, hk⟩ := hsome
  obtain ⟨p, hp⟩ := StringMap.get_of_contains hk
  obtain ⟨i, -, -, hreceipt, hcontact, -⟩ := h.outbox x k p hp
  refine ⟨k, p, hp, hreceipt, hcontact, ?_⟩
  intro c hc
  obtain ⟨d, hd, -, -, hseen⟩ := h.contact x.other
  rw [x.other_other, hc] at hd
  cases hd
  rw [hseen]
  exact Std.ExtTreeMap.contains_empty

end Jam

/-- Two parties can reach a state in which every message between them is undelivered and
neither ever accepts one. -/
theorem full_outboxes_deadlock :
    ∃ s, (exchange Jam.codec Jam.identity).Reachable s ∧ s.Mutual Jam.codec Jam.identity ∧
      (∃ x k p, s.Undelivered Jam.codec Jam.identity x k p) ∧
      ∀ receivedAt now, ¬ s.Progresses Jam.codec Jam.identity receivedAt now := by
  obtain ⟨s, hs, hfull⟩ := Jam.exists_full
  obtain ⟨k, p, hundelivered⟩ := hfull.undelivered (x := .a) (by decide)
  refine ⟨s, hs, hfull.mutual, ⟨.a, k, p, hundelivered⟩, ?_⟩
  intro receivedAt now hprogress
  exact hfull.not_unjammed ((progresses_iff Jam.roundTrips Jam.encodesReceipts hs hfull.mutual
    receivedAt now).mp hprogress)

end Contacts

end GChat
