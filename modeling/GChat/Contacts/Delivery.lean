import GChat.Contacts.Arrivals
import GChat.Contacts.ExactlyOnce

/-!
# What the exchange guarantees

In every state of an exchange a message appears at most once where it was sent
to, with the content that was queued, and it is shown as delivered only if the
other side has it. A receipt never makes another one.
-/

namespace GChat

namespace Contacts

open Foundation Api

section Definitions

variable (codec : Codec) (identity : Side → List UInt8)

/-- How often an identifier appears in a conversation, as a message or as a file. -/
def Contact.appearances (c : Contact) (id : String) : ℕ :=
  (c.messages.map (·.id)).count id + if c.files.contains id then 1 else 0

/-- Each message queued for `x` appears at most once at `x`, with the queued content. -/
def DeliveredOnce (s : Exchange) (x : Side) : Prop :=
  ∀ c, (s.book x).contacts[sideKey codec identity x.other]? = some c →
    ∀ q ∈ s.queued, q.source = x.other → q.contact = sideKey codec identity x →
      c.appearances (hex q.id.toList) ≤ 1 ∧
        (∀ m ∈ c.messages, m.id = hex q.id.toList → m.mine = false ∧ Shows m q.content) ∧
        ∀ content, c.files[hex q.id.toList]? = some content → content = q.content

/-- Nothing appears at `x` from the other side that was not queued there for `x`. -/
def NothingElse (s : Exchange) (x : Side) : Prop :=
  ∀ c, (s.book x).contacts[sideKey codec identity x.other]? = some c →
    ∀ m ∈ c.messages, m.mine = false →
      ∃ q ∈ s.queued, q.source = x.other ∧ q.contact = sideKey codec identity x ∧
        m.id = hex q.id.toList

/-- A message of `x` that is shown as delivered stands at the other side as a message
from `x`, with its kind and its text. -/
def Truthful (s : Exchange) (x : Side) : Prop :=
  ∀ c, (s.book x).contacts[sideKey codec identity x.other]? = some c →
    ∀ m ∈ c.messages, m.mine = true → m.delivery = some .delivered →
      ∃ c', (s.book x.other).contacts[sideKey codec identity x]? = some c' ∧
        ∃ m' ∈ c'.messages, m'.mine = false ∧ m'.id = m.id ∧
          m'.messageKind = m.messageKind ∧ m'.body = m.body

end Definitions

/-- Receiving a receipt puts nothing into the outbox. -/
def ReceiptsSilent (codec : Codec) (book : Book) : Prop :=
  ∀ delivery mid hash now next flag, Opens codec delivery (.receipt mid hash) →
    receive codec book delivery now = .ok (next, flag) →
      ∀ (k : String) (p : Pending), next.outbox[k]? = some p → book.outbox[k]? = some p

section Guarantees

variable {codec : Codec} {identity : Side → List UInt8} {s : Exchange}

theorem Inv.nothingElse (h : Inv codec identity s) (x : Side) :
    NothingElse codec identity s x := by
  intro c hc m hm hmine
  obtain ⟨q, hq, hsource, hcontact, hid, -⟩ := (h.faithful x c hc).traced m hm
  have horigin : origin x m = x.other := by rw [origin, hmine]; rfl
  rw [horigin] at hsource hcontact
  rw [x.other_other] at hcontact
  exact ⟨q, hq, hsource, hcontact, hid⟩

theorem Inv.deliveredOnce (h : Inv codec identity s) (x : Side) :
    DeliveredOnce codec identity s x := by
  intro c hc q hq hsource hcontact
  have hfaithful := h.faithful x c hc
  have hshow : ∀ m ∈ c.messages, m.id = hex q.id.toList → m.mine = false ∧ Shows m q.content := by
    intro m hm hid
    obtain ⟨r, hr, hrsource, -, hrid, hshows⟩ := hfaithful.traced m hm
    have hsame : r = q := h.unique r hr q hq (hexId_injective (hrid.symm.trans hid))
    subst hsame
    cases hmine : m.mine with
    | false => exact ⟨rfl, hshows⟩
    | true =>
        rw [origin, hmine, hsource] at hrsource
        exact absurd hrsource x.other_ne
  have hfile : ∀ content, c.files[hex q.id.toList]? = some content →
      content = q.content ∧ content.shown = none := by
    intro content hget
    obtain ⟨r, hr, rfl, hshown⟩ := hfaithful.files _ content hget
    have hsame : r = q := h.unique r hr.1 q hq (hexId_injective hr.2.2.2.symm)
    exact ⟨by rw [hsame], hshown⟩
  refine ⟨?_, hshow, fun content hget => (hfile content hget).1⟩
  have hcount : (c.messages.map (·.id)).count (hex q.id.toList) ≤ 1 :=
    List.nodup_iff_count_le_one.mp hfaithful.nodup _
  unfold Contact.appearances
  split
  case isFalse => exact hcount
  case isTrue hcontains =>
    -- a file shows no message, so the identifier is not among the messages
    obtain ⟨content, hget⟩ := StringMap.get_of_contains hcontains
    obtain ⟨rfl, hshown⟩ := hfile content hget
    have hnot : hex q.id.toList ∉ c.messages.map (·.id) := by
      intro hmem
      obtain ⟨m, hm, hid⟩ := List.mem_map.mp hmem
      obtain ⟨-, kind, body, hsome, -⟩ := hshow m hm hid
      rw [hshown] at hsome
      cases hsome
    rw [List.count_eq_zero_of_not_mem hnot]

theorem Inv.truthful (h : Inv codec identity s) (x : Side) : Truthful codec identity s x := by
  intro c hc m hm hmine hdelivered
  have hfaithful := h.faithful x c hc
  obtain ⟨q, hq, -, -, hid, hshows⟩ := hfaithful.traced m hm
  obtain ⟨c', hc', hseen⟩ := hfaithful.delivered m hm hmine hdelivered
  obtain ⟨hash, hget⟩ := StringMap.get_of_contains hseen
  have hother := h.faithful x.other c' (by rw [x.other_other]; exact hc')
  obtain ⟨r, hr, hrecorded⟩ := hother.seen m.id hash hget
  have hsame : r = q := h.unique r hr.1 q hq (hexId_injective (hr.2.2.2.symm.trans hid))
  subst hsame
  obtain ⟨m', hm', hmine', hid', hshows'⟩ | ⟨hnone, -⟩ := hrecorded
  · exact ⟨c', hc', m', hm', hmine', hid'.trans hid.symm, hshows.agree hshows'⟩
  · obtain ⟨kind, body, hsome, -⟩ := hshows
    rw [hnone] at hsome
    cases hsome

theorem receipts_silent (codec : Codec) (book : Book) : ReceiptsSilent codec book := by
  intro delivery mid hash now next flag hopens hr k p hp
  obtain rfl | ⟨peer, -, -, ⟨error, rfl⟩ | ⟨application, e, hdecode, hmime, hopen, henv⟩⟩ :=
    receive_cases hr
  · exact hp
  · exact hp
  · have he : e = .receipt mid hash := Opens.unique ⟨application, hdecode, hmime, hopen⟩ hopens
    subst he
    cases henv
    obtain heq | ⟨q, -, -, heq⟩ := receiveReceipt_cases book _ peer mid hash
    · rw [heq] at hp
      exact hp
    · rw [heq] at hp
      simp only [Book.write, StringMap.get_erase] at hp
      split at hp
      · cases hp
      · exact hp

end Guarantees

/-- In every state that two parties and an unreliable network reach, each queued
message appears at most once with its content, a message shown as delivered was
recorded by the other side, and receipts make no receipts. -/
theorem exchange_exactly_once (codec : Codec) (identity : Side → List UInt8)
    (hcodec : codec.RoundTrips) (hparties : Parties codec identity) (s : Exchange)
    (h : (exchange codec identity).Reachable s) (x : Side) :
    DeliveredOnce codec identity s x ∧ NothingElse codec identity s x ∧
      Truthful codec identity s x ∧ ReceiptsSilent codec (s.book x) := by
  have hinv := reachable_inv hcodec hparties h
  exact ⟨hinv.deliveredOnce x, hinv.nothingElse x, hinv.truthful x,
    receipts_silent codec (s.book x)⟩

/-! ### A run with one message -/

namespace Sample

def identity : Side → List UInt8
  | .a => [1]
  | .b => [2]

def mid : Bytes 32 := Bytes.fill 32 7

def hashOfA : Bytes 32 where
  toList := [75, 245, 18, 47, 52, 69, 84, 197, 59, 222, 46, 187, 140, 210, 183, 227, 209, 96, 10,
      214, 49, 195, 133, 165, 215, 204, 226, 60, 119, 133, 69, 154]
  length_toList := rfl

def hashOfB : Bytes 32 where
  toList := [219, 193, 180, 201, 0, 255, 228, 141, 87, 91, 93, 165, 198, 56, 4, 1, 37, 246, 93, 176,
      254, 62, 36, 73, 75, 118, 234, 152, 100, 87, 217, 134]
  length_toList := rfl

def hashOfMessage : Bytes 32 where
  toList := [79, 83, 249, 61, 143, 100, 11, 131, 83, 103, 104, 96, 162, 119, 93, 245, 53, 29, 247,
      183, 188, 213, 248, 195, 250, 98, 215, 142, 242, 183, 28, 78]
  length_toList := rfl

def hashOfReceipt : Bytes 32 where
  toList := [98, 74, 124, 147, 73, 92, 84, 86, 94, 190, 41, 209, 0, 112, 182, 249, 151, 88, 74, 213,
      244, 103, 128, 139, 251, 35, 96, 177, 37, 19, 166, 131]
  length_toList := rfl

def messageBytes : List UInt8 := 0 :: mid.toList ++ [0, 2, 104, 105]

def receiptBytes : List UInt8 := 1 :: mid.toList ++ hashOfMessage.toList

/-- The hash and the encodings as far as the run needs them. -/
def codec : Codec where
  sha256 bytes :=
    if bytes = identity .a then hashOfA
    else if bytes = identity .b then hashOfB
    else if bytes = messageBytes then hashOfMessage
    else if bytes = receiptBytes then hashOfReceipt
    else Bytes.fill 32 0
  toAllocvec e :=
    if e = .message mid (.text "hi") then .ok messageBytes
    else if e = .receipt mid hashOfMessage then .ok receiptBytes
    else .error "no sample"
  takeFromBytes bytes :=
    if bytes = messageBytes then some (.message mid (.text "hi"), [])
    else if bytes = receiptBytes then some (.receipt mid hashOfMessage, [])
    else none
  encode m := if m.contentType = mime then .ok m.body else .error "no sample"
  decode bytes := some ⟨mime, bytes⟩

theorem roundTrips : codec.RoundTrips where
  envelope e bytes h := by
    simp only [codec] at h ⊢
    split at h
    · cases h
      rename_i he
      rw [if_pos rfl, he]
    · split at h
      · cases h
        rename_i he
        rw [if_neg (by decide), if_pos rfl, he]
      · cases h
  application m bytes h := by
    simp only [codec] at h ⊢
    split at h
    case isTrue hmime =>
      cases h
      rw [← hmime]
    case isFalse => cases h

theorem parties : Parties codec identity where
  distinct := by decide
  collisionFree x i h := by
    by_contra hne
    cases x with
    | a =>
        have hash_a : codec.sha256 (identity .a) = hashOfA := by
          simp [codec]
        rw [hash_a] at h
        simp only [codec, if_neg hne] at h
        split_ifs at h <;> exact absurd h (by decide)
    | b =>
        have hash_b : codec.sha256 (identity .b) = hashOfB := by
          simp [codec, identity]
        rw [hash_b] at h
        simp only [codec, if_neg hne] at h
        split_ifs at h <;> exact absurd h (by decide)

def delivery (x : Side) (body : List UInt8) : ApplicationDelivery :=
  ⟨none, none, identity x, 100, body⟩

/-- `a` and `b` add each other, and a message goes to `b` and its receipt to `a`. -/
def run : List Event :=
  [.op .a (.add "bob" [] (identity .b) (identity .a)),
    .op .b (.add "alice" [] (identity .a) (identity .b)),
    .op .a (.queue (sideKey codec identity .b) (.text "hi") "op-1" mid 100),
    .take .a 100,
    .send .a (hex mid.toList) ⟨sideKey codec identity .b, messageBytes, 0, false, hashOfMessage⟩,
    .op .b (.receive (delivery .a messageBytes) 101),
    .take .b 102,
    .send .b (ackId (sideKey codec identity .a) mid)
      ⟨sideKey codec identity .a, receiptBytes, 0, true, hashOfMessage⟩,
    .op .a (.receive (delivery .b receiptBytes) 103)]

def state : Exchange :=
  (run.foldlM (Exchange.step codec identity) Exchange.start).getD Exchange.start

end Sample

theorem sample_exactly_once :
    DeliveredOnce Sample.codec Sample.identity Sample.state .b ∧
      Truthful Sample.codec Sample.identity Sample.state .a := by
  have h := exchange_exactly_once Sample.codec Sample.identity Sample.roundTrips Sample.parties
    Sample.state (Machine.Reachable.getD_foldlM Exchange.start _ Sample.run)
  exact ⟨(h .b).1, (h .a).2.2.1⟩

end Contacts

end GChat
