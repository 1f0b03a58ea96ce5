import GChat.Api.Message
import GChat.Foundation.Bytes
import Mathlib.Data.List.Nodup

/-!
# The chat archive

The encrypted client archive holds the channel records and the channel-scoped
private conversations of one profile. A record of a channel that was left is
retained: it becomes inactive and keeps its messages, and joining again adds a
new record. A view names a conversation by a key, computed from the record by
`recordKey` or from the scoped identifier by `queryKey`.

`recordKey` is injective up to `recordIdentity`, the part of a record it
renders, and the keys of records and of scoped conversations never meet.
-/

namespace GChat

namespace Archive

open Foundation

abbrev ChannelId := Bytes 32

abbrev MemberId := Bytes 32

abbrev MessageId := Bytes 16

structure ScopedPmId where
  channelId : ChannelId
  selfMemberId : MemberId
  remoteMemberId : MemberId
deriving DecidableEq

abbrev Delivery := Api.Delivery

inductive ChannelVisibility where
  | pub
  | priv
deriving DecidableEq

inductive ChannelRole where
  | owner
  | member
deriving DecidableEq

/-- A retained message. `operationId` and `delivery` are not part of the stored
form of the archive. -/
structure Message where
  id : MessageId
  operationId : Option String
  delivery : Option Delivery
  tsUnix : ℕ
  senderMemberId : Option MemberId
  senderName : String
  mine : Bool
  text : String
deriving DecidableEq

structure MemberRecord where
  id : MemberId
  displayName : String
  joinOrder : ℕ
  joinedAtUnix : Option ℕ
  isSelf : Bool
deriving DecidableEq

structure ChannelRecord where
  id : ChannelId
  protocolName : String
  title : String
  visibility : ChannelVisibility
  role : ChannelRole
  joinedAtUnix : ℕ
  active : Bool
  selfMemberId : Option MemberId
  members : List MemberRecord
  messages : List Message
deriving DecidableEq

structure ScopedPmRecord where
  id : ScopedPmId
  remoteDisplayName : String
  messages : List Message
  active : Bool
deriving DecidableEq

def ChannelRecord.deactivate (c : ChannelRecord) : ChannelRecord := { c with active := false }

def ScopedPmRecord.deactivate (p : ScopedPmRecord) : ScopedPmRecord := { p with active := false }

/-- The archive. `deliveryReceipts` is the bounded buffer of acknowledgements
that arrived before the send call returned; it is never stored. -/
structure ArchiveData where
  deliveryReceipts : List (ChannelId × MessageId)
  daemonSafetyNumber : String
  channels : List ChannelRecord
  scopedPms : List ScopedPmRecord
deriving DecidableEq

/-- The archive of a newly created profile. -/
def ArchiveData.create (daemonSafetyNumber : String) : ArchiveData where
  deliveryReceipts := []
  daemonSafetyNumber := daemonSafetyNumber
  channels := []
  scopedPms := []

def Message.stored (m : Message) : Message :=
  { m with operationId := none, delivery := none }

/-- The archive as a later open reads it back: the fields that are skipped by
serialization hold their defaults. -/
def ArchiveData.stored (data : ArchiveData) : ArchiveData :=
  { data with
    deliveryReceipts := []
    channels := data.channels.map fun c => { c with messages := c.messages.map Message.stored }
    scopedPms := data.scopedPms.map fun p =>
      { p with messages := p.messages.map Message.stored } }

def channelKey (id : ChannelId) : String := "channel/" ++ hex id.toList

def recordKey (channel : ChannelRecord) : String :=
  if channel.active then channelKey channel.id
  else
    "archive/" ++ hex channel.id.toList ++ "/" ++
      ((channel.selfMemberId.map fun id => hex id.toList).getD "") ++ "/" ++
      toString channel.joinedAtUnix

def queryKey (id : ScopedPmId) : String :=
  "query/" ++ hex id.channelId.toList ++ "/" ++ hex id.selfMemberId.toList ++ "/" ++
    hex id.remoteMemberId.toList

/-- The part of a record that its key renders. -/
inductive RecordIdentity where
  | live (id : ChannelId)
  | retained (id : ChannelId) (selfMemberId : Option MemberId) (joinedAtUnix : ℕ)
deriving DecidableEq

def recordIdentity (channel : ChannelRecord) : RecordIdentity :=
  if channel.active then .live channel.id
  else .retained channel.id channel.selfMemberId channel.joinedAtUnix

theorem recordIdentity_of_active {c : ChannelRecord} (h : c.active = true) :
    recordIdentity c = .live c.id := by
  simp [recordIdentity, h]

theorem recordIdentity_of_inactive {c : ChannelRecord} (h : c.active = false) :
    recordIdentity c = .retained c.id c.selfMemberId c.joinedAtUnix := by
  simp [recordIdentity, h]

/-- The optional member segment of a retained key. -/
def selfSegment (self : Option MemberId) : List Char :=
  (self.map fun id => hexChars id.toList).getD []

/-- The key a record identity is rendered to, as characters. -/
def RecordIdentity.keyChars : RecordIdentity → List Char
  | .live id => "channel/".toList ++ hexChars id.toList
  | .retained id self joined =>
      "archive/".toList ++ (hexChars id.toList ++ '/' ::
        (selfSegment self ++ '/' :: Nat.toDigits 10 joined))

theorem keyChars_live (id : ChannelId) :
    (RecordIdentity.live id).keyChars = "channel/".toList ++ hexChars id.toList := rfl

theorem keyChars_retained (id : ChannelId) (self : Option MemberId) (joined : ℕ) :
    (RecordIdentity.retained id self joined).keyChars =
      "archive/".toList ++ (hexChars id.toList ++ '/' ::
        (selfSegment self ++ '/' :: Nat.toDigits 10 joined)) := rfl

theorem toList_channelKey (id : ChannelId) :
    (channelKey id).toList = "channel/".toList ++ hexChars id.toList := by
  rw [channelKey, String.toList_append, toList_hex]

theorem toList_slash : "/".toList = ['/'] := by decide

theorem recordKey_of_active {c : ChannelRecord} (h : c.active = true) :
    recordKey c = channelKey c.id := if_pos h

theorem recordKey_of_inactive {c : ChannelRecord} (h : ¬ c.active = true) :
    recordKey c = "archive/" ++ hex c.id.toList ++ "/" ++
      ((c.selfMemberId.map fun id => hex id.toList).getD "") ++ "/" ++
      toString c.joinedAtUnix := if_neg h

theorem toList_selfSegment (self : Option MemberId) :
    ((self.map fun id => hex id.toList).getD "").toList = selfSegment self := by
  cases self with
  | none => rfl
  | some id => exact toList_hex id.toList

theorem toList_recordKey (c : ChannelRecord) :
    (recordKey c).toList = (recordIdentity c).keyChars := by
  by_cases h : c.active = true
  · rw [recordKey_of_active h, recordIdentity_of_active h, keyChars_live]
    exact toList_channelKey c.id
  · rw [recordKey_of_inactive h, recordIdentity_of_inactive (Bool.eq_false_iff.mpr h),
      keyChars_retained]
    simp only [String.toList_append, toList_hex, toList_slash, toList_selfSegment,
      Nat.toString_eq_ofList_toDigits, String.toList_ofList, List.append_assoc,
      List.cons_append, List.nil_append]

theorem bytes_eq_of_hexChars {n : ℕ} {a b : Bytes n}
    (h : hexChars a.toList = hexChars b.toList) : a = b :=
  Bytes.toList_injective (hexChars_injective h)

theorem toDigits_injective {m n : ℕ} (h : Nat.toDigits 10 m = Nat.toDigits 10 n) : m = n := by
  have hm := Nat.ofDigitChars_ten_toDigits (n := m)
  rw [h, Nat.ofDigitChars_ten_toDigits] at hm
  exact hm.symm

/-- The optional member segment is empty exactly when there is no member. -/
theorem selfSegment_injective {a b : Option MemberId}
    (h : selfSegment a = selfSegment b) : a = b := by
  have hne : ∀ id : MemberId, hexChars id.toList ≠ [] := by
    intro id hnil
    have hlen := length_hexChars id.toList
    rw [hnil, id.length_toList] at hlen
    simp at hlen
  cases a with
  | none =>
      cases b with
      | none => rfl
      | some b => exact absurd h.symm (hne b)
  | some a =>
      cases b with
      | none => exact absurd h (hne a)
      | some b => rw [bytes_eq_of_hexChars h]

theorem slash_not_mem_selfSegment (a : Option MemberId) : '/' ∉ selfSegment a := by
  cases a with
  | none => simp [selfSegment]
  | some a => exact slash_not_mem_hexChars a.toList

/-- A path segment without a separator is determined by the path. -/
theorem segment_injective {xs ys xs' ys' : List Char} (hxs : '/' ∉ xs) (hys : '/' ∉ ys)
    (h : xs ++ '/' :: xs' = ys ++ '/' :: ys') : xs = ys ∧ xs' = ys' := by
  induction xs generalizing ys with
  | nil =>
      cases ys with
      | nil => exact ⟨rfl, (List.cons.inj h).2⟩
      | cons y ys => exact absurd (List.mem_cons.mpr (Or.inl (List.cons.inj h).1)) hys
  | cons x xs ih =>
      cases ys with
      | nil => exact absurd (List.mem_cons.mpr (Or.inl (List.cons.inj h).1.symm)) hxs
      | cons y ys =>
          obtain ⟨hxy, htail⟩ := List.cons.inj h
          obtain ⟨hxys, hrest⟩ := ih (fun hx => hxs (List.mem_cons_of_mem x hx))
            (fun hy => hys (List.mem_cons_of_mem y hy)) htail
          exact ⟨by rw [hxy, hxys], hrest⟩

theorem keyChars_injective : Function.Injective RecordIdentity.keyChars := by
  intro x y h
  cases x with
  | live a =>
      cases y with
      | live b => rw [bytes_eq_of_hexChars (List.append_cancel_left h)]
      | retained b self joined => exact absurd (List.cons.inj h).1 (by decide)
  | retained a self joined =>
      cases y with
      | live b => exact absurd (List.cons.inj h).1 (by decide)
      | retained b self' joined' =>
          obtain ⟨hid, hrest⟩ := segment_injective (slash_not_mem_hexChars _)
            (slash_not_mem_hexChars _) (List.append_cancel_left h)
          obtain ⟨hself, hjoined⟩ := segment_injective (slash_not_mem_selfSegment _)
            (slash_not_mem_selfSegment _) hrest
          rw [bytes_eq_of_hexChars hid, selfSegment_injective hself, toDigits_injective hjoined]

/-- Two records have the same key exactly when they have the same identity. -/
theorem recordKey_eq_iff (c d : ChannelRecord) :
    recordKey c = recordKey d ↔ recordIdentity c = recordIdentity d := by
  constructor
  · intro h
    have hchars := congrArg String.toList h
    rw [toList_recordKey, toList_recordKey] at hchars
    exact keyChars_injective hchars
  · intro h
    apply String.toList_injective
    rw [toList_recordKey, toList_recordKey, h]

theorem toList_queryKey (id : ScopedPmId) :
    (queryKey id).toList = "query/".toList ++ (hexChars id.channelId.toList ++ '/' ::
      (hexChars id.selfMemberId.toList ++ '/' :: hexChars id.remoteMemberId.toList)) := by
  simp only [queryKey, String.toList_append, toList_hex, toList_slash, List.append_assoc,
    List.cons_append, List.nil_append]

theorem queryKey_injective : Function.Injective queryKey := by
  intro a b h
  have hchars := congrArg String.toList h
  rw [toList_queryKey, toList_queryKey] at hchars
  obtain ⟨hc, hrest⟩ := segment_injective (slash_not_mem_hexChars _)
    (slash_not_mem_hexChars _) (List.append_cancel_left hchars)
  obtain ⟨hs, hr⟩ := segment_injective (slash_not_mem_hexChars _)
    (slash_not_mem_hexChars _) hrest
  cases a
  cases b
  rw [ScopedPmId.mk.injEq]
  exact ⟨bytes_eq_of_hexChars hc, bytes_eq_of_hexChars hs, bytes_eq_of_hexChars hr⟩

theorem queryKey_ne_recordKey (id : ScopedPmId) (c : ChannelRecord) :
    queryKey id ≠ recordKey c := by
  intro h
  have hchars := congrArg String.toList h
  rw [toList_recordKey, toList_queryKey] at hchars
  cases hid : recordIdentity c with
  | live a =>
      rw [hid] at hchars
      exact absurd (List.cons.inj hchars).1 (by decide)
  | retained a self joined =>
      rw [hid] at hchars
      exact absurd (List.cons.inj hchars).1 (by decide)

end Archive

end GChat
