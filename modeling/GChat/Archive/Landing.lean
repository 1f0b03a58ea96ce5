import GChat.Archive.Run

/-!
# Where an incoming message lands

A view shows the active record of a channel. `Lands` says that an incoming
message is stored there, or for a direct message in the private conversation of
that record, that the containment check then finds it, and that no retained
record or conversation is written. The projection looks the record up by its
protocol name alone, so a retained record of the same name that stands first
takes the message instead. `LandsWhen` is the exact condition under which this
does no harm.
-/

namespace GChat

namespace Archive

open Foundation

/-- The private conversation holds the message. -/
def PmHolds (data : ArchiveData) (id : ScopedPmId) (messageId : MessageId) : Prop :=
  ∃ p ∈ data.scopedPms, p.id = id ∧ messageId ∈ p.messages.map (·.id)

/-- The private conversation is one of the membership the record declares. -/
def ScopedPmRecord.BelongsTo (p : ScopedPmRecord) (c : ChannelRecord) : Prop :=
  p.id.channelId = c.id ∧ c.selfMemberId = some p.id.selfMemberId

/-- What a view of the active record `shown` expects of a delivery. A direct
message is for the record when it is addressed to its own membership. -/
def Lands (data : ArchiveData) (shown : ChannelRecord) (e : ClientEvent) : Prop :=
  let after := applyArchiveEvent data e
  match e with
  | .channelMessage channel messageId _ _ _ _ =>
      (∃ c, after.channels[data.channels.findIdx (namesActive channel)]? = some c ∧
        messageId ∈ c.messages.map (·.id)) ∧
      archiveContainsDelivery after e = true ∧
      ∀ (i : ℕ) (c : ChannelRecord), data.channels[i]? = some c → c.active = false →
        after.channels[i]? = some c
  | .channelDirectMessage _ sender recipient messageId _ _ =>
      (shown.selfMemberId = some recipient →
        PmHolds after ⟨shown.id, recipient, sender⟩ messageId ∧
        archiveContainsDelivery after e = true) ∧
      ∀ p ∈ after.scopedPms, p ∈ data.scopedPms ∨ p.BelongsTo shown
  | _ => True

/-- The record found by the name agrees with the active one, or everything either
lookup names has the message already. -/
def LandsWhen (data : ArchiveData) (shown : ChannelRecord) : ClientEvent → Prop
  | .channelMessage channel messageId _ _ _ _ =>
      ∀ first, data.channels.find? (names channel) = some first →
        first.active = true ∨
          (messageId ∈ first.messages.map (·.id) ∧ messageId ∈ shown.messages.map (·.id))
  | .channelDirectMessage channel sender recipient messageId _ _ =>
      ∀ first, data.channels.find? (names channel) = some first →
        (first.selfMemberId = some recipient ∨ shown.selfMemberId = some recipient →
          first.id = shown.id ∧ first.selfMemberId = shown.selfMemberId) ∨
        (PmHolds data ⟨first.id, recipient, sender⟩ messageId ∧
          (shown.selfMemberId = some recipient →
            PmHolds data ⟨shown.id, recipient, sender⟩ messageId))
  | _ => True

/-! ### Records -/

theorem find?_names_of_active {l : List ChannelRecord} {channel : String}
    {shown : ChannelRecord} (h : l.find? (namesActive channel) = some shown) :
    ∃ first, l.find? (names channel) = some first := by
  have hp := List.find?_some h
  rw [namesActive, Bool.and_eq_true] at hp
  have hmem := List.mem_of_find?_eq_some h
  exact Option.isSome_iff_exists.mp (List.find?_isSome.mpr ⟨shown, hmem, hp.2⟩)

/-- The two lookups meet when the first record of the name is active. -/
theorem findIdx_names_eq {l : List ChannelRecord} {channel : String} {first : ChannelRecord}
    (h : l.find? (names channel) = some first) (hactive : first.active = true) :
    l.findIdx (names channel) = l.findIdx (namesActive channel) := by
  induction l with
  | nil => rfl
  | cons c l ih =>
      cases hc : names channel c with
      | true =>
          rw [List.find?_cons_of_pos hc, Option.some.injEq] at h
          subst h
          have hc' : namesActive channel c = true := by
            rw [namesActive, hactive, Bool.true_and]
            exact hc
          simp [List.findIdx_cons, hc, hc']
      | false =>
          rw [List.find?_cons_of_neg (by simp [hc])] at h
          have hc' : namesActive channel c = false := by
            rw [namesActive, show (c.protocolName == channel) = false from hc, Bool.and_false]
          simp [List.findIdx_cons, hc, hc', ih h]

theorem findIdx_names_ne {l : List ChannelRecord} {channel : String} {first shown : ChannelRecord}
    (h : l.find? (names channel) = some first) (hactive : first.active = false)
    (hshown : l.find? (namesActive channel) = some shown) :
    l.findIdx (names channel) ≠ l.findIdx (namesActive channel) := by
  intro heq
  rw [← getElem?_findIdx, heq, getElem?_findIdx, hshown, Option.some.injEq] at h
  have hp := List.find?_some hshown
  rw [namesActive, h, hactive] at hp
  cases hp

theorem contains_channelMessage {data : ArchiveData} {channel : String} {first : ChannelRecord}
    (h : data.channels.find? (names channel) = some first) (messageId : MessageId) (ts : ℕ)
    (sender : String) (senderIndex : ℕ) (body : List UInt8) :
    archiveContainsDelivery
      (applyChannelMessage data channel messageId ts sender senderIndex body)
      (.channelMessage channel messageId ts sender senderIndex body) = true := by
  have hget : (modifyFirst (names channel)
      (ChannelRecord.receive messageId ts sender senderIndex body)
      data.channels)[data.channels.findIdx (names channel)]? =
        some (first.receive messageId ts sender senderIndex body) := by
    rw [getElem?_modifyFirst, getElem?_findIdx, h]
    simp
  have hname : names channel first = true := List.find?_some h
  refine List.any_eq_true.mpr ⟨_, List.mem_of_getElem? hget, Bool.and_eq_true_iff.mpr ⟨hname, ?_⟩⟩
  exact any_id_iff.mpr (mem_ids_receive first messageId ts sender senderIndex body)

/-- A channel message lands in the active record exactly when that record is the
first of the name, or when it is a replay both records have seen. -/
theorem lands_channelMessage_iff {data : ArchiveData} {channel : String} {shown : ChannelRecord}
    (hshown : data.channels.find? (namesActive channel) = some shown) (messageId : MessageId)
    (ts : ℕ) (sender : String) (senderIndex : ℕ) (body : List UInt8) :
    Lands data shown (.channelMessage channel messageId ts sender senderIndex body) ↔
      LandsWhen data shown (.channelMessage channel messageId ts sender senderIndex body) := by
  obtain ⟨first, hfirst⟩ := find?_names_of_active hshown
  have hcontains := contains_channelMessage hfirst messageId ts sender senderIndex body
  have hget : ∀ (i : ℕ) (c : ChannelRecord), data.channels[i]? = some c →
      (applyArchiveEvent data
        (.channelMessage channel messageId ts sender senderIndex body)).channels[i]? =
        some (if data.channels.findIdx (names channel) = i then
          c.receive messageId ts sender senderIndex body else c) := by
    intro i c hc
    rw [applyArchiveEvent, applyChannelMessage, getElem?_modifyFirst, hc]
    rfl
  have hshownAt : data.channels[data.channels.findIdx (namesActive channel)]? = some shown :=
    (getElem?_findIdx _ _).trans hshown
  have hfirstAt : data.channels[data.channels.findIdx (names channel)]? = some first :=
    (getElem?_findIdx _ _).trans hfirst
  simp only [Lands, LandsWhen, hfirst, Option.some.injEq, forall_eq']
  cases hactive : first.active with
  | true =>
      refine iff_of_true ⟨?_, hcontains, ?_⟩ (Or.inl rfl)
      · refine ⟨_, hget _ _ hshownAt, ?_⟩
        rw [if_pos (findIdx_names_eq hfirst hactive)]
        exact mem_ids_pushUnseen shown.messages _
      · intro i c hc hinactive
        rw [hget i c hc, if_neg]
        rintro rfl
        rw [hfirstAt, Option.some.injEq] at hc
        rw [← hc, hactive] at hinactive
        cases hinactive
  | false =>
      have hne := findIdx_names_ne hfirst hactive hshown
      simp only [Bool.false_eq_true, false_or]
      constructor
      · rintro ⟨⟨c, hc, hmem⟩, -, hretained⟩
        rw [hget _ _ hshownAt, if_neg hne, Option.some.injEq] at hc
        have hkept := hretained _ first hfirstAt hactive
        rw [hget _ _ hfirstAt, if_pos rfl, Option.some.injEq, receive_eq_self_iff] at hkept
        exact ⟨hkept, hc ▸ hmem⟩
      · rintro ⟨hseen, hshownSeen⟩
        refine ⟨⟨shown, ?_, hshownSeen⟩, hcontains, ?_⟩
        · rw [hget _ _ hshownAt, if_neg hne]
        · intro i c hc _
          rw [hget i c hc]
          split
          · rename_i hi
            rw [← hi, hfirstAt, Option.some.injEq] at hc
            rw [← hc, receive_eq_self_iff.mpr hseen]
          · rfl

/-! ### Private conversations -/

section Filing

variable {data : ArchiveData} (hids : (data.scopedPms.map (·.id)).Nodup)
include hids

/-- The conversations after a direct message is filed under `id`: the message is
received by the one of that identifier, which is created if need be. -/
theorem mem_filed_iff (id : ScopedPmId) (name : String)
    (sender : MemberId) (messageId : MessageId) (ts : ℕ) (body : List UInt8) :
    ∃ pm : ScopedPmRecord, pm.id = id ∧
      (pm ∈ data.scopedPms ∨ pm = ScopedPmRecord.create id name ∧
        id ∉ data.scopedPms.map (·.id)) ∧
      ∀ p, p ∈ modifyFirst (fun p => p.id == id)
          (ScopedPmRecord.receive sender messageId ts body)
          (ensurePm data.scopedPms id name) ↔
        (p ∈ data.scopedPms ∧ p.id ≠ id) ∨ p = pm.receive sender messageId ts body := by
  by_cases hid : id ∈ data.scopedPms.map (·.id)
  · obtain ⟨pm, hpm, rfl⟩ := List.mem_map.mp hid
    refine ⟨pm, rfl, Or.inl hpm, fun p => ?_⟩
    rw [ensurePm_of_mem hid]
    exact mem_modifyFirst_key_iff hids hpm
  · refine ⟨ScopedPmRecord.create id name, rfl, Or.inr ⟨rfl, hid⟩, fun p => ?_⟩
    have hnodup := nodup_ids_ensurePm hids id name
    rw [ensurePm_of_not_mem hid] at hnodup ⊢
    refine (mem_modifyFirst_key_iff hnodup (x := ScopedPmRecord.create id name)
      (by simp)).trans (or_congr_left ?_)
    rw [List.mem_append, List.mem_singleton]
    constructor
    · rintro ⟨hp | rfl, hne⟩
      · exact ⟨hp, hne⟩
      · exact absurd rfl hne
    · rintro ⟨hp, hne⟩
      exact ⟨Or.inl hp, hne⟩

theorem pmHolds_filed_iff (id : ScopedPmId) (name : String) (sender : MemberId)
    (messageId : MessageId) (ts : ℕ) (body : List UInt8) (v : ScopedPmId) :
    PmHolds { data with
      scopedPms := modifyFirst (fun p => p.id == id)
        (ScopedPmRecord.receive sender messageId ts body)
        (ensurePm data.scopedPms id name) } v messageId ↔ v = id ∨ PmHolds data v messageId := by
  obtain ⟨pm, hpmid, -, hmem⟩ := mem_filed_iff hids id name sender messageId ts body
  constructor
  · rintro ⟨p, hp, rfl, hm⟩
    rcases (hmem p).mp hp with ⟨hp, -⟩ | rfl
    · exact Or.inr ⟨p, hp, rfl, hm⟩
    · exact Or.inl hpmid
  · intro hv
    by_cases hvid : v = id
    · exact ⟨_, (hmem _).mpr (Or.inr rfl), hpmid.trans hvid.symm, mem_ids_pushUnseen pm.messages _⟩
    · obtain ⟨p, hp, rfl, hm⟩ := hv.resolve_left hvid
      exact ⟨p, (hmem p).mpr (Or.inl ⟨hp, hvid⟩), rfl, hm⟩

/-- Only the conversation filed under is written, unless it holds the message. -/
theorem filed_belongs_iff (id : ScopedPmId) (name : String) (sender : MemberId)
    (messageId : MessageId) (ts : ℕ) (body : List UInt8) (shown : ChannelRecord) :
    (∀ p ∈ modifyFirst (fun p => p.id == id) (ScopedPmRecord.receive sender messageId ts body)
        (ensurePm data.scopedPms id name), p ∈ data.scopedPms ∨ p.BelongsTo shown) ↔
      (id.channelId = shown.id ∧ shown.selfMemberId = some id.selfMemberId) ∨
        PmHolds data id messageId := by
  obtain ⟨pm, rfl, horigin, hmem⟩ := mem_filed_iff hids id name sender messageId ts body
  constructor
  · intro hall
    rcases hall _ ((hmem _).mpr (Or.inr rfl)) with hold | hbelongs
    · exact Or.inr ⟨_, hold, rfl, mem_ids_pushUnseen pm.messages _⟩
    · exact Or.inl hbelongs
  · rintro hcond p hp
    rcases (hmem p).mp hp with ⟨hp, -⟩ | rfl
    · exact Or.inl hp
    · rcases hcond with hbelongs | ⟨q, hq, hqid, hm⟩
      · exact Or.inr hbelongs
      · have hpm : pm ∈ data.scopedPms := by
          rcases horigin with hpm | ⟨-, hnew⟩
          · exact hpm
          · exact absurd (List.mem_map.mpr ⟨q, hq, hqid⟩) hnew
        rw [List.inj_on_of_nodup_map hids hq hpm hqid] at hm
        rw [ScopedPmRecord.receive, pushUnseen_of_mem hm]
        exact Or.inl hpm

end Filing

theorem contains_direct_iff (data : ArchiveData) (channel : String) (sender recipient : MemberId)
    (messageId : MessageId) (ts : ℕ) (body : List UInt8) :
    archiveContainsDelivery data
      (.channelDirectMessage channel sender recipient messageId ts body) = true ↔
      ∃ first, data.channels.find? (names channel) = some first ∧
        PmHolds data ⟨first.id, recipient, sender⟩ messageId := by
  simp only [archiveContainsDelivery, List.any_eq_true, Bool.and_eq_true, beq_iff_eq]
  constructor
  · rintro ⟨p, hp, ⟨⟨hchannel, hremote⟩, hself⟩, hm⟩
    obtain ⟨first, hfirst, hid⟩ := Option.map_eq_some_iff.mp hchannel.symm
    exact ⟨first, hfirst, p, hp, by rw [hid, ← hremote, ← hself], List.mem_map.mpr hm⟩
  · rintro ⟨first, hfirst, p, hp, hid, hm⟩
    refine ⟨p, hp, ⟨⟨?_, ?_⟩, ?_⟩, List.mem_map.mp hm⟩
    · rw [hfirst, hid]
      rfl
    · rw [hid]
    · rw [hid]

theorem lands_channelDirectMessage_iff {data : ArchiveData}
    (hids : (data.scopedPms.map (·.id)).Nodup) {channel : String} {shown : ChannelRecord}
    (hshown : data.channels.find? (namesActive channel) = some shown)
    (sender recipient : MemberId) (messageId : MessageId) (ts : ℕ) (body : List UInt8) :
    Lands data shown (.channelDirectMessage channel sender recipient messageId ts body) ↔
      LandsWhen data shown
        (.channelDirectMessage channel sender recipient messageId ts body) := by
  obtain ⟨first, hfirst⟩ := find?_names_of_active hshown
  simp only [Lands, LandsWhen, contains_direct_iff, applyArchiveEvent, hfirst,
    Option.some.injEq, forall_eq']
  rcases applyChannelDirectMessage_cases data channel sender recipient messageId ts body with
    ⟨hno, heq⟩ | ⟨record, hrecord, hself, heq⟩
  · -- not addressed to the membership of the first record: nothing is written
    have hfirstSelf := hno first hfirst
    rw [heq, hfirst]
    simp only [Option.some.injEq, exists_eq_left']
    by_cases hs : shown.selfMemberId = some recipient
    · have hdisagree : first.selfMemberId ≠ shown.selfMemberId := hs ▸ hfirstSelf
      simp only [hs, forall_const, or_true, and_comm (b := first.selfMemberId = _)]
      tauto
    · tauto
  · rw [hfirst, Option.some.injEq] at hrecord
    subst hrecord
    have hholds := pmHolds_filed_iff hids ⟨first.id, recipient, sender⟩
      (remoteName first sender) sender messageId ts body
    have hbelongs := filed_belongs_iff hids ⟨first.id, recipient, sender⟩
      (remoteName first sender) sender messageId ts body shown
    have hsame : (⟨shown.id, recipient, sender⟩ : ScopedPmId) = ⟨first.id, recipient, sender⟩ ↔
        first.id = shown.id := by
      rw [ScopedPmId.mk.injEq]
      tauto
    rw [heq, hfirst]
    simp only [Option.some.injEq, exists_eq_left', hholds, hbelongs, hself, true_or, and_true,
      forall_const, hsame]
    by_cases hs : shown.selfMemberId = some recipient
    · simp only [hs, forall_const, and_true]
      tauto
    · have hs' : some recipient ≠ shown.selfMemberId := fun h => hs h.symm
      tauto

/-- In every reachable archive, a delivery for a channel with an active record lands
in that record exactly under `LandsWhen`. -/
theorem lands_iff {daemonSafetyNumber : String} {data : ArchiveData}
    (hdata : (archiveMachine daemonSafetyNumber).Reachable data) {e : ClientEvent}
    {channel : String} (he : e.deliveryChannel = some channel) {shown : ChannelRecord}
    (hshown : data.channels.find? (namesActive channel) = some shown) :
    Lands data shown e ↔ LandsWhen data shown e := by
  cases e with
  | channelMessage name messageId ts sender senderIndex body =>
      cases he
      exact lands_channelMessage_iff hshown messageId ts sender senderIndex body
  | channelDirectMessage name sender recipient messageId ts body =>
      cases he
      exact lands_channelDirectMessage_iff (nodup_pm_ids_of_reachable hdata) hshown sender
        recipient messageId ts body
  | channelDelivered => cases he
  | channelDirectDelivered => cases he
  | channelRemoved => cases he
  | channelRosterChanged => cases he
  | channelPresenceChanged => cases he
  | eventsLagged => cases he

/-- The archive of a profile that left the room and joined it again. -/
def rejoined : ArchiveData :=
  reconcileChannels (reconcileChannels joinedOnce [] 2)
    [(room, ownRoster (Bytes.fill 32 1))] 3

def greeting : ClientEvent := .channelMessage "room" (Bytes.fill 16 5) 4 "peer" 1 [104, 105]

theorem lands_joinedOnce :
    Lands joinedOnce (ChannelRecord.create room (some (Bytes.fill 32 1))
      ((ownRoster (Bytes.fill 32 1)).map RosterMember.record) 1) greeting := by
  refine (lands_iff reachable_joinedOnce rfl (by decide)).mpr ?_
  intro first hfirst
  refine Or.inl ?_
  have hfirst' : joinedOnce.channels.find? (names "room") = some (ChannelRecord.create room
    (some (Bytes.fill 32 1)) ((ownRoster (Bytes.fill 32 1)).map RosterMember.record) 1) := by
      decide
  rw [hfirst', Option.some.injEq] at hfirst
  rw [← hfirst]
  rfl

/-- After leaving and joining again, a message is stored in the record that was
left, and the active one stays without it. -/
theorem rejoined_not_lands :
    ¬ ∀ (data : ArchiveData) (e : ClientEvent) (channel : String) (shown : ChannelRecord),
      (archiveMachine "").Reachable data → e.deliveryChannel = some channel →
      data.channels.find? (namesActive channel) = some shown → Lands data shown e := by
  intro h
  have hreach : (archiveMachine "").Reachable rejoined :=
    reachable_reconcileChannels (reachable_reconcileChannels reachable_joinedOnce _ _) _ _
  obtain ⟨⟨c, hc, hm⟩, -⟩ := h rejoined greeting "room" _ hreach rfl
    (show _ = some (ChannelRecord.create room (some (Bytes.fill 32 1))
      ((ownRoster (Bytes.fill 32 1)).map RosterMember.record) 3) by decide)
  have hempty : ((applyArchiveEvent rejoined greeting).channels[rejoined.channels.findIdx
      (namesActive "room")]?).map (·.messages) = some [] := by decide
  rw [hc, Option.map_some, Option.some.injEq] at hempty
  rw [hempty] at hm
  cases hm

end Archive

end GChat
