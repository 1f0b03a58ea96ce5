import GChat.Archive.Run

/-!
# Delivery receipts and sends

The receipt of an own message may arrive before the message is recorded. It is
then parked, and the recording consults the parked receipts; a receipt that
arrives later finds the message and promotes it. In both orders the recorded
message ends delivered, and no later step takes that back.
-/

namespace GChat

namespace Archive

open Foundation

/-- Where a message stands: the record or private conversation, and the position
in it. -/
inductive Place where
  | channel (record message : ℕ)
  | scopedPm (pm message : ℕ)

def messageAt (data : ArchiveData) : Place → Option Message
  | .channel record message => (data.channels[record]?).bind fun c => c.messages[message]?
  | .scopedPm pm message => (data.scopedPms[pm]?).bind fun p => p.messages[message]?

/-- The receipt an event acknowledges, with the channel its name resolves to. -/
def ClientEvent.receipt (data : ArchiveData) : ClientEvent → Option (ChannelId × MessageId)
  | .channelDelivered channel messageId =>
      (data.channels.find? (namesActive channel)).map fun c => (c.id, messageId)
  | .channelDirectDelivered channel messageId =>
      (data.channels.find? (namesActive channel)).map fun c => (c.id, messageId)
  | _ => none

def Op.receipt (data : ArchiveData) : Op → Option (ChannelId × MessageId)
  | .event e => e.receipt data
  | _ => none

/-- The receipts that arrive during a run. -/
def receiptsAlong (data : ArchiveData) : List Op → List (ChannelId × MessageId)
  | [] => []
  | op :: ops => (op.receipt data).toList ++ receiptsAlong (op.apply data) ops

/-- The receipt of a send. -/
def PendingSend.receipt : PendingSend → ChannelId × MessageId
  | .channel id out => (id, out.messageId)
  | .scopedPm id _ out => (id.channelId, out.messageId)

def PendingSend.out : PendingSend → Outgoing
  | .channel _ out => out
  | .scopedPm _ _ out => out

/-- The section in which a send is recorded. -/
def PendingSend.op : PendingSend → Op
  | .channel id out => .recordChannelSend id out
  | .scopedPm id record out => .recordScopedPmSend record id out

/-- Where the message of a send is recorded. -/
def PendingSend.place (data : ArchiveData) : PendingSend → Place
  | .channel id _ =>
      let record := data.channels.findIdx fun c => c.active && c.id == id
      .channel record (((data.channels[record]?).map fun c => c.messages.length).getD 0)
  | .scopedPm id _ _ =>
      let pm := data.scopedPms.findIdx fun p => p.id == id && p.active
      .scopedPm pm (((data.scopedPms[pm]?).map fun p => p.messages.length).getD 0)

/-- The channel of the conversation a place is in. -/
def Place.channelId (data : ArchiveData) : Place → Option ChannelId
  | .channel record _ => (data.channels[record]?).map fun c => c.id
  | .scopedPm pm _ => (data.scopedPms[pm]?).map fun p => p.id.channelId

/-- The message of a send stands at its place, delivered. -/
def PendingSend.DeliveredAt (send : PendingSend) (place : Place) (data : ArchiveData) : Prop :=
  ∃ m, messageAt data place = some m ∧ send.out.IsCopy m ∧ m.delivery = some .delivered

/-! ### Messages stay at their place -/

theorem messageAt_evolves {R : Message → Message → Prop} {data data' : ArchiveData}
    (h : Evolves R data data') {place : Place} {m : Message}
    (hm : messageAt data place = some m) : ∃ m', messageAt data' place = some m' ∧ R m m' := by
  cases place with
  | channel record message =>
      obtain ⟨c, hc, hcm⟩ := Option.bind_eq_some_iff.mp hm
      obtain ⟨c', hc', -, -, hmessages⟩ := h.1 record c hc
      obtain ⟨m', hm', hR⟩ := hmessages message m hcm
      exact ⟨m', Option.bind_eq_some_iff.mpr ⟨c', hc', hm'⟩, hR⟩
  | scopedPm pm message =>
      obtain ⟨p, hp, hpm⟩ := Option.bind_eq_some_iff.mp hm
      obtain ⟨p', hp', -, hmessages⟩ := h.2 pm p hp
      obtain ⟨m', hm', hR⟩ := hmessages message m hpm
      exact ⟨m', Option.bind_eq_some_iff.mpr ⟨p', hp', hm'⟩, hR⟩

theorem channelId_evolves {R : Message → Message → Prop} {data data' : ArchiveData}
    (h : Evolves R data data') {place : Place} {id : ChannelId}
    (hid : place.channelId data = some id) : place.channelId data' = some id := by
  cases place with
  | channel record message =>
      obtain ⟨c, hc, rfl⟩ := Option.map_eq_some_iff.mp hid
      obtain ⟨c', hc', hcid, -⟩ := h.1 record c hc
      exact Option.map_eq_some_iff.mpr ⟨c', hc', hcid⟩
  | scopedPm pm message =>
      obtain ⟨p, hp, rfl⟩ := Option.map_eq_some_iff.mp hid
      obtain ⟨p', hp', hpid, -⟩ := h.2 pm p hp
      exact Option.map_eq_some_iff.mpr ⟨p', hp', congrArg ScopedPmId.channelId hpid⟩

theorem evolves_run (data : ArchiveData) {ops : List Op} (hops : ∀ op ∈ ops, op ≠ .reopen) :
    Evolves Message.Kept data (ops.foldl Op.apply data) := by
  induction ops generalizing data with
  | nil => exact Evolves.refl Message.Kept.refl data
  | cons op ops ih =>
      exact (evolves_apply data (hops op List.mem_cons_self)).trans Message.Kept.trans
        (ih (op.apply data) fun op' hop' => hops op' (List.mem_cons_of_mem op hop'))

theorem isCopy_kept {out : Outgoing} {m m' : Message} (h : out.IsCopy m) (hm : m.Kept m') :
    out.IsCopy m' := by
  rw [← hm.1]
  exact h

/-- Without a reload a delivered message stays delivered. -/
theorem deliveredAt_run {send : PendingSend} {place : Place} {data : ArchiveData}
    (h : send.DeliveredAt place data) {ops : List Op} (hops : ∀ op ∈ ops, op ≠ .reopen) :
    send.DeliveredAt place (ops.foldl Op.apply data) := by
  obtain ⟨m, hm, hcopy, hdelivered⟩ := h
  obtain ⟨m', hm', hkept⟩ := messageAt_evolves (evolves_run data hops) hm
  exact ⟨m', hm', isCopy_kept hcopy hkept, hkept.2 hdelivered⟩

/-! ### Parked receipts -/

theorem deliveryReceipts_applyDelivered (data : ArchiveData) (channel : String)
    (messageId : MessageId) :
    (applyDelivered data channel messageId).deliveryReceipts =
      ((data.channels.find? (namesActive channel)).map fun c => (c.id, messageId)).elim
        data.deliveryReceipts (parkReceipt data.deliveryReceipts) := by
  unfold applyDelivered
  cases data.channels.find? (namesActive channel) with
  | none => rfl
  | some c => rfl

/-- Only a receipt writes the buffer. -/
theorem deliveryReceipts_apply (data : ArchiveData) {op : Op} (hop : op ≠ .reopen) :
    (op.apply data).deliveryReceipts =
      (op.receipt data).elim data.deliveryReceipts (parkReceipt data.deliveryReceipts) := by
  cases op with
  | event e =>
      cases e with
      | channelDelivered channel messageId => exact deliveryReceipts_applyDelivered _ _ _
      | channelDirectDelivered channel messageId => exact deliveryReceipts_applyDelivered _ _ _
      | channelDirectMessage channel sender recipient messageId ts body =>
          rcases applyChannelDirectMessage_cases data channel sender recipient messageId ts body
            with ⟨-, heq⟩ | ⟨record, -, -, heq⟩
          · rw [Op.apply, applyArchiveEvent, heq]
            rfl
          · rw [Op.apply, applyArchiveEvent, heq]
            rfl
      | channelRemoved channel =>
          simp only [Op.apply, applyArchiveEvent, applyChannelRemoved]
          split <;> rfl
      | channelMessage => rfl
      | channelRosterChanged => rfl
      | channelPresenceChanged => rfl
      | eventsLagged => rfl
  | mergeChannel joined roster now =>
      simp only [Op.apply, mergeChannel]
      split <;> rfl
  | rosterChanged channel roster =>
      simp only [Op.apply, rosterChanged]
      split <;> rfl
  | openScopedPm channelId remote =>
      rcases openScopedPm_cases data channelId remote with ⟨⟨message, herr⟩, -⟩ |
        ⟨record, self, member, -, -, -, hok⟩
      · rw [Op.apply, herr]
        rfl
      · rw [Op.apply, hok]
        rfl
  | recordScopedPmSend record id out =>
      rcases recordScopedPmSend_cases data record id out with ⟨-, herr⟩ | ⟨-, hok⟩
      · rw [Op.apply, herr]
        rfl
      · rw [Op.apply, hok]
        rfl
  | dropLost => rfl
  | recordChannelSend => rfl
  | reopen => exact absurd rfl hop

/-- A parked receipt outlives fewer than `receiptLimit` distinct others. -/
theorem parked_run {arrivals : List (ChannelId × MessageId)}
    (hlt : arrivals.dedup.length < receiptLimit) {receipt : ChannelId × MessageId}
    {data : ArchiveData} (h : Parked arrivals receipt data.deliveryReceipts) {ops : List Op}
    (hops : ∀ op ∈ ops, op ≠ .reopen)
    (harrivals : ∀ r ∈ receiptsAlong data ops, r = receipt ∨ r ∈ arrivals) :
    Parked arrivals receipt (ops.foldl Op.apply data).deliveryReceipts := by
  induction ops generalizing data with
  | nil => exact h
  | cons op ops ih =>
      refine ih ?_ (fun op' hop' => hops op' (List.mem_cons_of_mem op hop')) ?_
      · rw [deliveryReceipts_apply data (hops op List.mem_cons_self)]
        cases hr : op.receipt data with
        | none => exact h
        | some r =>
            refine Parked.park hlt h (harrivals r ?_)
            rw [receiptsAlong, hr]
            exact List.mem_cons_self
      · intro r hr
        exact harrivals r (List.mem_append_right _ hr)

/-! ### Recording and promoting -/

/-- A ready send is recorded at its place, delivered if its receipt was parked. -/
theorem messageAt_record {data : ArchiveData} {send : PendingSend} (h : send.Ready data) :
    (send.place data).channelId (send.op.apply data) = some send.receipt.1 ∧
      ∃ m, messageAt (send.op.apply data) (send.place data) = some m ∧ send.out.IsCopy m ∧
        (send.receipt ∈ data.deliveryReceipts → m.delivery = some .delivered) := by
  have hdelivery : ∀ id messageId, (id, messageId) ∈ data.deliveryReceipts →
      recordedDelivery data id messageId = .delivered :=
    fun id messageId hmem => if_pos (List.contains_iff_mem.mpr hmem)
  cases send with
  | channel id out =>
      obtain ⟨c, hc, hactive, hid⟩ := h
      obtain ⟨d, hd, hdid⟩ := exists_find?_of_mem (p := fun c => c.active && c.id == id) hc
        (by simp [hactive, hid])
      rw [Bool.and_eq_true, beq_iff_eq] at hdid
      have hat := (getElem?_findIdx (fun c => c.active && c.id == id) data.channels).trans hd
      have hedit : (recordChannelSend data id out).channels[data.channels.findIdx
          fun c => c.active && c.id == id]? =
            some (d.sent out (recordedDelivery data id out.messageId)) := by
        simp [recordChannelSend, getElem?_modifyFirst, hat]
      refine ⟨?_, _, ?_, isCopy_message out (recordedDelivery data id out.messageId)
        d.selfMemberId (selfName d), fun hmem => congrArg some (hdelivery _ _ hmem)⟩
      · exact (congrArg (Option.map _) hedit).trans (congrArg some hdid.2)
      · simp only [PendingSend.place, hat, Option.map_some, Option.getD_some, messageAt,
          PendingSend.op, Op.apply, hedit, Option.bind_some, ChannelRecord.sent,
          List.getElem?_concat_length]
  | scopedPm id record out =>
      obtain ⟨p, hp, hactive, hid⟩ := h
      obtain ⟨q, hq, hqid⟩ := exists_find?_of_mem (p := fun p => p.id == id && p.active) hp
        (by simp [hactive, hid])
      rw [Bool.and_eq_true, beq_iff_eq] at hqid
      have hat := (getElem?_findIdx (fun p => p.id == id && p.active) data.scopedPms).trans hq
      rcases recordScopedPmSend_cases data record id out with ⟨hnone, -⟩ | ⟨-, hok⟩
      · exact absurd (List.any_eq_false.mp hnone p hp) (by simp [hactive, hid])
      · have hedit : ((PendingSend.scopedPm id record out).op.apply data).scopedPms[
            data.scopedPms.findIdx fun p => p.id == id && p.active]? =
              some (q.sent (out.message (recordedDelivery data id.channelId out.messageId)
                (some id.selfMemberId) (selfName record))) := by
          simp [PendingSend.op, Op.apply, hok, getElem?_modifyFirst, hat]
        refine ⟨?_, _, ?_, isCopy_message out (recordedDelivery data id.channelId out.messageId)
          (some id.selfMemberId) (selfName record),
          fun hmem => congrArg some (hdelivery _ _ hmem)⟩
        · exact (congrArg (Option.map _) hedit).trans
            (congrArg (fun id : ScopedPmId => some id.channelId) hqid.1)
        · simp only [PendingSend.place, hat, Option.map_some, Option.getD_some, messageAt,
            hedit, Option.bind_some, ScopedPmRecord.sent, List.getElem?_concat_length]

/-- A receipt promotes the message it acknowledges. -/
theorem messageAt_applyDelivered {data : ArchiveData} {channel : String}
    {found : ChannelRecord} (hfound : data.channels.find? (namesActive channel) = some found)
    {messageId : MessageId} {place : Place} (hid : place.channelId data = some found.id)
    {m : Message} (hm : messageAt data place = some m) :
    messageAt (applyDelivered data channel messageId) place = some (promote messageId m) := by
  simp only [applyDelivered, hfound]
  cases place with
  | channel record message =>
      obtain ⟨c, hc, hcid⟩ := Option.map_eq_some_iff.mp hid
      simp only [messageAt, hc, Option.bind_some, List.getElem?_map, Option.map_some] at hm ⊢
      rw [if_pos (by simp [hcid])]
      simp [List.getElem?_map, hm]
  | scopedPm pm message =>
      obtain ⟨p, hp, hpid⟩ := Option.map_eq_some_iff.mp hid
      simp only [messageAt, hp, Option.bind_some, List.getElem?_map, Option.map_some] at hm ⊢
      rw [if_pos (by simp [hpid])]
      simp [List.getElem?_map, hm]

theorem deliveredAt_receipt {data : ArchiveData} {send : PendingSend} {e : ClientEvent}
    (he : e.receipt data = some send.receipt) {place : Place}
    (hid : place.channelId data = some send.receipt.1) {m : Message}
    (hm : messageAt data place = some m) (hcopy : send.out.IsCopy m) :
    send.DeliveredAt place (applyArchiveEvent data e) := by
  have hmid : send.receipt.2 = send.out.messageId := by
    cases send <;> rfl
  have hdelivered : ∀ channel messageId,
      ((data.channels.find? (namesActive channel)).map fun c => (c.id, messageId)) =
        some send.receipt →
      send.DeliveredAt place (applyDelivered data channel messageId) := by
    intro channel messageId h
    obtain ⟨found, hfound, hreceipt⟩ := Option.map_eq_some_iff.mp h
    rw [← hreceipt] at hid hmid
    refine ⟨_, messageAt_applyDelivered hfound hid hm, ?_⟩
    rw [promote_of_mine hcopy.2.2.2 (hcopy.1.trans hmid.symm)]
    exact ⟨hcopy, rfl⟩
  cases e with
  | channelDelivered channel messageId => exact hdelivered channel messageId he
  | channelDirectDelivered channel messageId => exact hdelivered channel messageId he
  | channelMessage => cases he
  | channelDirectMessage => cases he
  | channelRemoved => cases he
  | channelRosterChanged => cases he
  | channelPresenceChanged => cases he
  | eventsLagged => cases he

/-! ### Both orders -/

theorem delivered_of_receipt_before {data : ArchiveData} {send : PendingSend} {e : ClientEvent}
    (he : e.receipt data = some send.receipt) (hfirst : send.receipt ∉ data.deliveryReceipts)
    {between later : List Op} (hbetween : ∀ op ∈ between, op ≠ .reopen)
    (hlater : ∀ op ∈ later, op ≠ .reopen)
    (hothers : ((receiptsAlong (applyArchiveEvent data e) between).filter
      (· ≠ send.receipt)).dedup.length < receiptLimit)
    (hready : send.Ready (between.foldl Op.apply (applyArchiveEvent data e))) :
    send.DeliveredAt (send.place (between.foldl Op.apply (applyArchiveEvent data e)))
      (later.foldl Op.apply
        (send.op.apply (between.foldl Op.apply (applyArchiveEvent data e)))) := by
  have hparked : Parked ((receiptsAlong (applyArchiveEvent data e) between).filter
      (· ≠ send.receipt)) send.receipt (applyArchiveEvent data e).deliveryReceipts := by
    have hreceipts : (applyArchiveEvent data e).deliveryReceipts =
        (e.receipt data).elim data.deliveryReceipts (parkReceipt data.deliveryReceipts) :=
      deliveryReceipts_apply data fun h : Op.event e = .reopen => nomatch h
    rw [hreceipts, he]
    exact parked_park_self hothers hfirst
  have hmem := (parked_run hothers hparked hbetween fun r hr => by
    by_cases hrs : r = send.receipt
    · exact Or.inl hrs
    · exact Or.inr (List.mem_filter.mpr ⟨hr, by simpa using hrs⟩)).mem
  obtain ⟨-, m, hm, hcopy, hdelivered⟩ := messageAt_record hready
  exact deliveredAt_run ⟨m, hm, hcopy, hdelivered hmem⟩ hlater

theorem delivered_of_receipt_after {data : ArchiveData} {send : PendingSend} {e : ClientEvent}
    (hready : send.Ready data) {between later : List Op}
    (hbetween : ∀ op ∈ between, op ≠ .reopen) (hlater : ∀ op ∈ later, op ≠ .reopen)
    (he : e.receipt (between.foldl Op.apply (send.op.apply data)) = some send.receipt) :
    send.DeliveredAt (send.place data) (later.foldl Op.apply
      (applyArchiveEvent (between.foldl Op.apply (send.op.apply data)) e)) := by
  obtain ⟨hid, m, hm, hcopy, -⟩ := messageAt_record hready
  have hevolves := evolves_run (send.op.apply data) hbetween
  obtain ⟨m', hm', hkept⟩ := messageAt_evolves hevolves hm
  exact deliveredAt_run
    (deliveredAt_receipt he (channelId_evolves hevolves hid) hm' (isCopy_kept hcopy hkept)) hlater

/-- A send and the receipt of its message do not race. Whether the receipt comes
before the recording, with fewer than `receiptLimit` distinct others after it, or
behind the recording, the message recorded ends delivered and stays so in every
later state. -/
theorem receipt_settles_send (data : ArchiveData) (send : PendingSend) (e : ClientEvent)
    (between later : List Op) (hbetween : ∀ op ∈ between, op ≠ .reopen)
    (hlater : ∀ op ∈ later, op ≠ .reopen) :
    (let acknowledged := applyArchiveEvent data e
     let recording := between.foldl Op.apply acknowledged
     e.receipt data = some send.receipt → send.receipt ∉ data.deliveryReceipts →
     ((receiptsAlong acknowledged between).filter (· ≠ send.receipt)).dedup.length <
       receiptLimit →
     send.Ready recording →
     send.DeliveredAt (send.place recording) (later.foldl Op.apply (send.op.apply recording))) ∧
    (let acknowledging := between.foldl Op.apply (send.op.apply data)
     send.Ready data → e.receipt acknowledging = some send.receipt →
     send.DeliveredAt (send.place data)
       (later.foldl Op.apply (applyArchiveEvent acknowledging e))) :=
  ⟨fun he hfirst hothers hready =>
      delivered_of_receipt_before he hfirst hbetween hlater hothers hready,
    fun hready he => delivered_of_receipt_after hready hbetween hlater he⟩

def roomSend : PendingSend := .channel room.id ⟨2, "hello", none, Bytes.fill 16 9⟩

def roomReceipt : ClientEvent := .channelDelivered "room" (Bytes.fill 16 9)

theorem receipt_settles_roomSend :
    roomSend.DeliveredAt (roomSend.place (applyArchiveEvent joinedOnce roomReceipt))
      (roomSend.op.apply (applyArchiveEvent joinedOnce roomReceipt)) ∧
    roomSend.DeliveredAt (roomSend.place joinedOnce)
      (applyArchiveEvent (roomSend.op.apply joinedOnce) roomReceipt) := by
  have h := receipt_settles_send joinedOnce roomSend roomReceipt [] [] (by simp) (by simp)
  exact ⟨h.1 (by decide) (by decide) (by decide) (by decide), h.2 (by decide) (by decide)⟩

end Archive

end GChat
