import GChat.Archive.Model
import GChat.Foundation.FirstMatch
import GChat.Foundation.Utf8
import GChat.Foundation.Window

/-!
# Applying a protocol event to the archive

`applyArchiveEvent` is the projection of one SDK event into the archive: a
delivery receipt, a channel message, a direct message, or the removal from a
channel. `archiveContainsDelivery` is the check made before a delivery is
acknowledged to the durable inbox. Both look records up by the protocol name
carried in the event.
-/

namespace GChat

namespace Archive

open Foundation

/-- The SDK events the archive reacts to, with the fields it reads. -/
inductive ClientEvent where
  | channelDelivered (channel : String) (messageId : MessageId)
  | channelDirectDelivered (channel : String) (messageId : MessageId)
  | channelMessage (channel : String) (messageId : MessageId) (timestampUnix : ℕ)
      (sender : String) (senderIndex : ℕ) (body : List UInt8)
  | channelDirectMessage (channel : String) (senderMemberId recipientMemberId : MemberId)
      (messageId : MessageId) (timestampUnix : ℕ) (body : List UInt8)
  | channelRemoved (channel : String)
  | channelRosterChanged (channel : String)
  | channelPresenceChanged (channel : String) (memberId : MemberId)
  | eventsLagged (skipped : ℕ)
deriving DecidableEq

/-- The bound on `deliveryReceipts`. -/
def receiptLimit : ℕ := 1024

/-- Add a receipt not yet parked, then drop the oldest beyond the bound. -/
def parkReceipt (receipts : List (ChannelId × MessageId)) (receipt : ChannelId × MessageId) :
    List (ChannelId × MessageId) :=
  park receiptLimit receipts receipt

/-- Mark an own message with the acknowledged identifier as delivered. -/
def promote (messageId : MessageId) (m : Message) : Message :=
  if m.mine && m.id == messageId then { m with delivery := some .delivered } else m

/-- Append a message unless one with its identifier is present. -/
def pushUnseen (messages : List Message) (m : Message) : List Message :=
  if messages.any fun old => old.id == m.id then messages else messages ++ [m]

def shortMember (member : MemberId) : String := hex (member.toList.take 4)

/-- The lookup of an active record by the protocol name. -/
def namesActive (channel : String) (c : ChannelRecord) : Bool :=
  c.active && c.protocolName == channel

/-- The lookup by the protocol name alone, which a retained record also meets. -/
def names (channel : String) (c : ChannelRecord) : Bool := c.protocolName == channel

def applyDelivered (data : ArchiveData) (channel : String) (messageId : MessageId) :
    ArchiveData :=
  match data.channels.find? (namesActive channel) with
  | none => data
  | some found =>
      { data with
        deliveryReceipts := parkReceipt data.deliveryReceipts (found.id, messageId)
        channels := data.channels.map fun c =>
          if c.id == found.id then { c with messages := c.messages.map (promote messageId) }
          else c
        scopedPms := data.scopedPms.map fun p =>
          if p.id.channelId == found.id then
            { p with messages := p.messages.map (promote messageId) }
          else p }

/-- A record with an incoming message; the sender is the member of that index. -/
def ChannelRecord.receive (messageId : MessageId) (timestampUnix : ℕ) (sender : String)
    (senderIndex : ℕ) (body : List UInt8) (record : ChannelRecord) : ChannelRecord :=
  { record with
    messages := pushUnseen record.messages
      { id := messageId
        operationId := none
        delivery := none
        tsUnix := timestampUnix
        senderMemberId :=
          (record.members.find? fun m => m.joinOrder == senderIndex).map (·.id)
        senderName := sender
        mine := false
        text := fromUtf8Lossy body } }

def applyChannelMessage (data : ArchiveData) (channel : String) (messageId : MessageId)
    (timestampUnix : ℕ) (sender : String) (senderIndex : ℕ) (body : List UInt8) :
    ArchiveData :=
  { data with
    channels := data.channels |> modifyFirst (names channel)
      (ChannelRecord.receive messageId timestampUnix sender senderIndex body) }

/-- The name a direct message is shown under. -/
def remoteName (record : ChannelRecord) (remote : MemberId) : String :=
  ((record.members.find? fun m => m.id == remote).map (·.displayName)).getD
    (shortMember remote)

def ScopedPmRecord.create (id : ScopedPmId) (remoteDisplayName : String) : ScopedPmRecord where
  id := id
  remoteDisplayName := remoteDisplayName
  messages := []
  active := true

/-- A private conversation with an incoming message. -/
def ScopedPmRecord.receive (remote : MemberId) (messageId : MessageId) (timestampUnix : ℕ)
    (body : List UInt8) (pm : ScopedPmRecord) : ScopedPmRecord :=
  { pm with
    messages := pushUnseen pm.messages
      { id := messageId
        operationId := none
        delivery := none
        tsUnix := timestampUnix
        senderMemberId := some remote
        senderName := pm.remoteDisplayName
        mine := false
        text := fromUtf8Lossy body } }

/-- The private conversations with one of that identifier among them. -/
def ensurePm (pms : List ScopedPmRecord) (id : ScopedPmId) (remoteDisplayName : String) :
    List ScopedPmRecord :=
  if pms.any fun p => p.id == id then pms
  else pms ++ [ScopedPmRecord.create id remoteDisplayName]

def applyChannelDirectMessage (data : ArchiveData) (channel : String)
    (senderMemberId recipientMemberId : MemberId) (messageId : MessageId)
    (timestampUnix : ℕ) (body : List UInt8) : ArchiveData :=
  match data.channels.find? (names channel) with
  | none => data
  | some record =>
      match record.selfMemberId with
      | none => data
      | some selfId =>
          if recipientMemberId ≠ selfId then data
          else
            let id : ScopedPmId := ⟨record.id, selfId, senderMemberId⟩
            { data with
              scopedPms :=
                ensurePm data.scopedPms id (remoteName record senderMemberId) |>
                  modifyFirst (fun p => p.id == id)
                    (ScopedPmRecord.receive senderMemberId messageId timestampUnix body) }

def applyChannelRemoved (data : ArchiveData) (channel : String) : ArchiveData :=
  match data.channels.find? (namesActive channel) with
  | none => data
  | some removed =>
      { data with
        channels := data.channels |> modifyFirst (namesActive channel) ChannelRecord.deactivate
        scopedPms := data.scopedPms.map fun p =>
          if p.id.channelId == removed.id then p.deactivate else p }

/-- Project one event into the archive. -/
def applyArchiveEvent (data : ArchiveData) : ClientEvent → ArchiveData
  | .channelDelivered channel messageId => applyDelivered data channel messageId
  | .channelDirectDelivered channel messageId => applyDelivered data channel messageId
  | .channelMessage channel messageId timestampUnix sender senderIndex body =>
      applyChannelMessage data channel messageId timestampUnix sender senderIndex body
  | .channelDirectMessage channel sender recipient messageId timestampUnix body =>
      applyChannelDirectMessage data channel sender recipient messageId timestampUnix body
  | .channelRemoved channel => applyChannelRemoved data channel
  | .channelRosterChanged _ => data
  | .channelPresenceChanged _ _ => data
  | .eventsLagged _ => data

/-- The channel named by a delivery of the durable inbox. -/
def ClientEvent.deliveryChannel : ClientEvent → Option String
  | .channelMessage channel .. => some channel
  | .channelDirectMessage channel .. => some channel
  | _ => none

/-- Whether the archive holds the message of a delivery. -/
def archiveContainsDelivery (data : ArchiveData) : ClientEvent → Bool
  | .channelMessage channel messageId _ _ _ _ =>
      data.channels.any fun c =>
        c.protocolName == channel && c.messages.any fun m => m.id == messageId
  | .channelDirectMessage channel sender recipient messageId _ _ =>
      let id := (data.channels.find? (names channel)).map (·.id)
      data.scopedPms.any fun p =>
        some p.id.channelId == id && p.id.remoteMemberId == sender &&
          p.id.selfMemberId == recipient && p.messages.any fun m => m.id == messageId
  | _ => false

/-- A direct message is filed only when the record found by the name declares the
recipient as its own membership. -/
theorem applyChannelDirectMessage_cases (data : ArchiveData) (channel : String)
    (sender recipient : MemberId) (messageId : MessageId) (ts : ℕ) (body : List UInt8) :
    ((∀ record, data.channels.find? (names channel) = some record →
        record.selfMemberId ≠ some recipient) ∧
      applyChannelDirectMessage data channel sender recipient messageId ts body = data) ∨
    ∃ record, data.channels.find? (names channel) = some record ∧
      record.selfMemberId = some recipient ∧
      applyChannelDirectMessage data channel sender recipient messageId ts body =
        { data with
          scopedPms :=
            modifyFirst (fun p => p.id == ⟨record.id, recipient, sender⟩)
              (ScopedPmRecord.receive sender messageId ts body)
              (ensurePm data.scopedPms ⟨record.id, recipient, sender⟩
                (remoteName record sender)) } := by
  unfold applyChannelDirectMessage
  cases hfind : data.channels.find? (names channel) with
  | none => simp
  | some record =>
      cases hself : record.selfMemberId with
      | none => simp [hself]
      | some selfId =>
          by_cases hrecipient : recipient = selfId
          · subst hrecipient
            exact Or.inr ⟨record, rfl, hself, by simp [hself]⟩
          · refine Or.inl ⟨?_, by simp [hself, hrecipient]⟩
            rintro _ ⟨⟩
            simpa [hself] using fun h => hrecipient h.symm

@[simp] theorem ScopedPmRecord.create_id (id : ScopedPmId) (name : String) :
    (ScopedPmRecord.create id name).id = id := rfl

@[simp] theorem ScopedPmRecord.receive_id (remote : MemberId) (messageId : MessageId) (ts : ℕ)
    (body : List UInt8) (p : ScopedPmRecord) : (p.receive remote messageId ts body).id = p.id :=
  rfl

/-! ### Messages -/

theorem promote_id (messageId : MessageId) (m : Message) : (promote messageId m).id = m.id := by
  unfold promote
  split <;> rfl

theorem promote_of_mine {messageId : MessageId} {m : Message} (hmine : m.mine = true)
    (hid : m.id = messageId) : promote messageId m = { m with delivery := some .delivered } := by
  simp [promote, hmine, hid]

theorem map_id_promote (messageId : MessageId) (messages : List Message) :
    (messages.map (promote messageId)).map (·.id) = messages.map (·.id) := by
  rw [List.map_map]
  exact List.map_congr_left fun m _ => promote_id messageId m

theorem any_id_iff {messages : List Message} {messageId : MessageId} :
    (messages.any fun m => m.id == messageId) = true ↔ messageId ∈ messages.map (·.id) := by
  simp

theorem pushUnseen_of_mem {messages : List Message} {m : Message}
    (h : m.id ∈ messages.map (·.id)) : pushUnseen messages m = messages := by
  rw [pushUnseen, if_pos (any_id_iff.mpr h)]

theorem pushUnseen_of_not_mem {messages : List Message} {m : Message}
    (h : m.id ∉ messages.map (·.id)) : pushUnseen messages m = messages ++ [m] := by
  rw [pushUnseen, if_neg fun hany => h (any_id_iff.mp hany)]

theorem mem_ids_pushUnseen (messages : List Message) (m : Message) :
    m.id ∈ (pushUnseen messages m).map (·.id) := by
  by_cases h : m.id ∈ messages.map (·.id)
  · rwa [pushUnseen_of_mem h]
  · simp [pushUnseen_of_not_mem h]

theorem pushUnseen_eq_self_iff {messages : List Message} {m : Message} :
    pushUnseen messages m = messages ↔ m.id ∈ messages.map (·.id) := by
  refine ⟨fun h => ?_, pushUnseen_of_mem⟩
  rw [← h]
  exact mem_ids_pushUnseen messages m

theorem nodup_ids_pushUnseen {messages : List Message} (m : Message)
    (h : (messages.map (·.id)).Nodup) : ((pushUnseen messages m).map (·.id)).Nodup := by
  by_cases hm : m.id ∈ messages.map (·.id)
  · rwa [pushUnseen_of_mem hm]
  · rw [pushUnseen_of_not_mem hm, List.map_append]
    exact List.Nodup.append h (List.nodup_singleton _) (by simpa using hm)

theorem prefix_pushUnseen (messages : List Message) (m : Message) :
    messages <+: pushUnseen messages m := by
  unfold pushUnseen
  split
  · exact List.prefix_rfl
  · exact List.prefix_append _ _

theorem mem_ids_receive (c : ChannelRecord) (messageId : MessageId) (ts : ℕ) (sender : String)
    (senderIndex : ℕ) (body : List UInt8) :
    messageId ∈ (c.receive messageId ts sender senderIndex body).messages.map (·.id) :=
  mem_ids_pushUnseen c.messages _

theorem receive_eq_self_iff {c : ChannelRecord} {messageId : MessageId} {ts : ℕ}
    {sender : String} {senderIndex : ℕ} {body : List UInt8} :
    c.receive messageId ts sender senderIndex body = c ↔
      messageId ∈ c.messages.map (·.id) := by
  constructor
  · intro h
    rw [← congrArg ChannelRecord.messages h]
    exact mem_ids_receive c messageId ts sender senderIndex body
  · intro h
    rw [ChannelRecord.receive, pushUnseen_of_mem h]

end Archive

end GChat
