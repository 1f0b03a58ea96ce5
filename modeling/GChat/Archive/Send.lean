import GChat.Archive.Event

/-!
# Opening a conversation and sending

A send reads the active record of its channel, awaits the SDK, and then records
the local copy. The two halves are separate sections: `channelFor` is the
lookup before the call, `recordChannelSend` and `recordScopedPmSend` are what
happens once the SDK has accepted the message and returned its identifier.
-/

namespace GChat

namespace Archive

open Foundation

/-- The active record of a channel. -/
def channel (data : ArchiveData) (id : ChannelId) : Option ChannelRecord :=
  data.channels.find? fun c => c.active && c.id == id

/-- The lookup a send makes before it calls the SDK. -/
def channelFor (data : ArchiveData) (id : ChannelId) : Except String ChannelRecord :=
  match channel data id with
  | none => .error "channel is not active"
  | some record => .ok record

/-- The key of a private conversation with a present member, creating its record
when there is none. -/
def openScopedPm (data : ArchiveData) (channelId : ChannelId) (remote : MemberId) :
    Except String (ScopedPmId × ArchiveData) := do
  let record ← channelFor data channelId
  match record.selfMemberId with
  | none => .error "channel roster has no self member"
  | some selfMemberId =>
      match record.members.find? fun m => m.id == remote && !m.isSelf with
      | none => .error "member is no longer in channel"
      | some member =>
          let id : ScopedPmId := ⟨channelId, selfMemberId, remote⟩
          .ok (id, { data with scopedPms := ensurePm data.scopedPms id member.displayName })

/-- The name own messages are shown under. -/
def selfName (record : ChannelRecord) : String :=
  ((record.members.find? fun m => m.isSelf).map (·.displayName)).getD "you"

/-- The delivery state of an own message when it is recorded: its receipt may
have arrived first. -/
def recordedDelivery (data : ArchiveData) (id : ChannelId) (messageId : MessageId) : Delivery :=
  if data.deliveryReceipts.contains (id, messageId) then .delivered else .localAccepted

/-- What a send carries from its start to the recording of its local copy. -/
structure Outgoing where
  started : ℕ
  text : String
  operation : Option String
  messageId : MessageId
deriving DecidableEq

def Outgoing.message (out : Outgoing) (delivery : Delivery) (senderMemberId : Option MemberId)
    (senderName : String) : Message where
  id := out.messageId
  operationId := out.operation
  delivery := some delivery
  tsUnix := out.started
  senderMemberId := senderMemberId
  senderName := senderName
  mine := true
  text := out.text

/-- A record with an own message, sent under the name its members hold now. -/
def ChannelRecord.sent (out : Outgoing) (delivery : Delivery) (c : ChannelRecord) :
    ChannelRecord :=
  { c with messages := c.messages ++ [out.message delivery c.selfMemberId (selfName c)] }

def ScopedPmRecord.sent (m : Message) (p : ScopedPmRecord) : ScopedPmRecord :=
  { p with messages := p.messages ++ [m] }

/-- The message is recorded in the active record of its channel, if any. -/
def recordChannelSend (data : ArchiveData) (id : ChannelId) (out : Outgoing) : ArchiveData :=
  let delivery := recordedDelivery data id out.messageId
  { data with
    channels := data.channels |>
      modifyFirst (fun c => c.active && c.id == id) (ChannelRecord.sent out delivery) }

/-- `record` is the channel record read before the SDK was called. -/
def recordScopedPmSend (data : ArchiveData) (record : ChannelRecord) (id : ScopedPmId)
    (out : Outgoing) : Except String ArchiveData :=
  let delivery := recordedDelivery data id.channelId out.messageId
  if data.scopedPms.any fun p => p.id == id && p.active then
    .ok { data with
      scopedPms := data.scopedPms |> modifyFirst (fun p => p.id == id && p.active)
        (ScopedPmRecord.sent (out.message delivery (some id.selfMemberId) (selfName record))) }
  else .error "scoped PM is not active"

/-- A send the SDK has accepted, before its local copy is recorded. -/
inductive PendingSend where
  | channel (id : ChannelId) (out : Outgoing)
  | scopedPm (id : ScopedPmId) (record : ChannelRecord) (out : Outgoing)

/-- The recording of an accepted send. -/
def PendingSend.record (data : ArchiveData) : PendingSend → Except String ArchiveData
  | .channel id out => .ok (recordChannelSend data id out)
  | .scopedPm id record out => recordScopedPmSend data record id out

/-- The conversation a send is recorded in is active. -/
def PendingSend.Ready (data : ArchiveData) : PendingSend → Prop
  | .channel id _ => ∃ c ∈ data.channels, c.active = true ∧ c.id = id
  | .scopedPm id _ _ => ∃ p ∈ data.scopedPms, p.active = true ∧ p.id = id

instance (data : ArchiveData) (send : PendingSend) : Decidable (send.Ready data) :=
  match send with
  | .channel id _ =>
      inferInstanceAs (Decidable (∃ c ∈ data.channels, c.active = true ∧ c.id = id))
  | .scopedPm id _ _ =>
      inferInstanceAs (Decidable (∃ p ∈ data.scopedPms, p.active = true ∧ p.id = id))

/-- The local copy of a sent message. -/
def Outgoing.IsCopy (out : Outgoing) (m : Message) : Prop :=
  m.id = out.messageId ∧ m.text = out.text ∧ m.tsUnix = out.started ∧ m.mine = true

theorem isCopy_message (out : Outgoing) (delivery : Delivery) (sender : Option MemberId)
    (name : String) : out.IsCopy (out.message delivery sender name) :=
  ⟨rfl, rfl, rfl, rfl⟩

theorem recordScopedPmSend_cases (data : ArchiveData) (record : ChannelRecord)
    (id : ScopedPmId) (out : Outgoing) :
    ((data.scopedPms.any fun p => p.id == id && p.active) = false ∧
      recordScopedPmSend data record id out = .error "scoped PM is not active") ∨
    ((data.scopedPms.any fun p => p.id == id && p.active) = true ∧
      recordScopedPmSend data record id out = .ok { data with
        scopedPms := data.scopedPms |> modifyFirst (fun p => p.id == id && p.active)
          (ScopedPmRecord.sent (out.message (recordedDelivery data id.channelId out.messageId)
            (some id.selfMemberId) (selfName record))) }) := by
  cases hany : data.scopedPms.any fun p => p.id == id && p.active with
  | false => exact Or.inl ⟨rfl, if_neg (by rw [hany]; exact Bool.false_ne_true)⟩
  | true => exact Or.inr ⟨rfl, if_pos hany⟩

end Archive

end GChat
