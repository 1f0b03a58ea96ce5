import GChat.Service.History
import GChat.Archive.Run
import GChat.Contacts.Growth
import GChat.Hosted.Growth

/-!
# Messages that arrive

A message arrives in one of three stores: the archive of the protocol client, the archive of a
hosted channel, or the book of contacts. Wherever it arrives, every conversation is continued:
the messages it had stand at its beginning, in their order.
-/

namespace GChat

namespace Service

open Foundation Api

/-! ### Lists whose entries are continued -/

section Entries

variable {α : Type} {R : α → α → Prop} {p : α → Bool} {l l' : List α}

/-- Entries that are related meet a test together, so the first that meets it is related to
the first that does. -/
theorem find?_of_forall₂ (hp : ∀ a b, R a b → p a = p b) (h : List.Forall₂ R l l') :
    (l.find? p = none → l'.find? p = none) ∧
      ∀ a, l.find? p = some a → ∃ b, l'.find? p = some b ∧ R a b := by
  induction h with
  | nil => exact ⟨fun _ => rfl, nofun⟩
  | @cons x y l l' hxy _ ih =>
      rw [List.find?_cons, List.find?_cons, ← hp x y hxy]
      cases p x with
      | true =>
          refine ⟨nofun, ?_⟩
          intro a ha
          cases ha
          exact ⟨y, rfl, hxy⟩
      | false => exact ih

theorem forall₂_modifyFirst (hrefl : ∀ a, R a a) {f : α → α} (hf : ∀ a, R a (f a))
    (p : α → Bool) (l : List α) : List.Forall₂ R l (modifyFirst p f l) := by
  induction l with
  | nil => exact List.Forall₂.nil
  | cons x l ih =>
      cases hx : p x with
      | true =>
          rw [modifyFirst_cons_pos hx]
          exact List.Forall₂.cons (hf x) (List.forall₂_same.mpr fun a _ => hrefl a)
      | false =>
          rw [modifyFirst_cons_neg hx]
          exact List.Forall₂.cons (hrefl x) ih

theorem forall₂_map {f : α → α} (hf : ∀ a, R a (f a)) (l : List α) :
    List.Forall₂ R l (l.map f) := by
  rw [List.forall₂_map_right_iff]
  exact List.forall₂_same.mpr fun a _ => hf a

end Entries

/-! ### The archive of the client -/

/-- A message that comes in, that was acknowledged, or that was sent. -/
inductive Arrival where
  | delivered (channel : String) (messageId : Archive.MessageId)
  | message (channel : String) (messageId : Archive.MessageId) (timestampUnix : ℕ)
      (sender : String) (senderIndex : ℕ) (body : List UInt8)
  | directMessage (channel : String) (senderMemberId recipientMemberId : Archive.MemberId)
      (messageId : Archive.MessageId) (timestampUnix : ℕ) (body : List UInt8)
  | sent (send : Archive.PendingSend)

def Arrival.apply (data : Archive.ArchiveData) : Arrival → Archive.ArchiveData
  | .delivered channel messageId => Archive.applyDelivered data channel messageId
  | .message channel messageId timestampUnix sender senderIndex body =>
      Archive.applyChannelMessage data channel messageId timestampUnix sender senderIndex body
  | .directMessage channel sender recipient messageId timestampUnix body =>
      Archive.applyChannelDirectMessage data channel sender recipient messageId timestampUnix body
  | .sent send =>
      match send.record data with
      | .ok data => data
      | .error _ => data

/-- The identifiers of archived messages, in their order. -/
def archivedIds (messages : List Archive.Message) : List Archive.MessageId :=
  messages.map (·.id)

/-- Every conversation of the archive is continued. -/
def ArchiveContinues (data data' : Archive.ArchiveData) : Prop :=
  ∀ (conversation : String) (messages : List Archive.Message),
    conversationMessages data conversation = .ok messages →
      ∃ messages', conversationMessages data' conversation = .ok messages' ∧
        archivedIds messages <+: archivedIds messages'

def ChannelContinues (c c' : Archive.ChannelRecord) : Prop :=
  Archive.recordKey c' = Archive.recordKey c ∧ archivedIds c.messages <+: archivedIds c'.messages

def PmContinues (p p' : Archive.ScopedPmRecord) : Prop :=
  p'.id = p.id ∧ archivedIds p.messages <+: archivedIds p'.messages

theorem ChannelContinues.refl (c : Archive.ChannelRecord) : ChannelContinues c c :=
  ⟨rfl, List.prefix_refl _⟩

theorem PmContinues.refl (p : Archive.ScopedPmRecord) : PmContinues p p :=
  ⟨rfl, List.prefix_refl _⟩

/-- Records that are continued in place, and private conversations that are added. -/
theorem archiveContinues_of_records {data data' : Archive.ArchiveData}
    {pms extra : List Archive.ScopedPmRecord}
    (hchannels : List.Forall₂ ChannelContinues data.channels data'.channels)
    (hpms : List.Forall₂ PmContinues data.scopedPms pms) (heq : data'.scopedPms = pms ++ extra) :
    ArchiveContinues data data' := by
  intro conversation messages h
  have hkey : ∀ c c', ChannelContinues c c' →
      (Archive.recordKey c == conversation) = (Archive.recordKey c' == conversation) := by
    intro c c' hc
    rw [hc.1]
  have hquery : ∀ p p', PmContinues p p' →
      (Archive.queryKey p.id == conversation) = (Archive.queryKey p'.id == conversation) := by
    intro p p' hp
    rw [hp.1]
  obtain ⟨hnone, hsome⟩ := find?_of_forall₂ hkey hchannels
  unfold conversationMessages at h ⊢
  cases hfound : data.channels.find? fun c => Archive.recordKey c == conversation with
  | some c =>
      rw [hfound] at h
      cases h
      obtain ⟨c', hc', hcontinues⟩ := hsome c hfound
      rw [hc']
      exact ⟨c'.messages, rfl, hcontinues.2⟩
  | none =>
      rw [hfound] at h
      dsimp only at h
      rw [hnone hfound, heq, List.find?_append]
      cases hpm : data.scopedPms.find? fun p => Archive.queryKey p.id == conversation with
      | none =>
          rw [hpm] at h
          cases h
      | some p =>
          rw [hpm] at h
          cases h
          obtain ⟨p', hp', hcontinues⟩ := (find?_of_forall₂ hquery hpms).2 p hpm
          rw [hp']
          exact ⟨p'.messages, rfl, hcontinues.2⟩

theorem archivedIds_promote (messageId : Archive.MessageId) (messages : List Archive.Message) :
    archivedIds (messages.map (Archive.promote messageId)) = archivedIds messages :=
  Archive.map_id_promote messageId messages

theorem archivedIds_pushUnseen (messages : List Archive.Message) (m : Archive.Message) :
    archivedIds messages <+: archivedIds (Archive.pushUnseen messages m) :=
  (Archive.prefix_pushUnseen messages m).map _

theorem archivedIds_append (messages : List Archive.Message) (m : Archive.Message) :
    archivedIds messages <+: archivedIds (messages ++ [m]) :=
  (List.prefix_append messages [m]).map _

theorem ArchiveContinues.refl (data : Archive.ArchiveData) : ArchiveContinues data data :=
  fun _ messages h => ⟨messages, h, List.prefix_refl _⟩

theorem continues_delivered (data : Archive.ArchiveData) (channel : String)
    (messageId : Archive.MessageId) :
    ArchiveContinues data (Archive.applyDelivered data channel messageId) := by
  unfold Archive.applyDelivered
  split
  · exact .refl data
  · refine archiveContinues_of_records (forall₂_map ?_ _) (forall₂_map ?_ _)
      (List.append_nil _).symm
    · intro c
      split
      · exact ⟨rfl, by rw [archivedIds_promote]⟩
      · exact .refl c
    · intro p
      split
      · exact ⟨rfl, by rw [archivedIds_promote]⟩
      · exact .refl p

theorem continues_message (data : Archive.ArchiveData) (channel : String)
    (messageId : Archive.MessageId) (timestampUnix : ℕ) (sender : String) (senderIndex : ℕ)
    (body : List UInt8) :
    ArchiveContinues data (Archive.applyChannelMessage data channel messageId timestampUnix sender
      senderIndex body) := by
  have hreceive : ∀ c : Archive.ChannelRecord, ChannelContinues c
      (c.receive messageId timestampUnix sender senderIndex body) := by
    intro c
    exact ⟨rfl, archivedIds_pushUnseen c.messages _⟩
  have hchannels := forall₂_modifyFirst ChannelContinues.refl hreceive (Archive.names channel)
    data.channels
  exact archiveContinues_of_records hchannels
    (List.forall₂_same.mpr fun p _ => PmContinues.refl p) (List.append_nil _).symm

/-- The private conversation is found, or it is added at the end. -/
theorem forall₂_ensurePm {f : Archive.ScopedPmRecord → Archive.ScopedPmRecord}
    (hf : ∀ p, PmContinues p (f p)) (test : Archive.ScopedPmRecord → Bool)
    (pms : List Archive.ScopedPmRecord) (id : Archive.ScopedPmId) (name : String) :
    ∃ kept extra, List.Forall₂ PmContinues pms kept ∧
      modifyFirst test f (Archive.ensurePm pms id name) = kept ++ extra := by
  have hall := forall₂_modifyFirst PmContinues.refl hf test (Archive.ensurePm pms id name)
  unfold Archive.ensurePm at hall ⊢
  split
  case isTrue hany =>
    rw [if_pos hany] at hall
    exact ⟨_, [], hall, (List.append_nil _).symm⟩
  case isFalse hany =>
    rw [if_neg hany] at hall
    generalize modifyFirst test f (pms ++ [Archive.ScopedPmRecord.create id name]) = l at hall ⊢
    refine ⟨l.take pms.length, l.drop pms.length, ?_, (List.take_append_drop _ _).symm⟩
    have htake := List.forall₂_take pms.length hall
    rwa [List.take_left] at htake

theorem continues_directMessage (data : Archive.ArchiveData) (channel : String)
    (sender recipient : Archive.MemberId) (messageId : Archive.MessageId) (timestampUnix : ℕ)
    (body : List UInt8) :
    ArchiveContinues data (Archive.applyChannelDirectMessage data channel sender recipient messageId
      timestampUnix body) := by
  unfold Archive.applyChannelDirectMessage
  cases data.channels.find? (Archive.names channel) with
  | none => exact .refl data
  | some record =>
      dsimp only
      cases record.selfMemberId with
      | none => exact .refl data
      | some selfId =>
          dsimp only
          split
          · exact .refl data
          · obtain ⟨kept, extra, hkept, heq⟩ := forall₂_ensurePm
              (f := Archive.ScopedPmRecord.receive sender messageId timestampUnix body)
              (fun p => ⟨rfl, archivedIds_pushUnseen p.messages _⟩)
              (fun p => p.id == (⟨record.id, selfId, sender⟩ : Archive.ScopedPmId)) data.scopedPms
              ⟨record.id, selfId, sender⟩ (Archive.remoteName record sender)
            exact archiveContinues_of_records
              (List.forall₂_same.mpr fun c _ => ChannelContinues.refl c) hkept heq

theorem continues_sent (data : Archive.ArchiveData) (send : Archive.PendingSend) :
    ArchiveContinues data ((Arrival.sent send).apply data) := by
  cases send with
  | channel id out =>
      have hsent : ∀ c : Archive.ChannelRecord, ChannelContinues c
          (c.sent out (Archive.recordedDelivery data id out.messageId)) := by
        intro c
        exact ⟨rfl, archivedIds_append c.messages _⟩
      have hchannels := forall₂_modifyFirst ChannelContinues.refl hsent
        (fun c => c.active && c.id == id) data.channels
      exact archiveContinues_of_records hchannels
        (List.forall₂_same.mpr fun p _ => PmContinues.refl p) (List.append_nil _).symm
  | scopedPm id record out =>
      unfold Arrival.apply Archive.PendingSend.record Archive.recordScopedPmSend
      dsimp only
      by_cases hactive : (data.scopedPms.any fun p => p.id == id && p.active) = true
      · rw [if_pos hactive]
        have hpms := forall₂_modifyFirst PmContinues.refl
          (f := Archive.ScopedPmRecord.sent (out.message
            (Archive.recordedDelivery data id.channelId out.messageId) (some id.selfMemberId)
              (Archive.selfName record)))
          (fun p => ⟨rfl, archivedIds_append p.messages _⟩) (fun p => p.id == id && p.active)
          data.scopedPms
        exact archiveContinues_of_records
          (List.forall₂_same.mpr fun c _ => ChannelContinues.refl c) hpms (List.append_nil _).symm
      · rw [if_neg hactive]
        exact .refl data

theorem Arrival.continues (arrival : Arrival) (data : Archive.ArchiveData) :
    ArchiveContinues data (arrival.apply data) := by
  cases arrival with
  | delivered channel messageId => exact continues_delivered data channel messageId
  | message channel messageId timestampUnix sender senderIndex body =>
      exact continues_message data channel messageId timestampUnix sender senderIndex body
  | directMessage channel sender recipient messageId timestampUnix body =>
      exact continues_directMessage data channel sender recipient messageId timestampUnix body
  | sent send => exact continues_sent data send

/-! ### The keys of hosted channels -/

theorem head_key (id : Hosted.Id) : (Hosted.key id).toList.head? = some 'h' := by
  simp [Hosted.key]

theorem recordKey_ne_key (c : Archive.ChannelRecord) (id : Hosted.Id) :
    Archive.recordKey c ≠ Hosted.key id := by
  intro h
  have hhead := congrArg (fun s : String => s.toList.head?) h
  simp only [head_key] at hhead
  unfold Archive.recordKey Archive.channelKey at hhead
  cases hactive : c.active with
  | true => simp [hactive] at hhead
  | false => simp [hactive] at hhead

theorem queryKey_ne_key (pm : Archive.ScopedPmId) (id : Hosted.Id) :
    Archive.queryKey pm ≠ Hosted.key id := by
  intro h
  have hhead := congrArg (fun s : String => s.toList.head?) h
  simp only [head_key] at hhead
  simp [Archive.queryKey] at hhead

/-- No conversation of the archive has the key of a hosted channel. -/
theorem conversationMessages_key (data : Archive.ArchiveData) (id : Hosted.Id)
    (messages : List Archive.Message) :
    conversationMessages data (Hosted.key id) ≠ .ok messages := by
  unfold conversationMessages
  have hchannels : data.channels.find? (fun c => Archive.recordKey c == Hosted.key id) = none := by
    simp [recordKey_ne_key]
  have hpms : data.scopedPms.find? (fun p => Archive.queryKey p.id == Hosted.key id) = none := by
    simp [queryKey_ne_key]
  rw [hchannels]
  dsimp only
  rw [hpms]
  nofun

end Service

end GChat
