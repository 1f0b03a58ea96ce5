import GChat.Archive.Inbox

/-!
# Own messages of the archive

Only a send adds an own message, and none is ever removed: what the client reads back after a
crash are own messages that it had before.
-/

namespace GChat

namespace Archive

open Foundation

/-- The own messages, those of channels first. -/
def ArchiveData.own (data : ArchiveData) : List Message :=
  (data.channels.flatMap (·.messages) ++ data.scopedPms.flatMap (·.messages)).filter (·.mine)

def ArchiveData.ownIds (data : ArchiveData) : List MessageId := data.own.map (·.id)

/-- The identifier an operation records as an own message. -/
def Op.recorded : Op → Option MessageId
  | .recordChannelSend _ out => some out.messageId
  | .recordScopedPmSend _ _ out => some out.messageId
  | _ => none

def InboxStep.recorded : InboxStep → Option MessageId
  | .op operation => operation.recorded
  | _ => none

/-- The identifiers of the own messages of a conversation. -/
def mineIds (messages : List Message) : List MessageId := (messages.filter (·.mine)).map (·.id)

theorem ownIds_eq (data : ArchiveData) :
    data.ownIds = data.channels.flatMap (fun c => mineIds c.messages) ++
      data.scopedPms.flatMap fun p => mineIds p.messages := by
  simp [ArchiveData.ownIds, ArchiveData.own, mineIds, List.filter_flatMap, List.map_flatMap]

section Conversation

variable {messages : List Message} {m : Message}

theorem mineIds_append_mine (h : m.mine = true) :
    mineIds (messages ++ [m]) = mineIds messages ++ [m.id] := by
  simp [mineIds, List.filter_append, h]

theorem mineIds_pushUnseen (h : m.mine = false) :
    mineIds (pushUnseen messages m) = mineIds messages := by
  unfold pushUnseen
  split
  · rfl
  · simp [mineIds, List.filter_append, h]

theorem promote_mine (messageId : MessageId) (m : Message) :
    (promote messageId m).mine = m.mine := by
  unfold promote
  split
  · rfl
  · rfl

/-- An edit of the messages that keeps whose they are. -/
theorem mineIds_map {f : Message → Message} (hmine : ∀ m, (f m).mine = m.mine)
    (hid : ∀ m, (f m).id = m.id) : mineIds (messages.map f) = mineIds messages := by
  simp [mineIds, List.filter_map, Function.comp_def, hmine, hid]

theorem mineIds_promote (messageId : MessageId) :
    mineIds (messages.map (promote messageId)) = mineIds messages :=
  mineIds_map (promote_mine messageId) (promote_id messageId)

end Conversation

section Records

variable {α β : Type*} {f : α → α} {g : α → List β}

theorem flatMap_map_of_eq (h : ∀ x, g (f x) = g x) (l : List α) :
    (l.map f).flatMap g = l.flatMap g := by
  rw [List.flatMap_map]
  congr 1
  funext x
  exact h x

theorem flatMap_modifyFirst_of_eq {p : α → Bool} (h : ∀ x, g (f x) = g x) (l : List α) :
    (modifyFirst p f l).flatMap g = l.flatMap g := by
  rw [List.flatMap_def, List.flatMap_def, map_modifyFirst_of_eq h]

/-- An edit that adds an entry to one record. -/
theorem mem_flatMap_modifyFirst {p : α → Bool} {b : β} (h : ∀ x, g (f x) = g x ++ [b])
    (l : List α) {y : β} :
    (y ∈ l.flatMap g → y ∈ (modifyFirst p f l).flatMap g) ∧
      (y ∈ (modifyFirst p f l).flatMap g → y ∈ l.flatMap g ∨ y = b) := by
  induction l with
  | nil => simp
  | cons x l ih =>
      cases hx : p x with
      | true =>
          rw [modifyFirst_cons_pos hx, List.flatMap_cons, List.flatMap_cons, h]
          simp only [List.mem_append, List.mem_singleton]
          constructor
          · rintro (hy | hy)
            · exact Or.inl (Or.inl hy)
            · exact Or.inr hy
          · rintro ((hy | hy) | hy)
            · exact Or.inl (Or.inl hy)
            · exact Or.inr hy
            · exact Or.inl (Or.inr hy)
      | false =>
          rw [modifyFirst_cons_neg hx, List.flatMap_cons, List.flatMap_cons]
          simp only [List.mem_append]
          constructor
          · exact Or.imp_right ih.1
          · rintro (hy | hy)
            · exact Or.inl (Or.inl hy)
            · exact (ih.2 hy).imp_left Or.inr

end Records

/-! ### Operations -/

section Operations

variable {data : ArchiveData}

theorem ownIds_ensurePm (pms : List ScopedPmRecord) (id : ScopedPmId) (name : String) :
    (ensurePm pms id name).flatMap (fun p => mineIds p.messages) =
      pms.flatMap fun p => mineIds p.messages := by
  unfold ensurePm
  split
  · rfl
  · simp [ScopedPmRecord.create, mineIds]

theorem ownIds_applyDelivered (data : ArchiveData) (channel : String) (messageId : MessageId) :
    (applyDelivered data channel messageId).ownIds = data.ownIds := by
  unfold applyDelivered
  split
  · rfl
  · rw [ownIds_eq, ownIds_eq]
    congr 1
    · apply flatMap_map_of_eq
      intro c
      split
      · exact mineIds_promote messageId
      · rfl
    · apply flatMap_map_of_eq
      intro p
      split
      · exact mineIds_promote messageId
      · rfl

/-- No event adds or removes an own message. -/
theorem ownIds_event (data : ArchiveData) (e : ClientEvent) :
    (applyArchiveEvent data e).ownIds = data.ownIds := by
  cases e with
  | channelDelivered channel messageId => exact ownIds_applyDelivered data channel messageId
  | channelDirectDelivered channel messageId => exact ownIds_applyDelivered data channel messageId
  | channelMessage channel messageId timestampUnix sender senderIndex body =>
      rw [ownIds_eq, ownIds_eq]
      congr 1
      apply flatMap_modifyFirst_of_eq
      intro c
      exact mineIds_pushUnseen rfl
  | channelDirectMessage channel sender recipient messageId ts body =>
      obtain ⟨-, heq⟩ | ⟨record, -, -, heq⟩ :=
        applyChannelDirectMessage_cases data channel sender recipient messageId ts body
      · rw [applyArchiveEvent, heq]
      · rw [applyArchiveEvent, heq, ownIds_eq, ownIds_eq]
        congr 1
        rw [flatMap_modifyFirst_of_eq, ownIds_ensurePm]
        intro p
        exact mineIds_pushUnseen rfl
  | channelRemoved channel =>
      simp only [applyArchiveEvent, applyChannelRemoved]
      split
      · rfl
      · rw [ownIds_eq, ownIds_eq]
        congr 1
        · apply flatMap_modifyFirst_of_eq
          intro c
          rfl
        · apply flatMap_map_of_eq
          intro p
          split
          · rfl
          · rfl
  | channelRosterChanged => rfl
  | channelPresenceChanged => rfl
  | eventsLagged => rfl

theorem ownIds_stored (data : ArchiveData) : data.stored.ownIds = data.ownIds := by
  rw [ownIds_eq, ownIds_eq]
  congr 1
  · apply flatMap_map_of_eq
    intro c
    exact mineIds_map (fun _ => rfl) fun _ => rfl
  · apply flatMap_map_of_eq
    intro p
    exact mineIds_map (fun _ => rfl) fun _ => rfl

/-- An operation that records no message keeps the own messages. -/
theorem ownIds_apply (data : ArchiveData) {op : Op} (h : op.recorded = none) :
    (op.apply data).ownIds = data.ownIds := by
  cases op with
  | dropLost activeIds =>
      rw [ownIds_eq, ownIds_eq]
      congr 1
      · apply flatMap_map_of_eq
        intro c
        split
        · rfl
        · rfl
      · apply flatMap_map_of_eq
        intro p
        split
        · rfl
        · rfl
  | mergeChannel joined roster now =>
      simp only [Op.apply, mergeChannel]
      split
      · rw [ownIds_eq, ownIds_eq]
        congr 1
        apply flatMap_modifyFirst_of_eq
        intro c
        rfl
      · simp [ownIds_eq, ChannelRecord.create, mineIds]
  | rosterChanged channel roster =>
      simp only [Op.apply, rosterChanged]
      split
      · rfl
      · rw [ownIds_eq, ownIds_eq]
        congr 1
        · apply flatMap_modifyFirst_of_eq
          intro c
          rfl
        · apply flatMap_map_of_eq
          intro p
          split
          · rfl
          · rfl
  | event e => exact ownIds_event data e
  | openScopedPm channelId remote =>
      simp only [Op.apply]
      obtain ⟨⟨message, herr⟩, -⟩ | ⟨record, self, member, -, -, -, hok⟩ :=
        openScopedPm_cases data channelId remote
      · rw [herr]
      · rw [hok]
        simp only [ownIds_eq, ownIds_ensurePm]
  | recordChannelSend id out => cases h
  | recordScopedPmSend record id out => cases h
  | reopen => exact ownIds_stored data

/-- An operation keeps the own messages, and adds at most the one it records. -/
theorem mem_ownIds_apply (data : ArchiveData) (op : Op) (id : MessageId) :
    (id ∈ data.ownIds → id ∈ (op.apply data).ownIds) ∧
      (id ∈ (op.apply data).ownIds → id ∈ data.ownIds ∨ op.recorded = some id) := by
  have hkept : op.recorded = none → (id ∈ data.ownIds → id ∈ (op.apply data).ownIds) ∧
      (id ∈ (op.apply data).ownIds → id ∈ data.ownIds ∨ op.recorded = some id) := by
    intro h
    rw [ownIds_apply data h]
    exact ⟨fun hid => hid, Or.inl⟩
  cases op with
  | recordChannelSend channel out =>
      have hsent := mem_flatMap_modifyFirst (p := fun c => c.active && c.id == channel)
        (f := ChannelRecord.sent out (recordedDelivery data channel out.messageId))
        (g := fun c => mineIds c.messages) (b := out.messageId)
        (fun c => mineIds_append_mine rfl) data.channels (y := id)
      simp only [Op.apply, Archive.recordChannelSend, ownIds_eq, List.mem_append, Op.recorded]
      constructor
      · exact Or.imp_left hsent.1
      · rintro (hid | hid)
        · obtain hid | rfl := hsent.2 hid
          · exact Or.inl (Or.inl hid)
          · exact Or.inr rfl
        · exact Or.inl (Or.inr hid)
  | recordScopedPmSend record pm out =>
      obtain ⟨-, herr⟩ | ⟨-, hok⟩ := recordScopedPmSend_cases data record pm out
      · rw [Op.apply, herr]
        exact ⟨fun hid => hid, Or.inl⟩
      · have hsent := mem_flatMap_modifyFirst (p := fun p => p.id == pm && p.active)
          (f := ScopedPmRecord.sent (out.message (recordedDelivery data pm.channelId out.messageId)
            (some pm.selfMemberId) (selfName record)))
          (g := fun p => mineIds p.messages) (b := out.messageId)
          (fun p => mineIds_append_mine rfl) data.scopedPms (y := id)
        rw [Op.apply, hok]
        simp only [ownIds_eq, List.mem_append, Op.recorded]
        constructor
        · exact Or.imp_right hsent.1
        · rintro (hid | hid)
          · exact Or.inl (Or.inl hid)
          · obtain hid | rfl := hsent.2 hid
            · exact Or.inl (Or.inr hid)
            · exact Or.inr rfl
  | dropLost => exact hkept rfl
  | mergeChannel => exact hkept rfl
  | rosterChanged => exact hkept rfl
  | event => exact hkept rfl
  | openScopedPm => exact hkept rfl
  | reopen => exact hkept rfl

end Operations

/-! ### The client -/

/-- The own messages of the file are in memory. -/
def Inbox.OwnSaved (s : Inbox) : Prop := ∀ id ∈ s.disk.ownIds, id ∈ s.memory.ownIds

theorem ownSaved_save {s : Inbox} (h : s.OwnSaved) {data : ArchiveData}
    (hdata : data.ownIds = s.memory.ownIds) (outcome : SaveOutcome) :
    ((s.save data outcome).1).OwnSaved ∧ (s.save data outcome).1.memory = s.memory := by
  cases outcome with
  | saved => exact ⟨fun id hid => hdata ▸ hid, rfl⟩
  | failed message => exact ⟨h, rfl⟩
  | failedWritten message => exact ⟨fun id hid => hdata ▸ hid, rfl⟩

theorem ownSaved_publish {s : Inbox} (h : s.OwnSaved) {candidate : Except String ArchiveData}
    (hcandidate : ∀ data, candidate = .ok data → data.ownIds = s.memory.ownIds)
    (outcome : SaveOutcome) :
    ((s.publish candidate outcome).1).OwnSaved ∧
      (s.publish candidate outcome).1.memory.ownIds = s.memory.ownIds := by
  cases candidate with
  | error message => exact ⟨h, rfl⟩
  | ok data =>
      have hdata := hcandidate data rfl
      cases outcome with
      | saved => exact ⟨fun id hid => hid, hdata⟩
      | failed message => exact ⟨h, rfl⟩
      | failedWritten message => exact ⟨fun id hid => hdata ▸ hid, rfl⟩

theorem ownIds_archiveCandidate {data candidate : ArchiveData} {e : ClientEvent}
    (h : archiveCandidate data e = .ok candidate) : candidate.ownIds = data.ownIds := by
  rw [(archiveCandidate_eq_ok h).1, ownIds_event]

theorem ownSaved_sinkSave {s : Inbox} (h : s.OwnSaved) (outcome : SaveOutcome) :
    ((s.sinkSave outcome).1).OwnSaved ∧
      (s.sinkSave outcome).1.memory.ownIds = s.memory.ownIds := by
  have hcandidate : ∀ data, s.sinkCandidate = .ok data → data.ownIds = s.memory.ownIds := by
    intro data hdata
    unfold Inbox.sinkCandidate at hdata
    split at hdata
    · cases hdata
      rfl
    · exact ownIds_archiveCandidate hdata
  have hpublish := ownSaved_publish h hcandidate outcome
  unfold Inbox.sinkSave
  split
  next t heq =>
    rw [heq] at hpublish
    exact hpublish
  next t message heq =>
    rw [heq] at hpublish
    exact hpublish

theorem ownSaved_finish {s : Inbox} {e : ClientEvent} {r : Inbox × Except String Unit}
    (h : r.1.OwnSaved ∧ r.1.memory.ownIds = s.memory.ownIds) :
    (Inbox.finish e r).OwnSaved ∧ (Inbox.finish e r).memory.ownIds = s.memory.ownIds := by
  obtain ⟨t, result⟩ := r
  cases result with
  | error message => exact h
  | ok _ => exact h

/-- A step of the client that records no message keeps the own messages in memory. -/
theorem ownSaved_step {s : Inbox} (h : s.OwnSaved) {step : InboxStep} (hstep : step ≠ .crash) :
    (s.step step).OwnSaved ∧ (∀ id ∈ s.memory.ownIds, id ∈ (s.step step).memory.ownIds) ∧
      ∀ id ∈ (s.step step).memory.ownIds, id ∈ s.memory.ownIds ∨ step.recorded = some id := by
  have hkept : ∀ t : Inbox, t.OwnSaved ∧ t.memory.ownIds = s.memory.ownIds → t.OwnSaved ∧
      (∀ id ∈ s.memory.ownIds, id ∈ t.memory.ownIds) ∧
        ∀ id ∈ t.memory.ownIds, id ∈ s.memory.ownIds ∨ step.recorded = some id := by
    rintro t ⟨hsaved, heq⟩
    rw [heq]
    exact ⟨hsaved, fun id hid => hid, fun id hid => Or.inl hid⟩
  cases step with
  | op op =>
      refine ⟨?_, fun id => (mem_ownIds_apply s.memory op id).1,
        fun id => (mem_ownIds_apply s.memory op id).2⟩
      intro id hid
      exact (mem_ownIds_apply s.memory op id).1 (h id hid)
  | backgroundSave outcome =>
      apply hkept
      simp only [Inbox.step]
      split
      · obtain ⟨hsaved, hmemory⟩ := ownSaved_save h rfl outcome
        exact ⟨hsaved, by rw [hmemory]⟩
      · exact ownSaved_sinkSave h outcome
  | deliver e outcome =>
      apply hkept
      simp only [Inbox.step]
      split
      · split
        · exact ⟨h, rfl⟩
        · split
          · exact ownSaved_finish (ownSaved_publish h (fun _ => ownIds_archiveCandidate) outcome)
          · exact ⟨h, rfl⟩
      · exact ⟨h, rfl⟩
  | runtimeSaved outcome =>
      apply hkept
      simp only [Inbox.step]
      split
      · exact ownSaved_finish (ownSaved_sinkSave h outcome)
      · exact ⟨h, rfl⟩
  | commit accepted =>
      apply hkept
      simp only [Inbox.step]
      split
      · exact ⟨h, rfl⟩
      · exact ⟨h, rfl⟩
  | crash => exact absurd rfl hstep

end Archive

end GChat
