import GChat.Archive.Roster
import GChat.Archive.Send
import GChat.Foundation.Growth
import GChat.Foundation.Machine

/-!
# Runs of the archive

`Op` lists the sections in which the archive is written: those of a
reconciliation, a roster change, a protocol event, the opening of a private
conversation, the recording of a sent message, and the reload of the stored
form when the profile is opened again. Each runs under the data lock, so a run
of the client is a sequence of them in any order.

No operation moves or removes a record or a message. `Evolves` states this
with the relation allowed between a message and its later form: the
operations other than a reload keep a delivered message delivered.
-/

namespace GChat

namespace Archive

open Foundation

inductive Op where
  | dropLost (activeIds : List ChannelId)
  | mergeChannel (joined : JoinedChannel) (roster : List RosterMember) (now : ℕ)
  | rosterChanged (channel : String) (roster : List RosterMember)
  | event (e : ClientEvent)
  | openScopedPm (channelId : ChannelId) (remote : MemberId)
  | recordChannelSend (id : ChannelId) (out : Outgoing)
  | recordScopedPmSend (record : ChannelRecord) (id : ScopedPmId) (out : Outgoing)
  | reopen

def Op.apply (data : ArchiveData) : Op → ArchiveData
  | .dropLost activeIds => Archive.dropLost data activeIds
  | .mergeChannel joined roster now => Archive.mergeChannel data joined roster now
  | .rosterChanged channel roster => Archive.rosterChanged data channel roster
  | .event e => applyArchiveEvent data e
  | .openScopedPm channelId remote =>
      match Archive.openScopedPm data channelId remote with
      | .ok (_, data) => data
      | .error _ => data
  | .recordChannelSend id out => Archive.recordChannelSend data id out
  | .recordScopedPmSend record id out =>
      match Archive.recordScopedPmSend data record id out with
      | .ok data => data
      | .error _ => data
  | .reopen => data.stored

/-- The archive as a machine: a new profile, and the sections as its steps. -/
def archiveMachine (daemonSafetyNumber : String) : Machine ArchiveData Op :=
  Machine.ofFun (ArchiveData.create daemonSafetyNumber) Op.apply

/-- The sections of an uninterrupted call of `reconcileChannels`. -/
def reconcileOps (joined : List (JoinedChannel × List RosterMember)) (now : ℕ) : List Op :=
  .dropLost (joined.map fun j => j.1.id) ::
    joined.map fun j => .mergeChannel j.1 j.2 now

theorem foldl_reconcileOps (data : ArchiveData)
    (joined : List (JoinedChannel × List RosterMember)) (now : ℕ) :
    (reconcileOps joined now).foldl Op.apply data = reconcileChannels data joined now := by
  rw [reconcileOps, reconcileChannels, List.foldl_cons, List.foldl_map]
  rfl

theorem reachable_reconcileChannels {daemonSafetyNumber : String} {data : ArchiveData}
    (h : (archiveMachine daemonSafetyNumber).Reachable data)
    (joined : List (JoinedChannel × List RosterMember)) (now : ℕ) :
    (archiveMachine daemonSafetyNumber).Reachable (reconcileChannels data joined now) := by
  rw [← foldl_reconcileOps]
  exact h.foldl _

/-- A listed room, and a roster with one own membership in it. -/
def room : JoinedChannel := ⟨Bytes.fill 32 7, "room", .pub, .member⟩

def ownRoster (self : MemberId) : List RosterMember := [⟨self, "me", 0, none, true⟩]

/-- The archive of a profile that joined a room. -/
def joinedOnce : ArchiveData :=
  reconcileChannels (ArchiveData.create "") [(room, ownRoster (Bytes.fill 32 1))] 1

theorem reachable_joinedOnce : (archiveMachine "").Reachable joinedOnce :=
  reachable_reconcileChannels (.start rfl) _ _

/-! ### The conversation opened -/

/-- The three checks of `openScopedPm`, and what it returns once they hold. -/
theorem openScopedPm_cases (data : ArchiveData) (channelId : ChannelId) (remote : MemberId) :
    ((∃ message, openScopedPm data channelId remote = .error message) ∧
      ∀ record self, channel data channelId = some record → record.selfMemberId = some self →
        (record.members.find? fun m => m.id == remote && !m.isSelf) = none) ∨
      ∃ record self member, channel data channelId = some record ∧
        record.selfMemberId = some self ∧
        (record.members.find? fun m => m.id == remote && !m.isSelf) = some member ∧
        openScopedPm data channelId remote =
          .ok (⟨channelId, self, remote⟩, { data with
            scopedPms :=
              ensurePm data.scopedPms ⟨channelId, self, remote⟩ member.displayName }) := by
  unfold openScopedPm channelFor
  cases hc : channel data channelId with
  | none => exact Or.inl ⟨⟨_, rfl⟩, fun record self h => nomatch h⟩
  | some record =>
      cases hself : record.selfMemberId with
      | none =>
          refine Or.inl ⟨⟨"channel roster has no self member", ?_⟩, ?_⟩
          · simp [hself, bind, Except.bind]
          · rintro _ self ⟨⟩ h
            exact nomatch hself.symm.trans h
      | some self =>
          cases hmember : record.members.find? fun m => m.id == remote && !m.isSelf with
          | none =>
              refine Or.inl ⟨⟨"member is no longer in channel", ?_⟩, ?_⟩
              · simp [hself, hmember, bind, Except.bind]
              · rintro _ self' ⟨⟩ -
                exact hmember
          | some member =>
              refine Or.inr ⟨record, self, member, rfl, hself, hmember, ?_⟩
              simp only [hself, hmember, bind, Except.bind]

theorem channel_eq_some {data : ArchiveData} {id : ChannelId} {c : ChannelRecord}
    (h : channel data id = some c) : c ∈ data.channels ∧ c.active = true ∧ c.id = id := by
  have hp := List.find?_some h
  simp only [Bool.and_eq_true, beq_iff_eq] at hp
  exact ⟨List.mem_of_find?_eq_some h, hp.1, hp.2⟩

/-! ### The identifiers of private conversations -/

theorem map_id_map_of_eq {f : ScopedPmRecord → ScopedPmRecord} (hf : ∀ p, (f p).id = p.id)
    (pms : List ScopedPmRecord) : (pms.map f).map (·.id) = pms.map (·.id) := by
  rw [List.map_map]
  exact List.map_congr_left fun p _ => hf p

theorem any_pm_iff {pms : List ScopedPmRecord} {id : ScopedPmId} :
    (pms.any fun p => p.id == id) = true ↔ id ∈ pms.map (·.id) := by
  simp

theorem ensurePm_of_mem {pms : List ScopedPmRecord} {id : ScopedPmId}
    (h : id ∈ pms.map (·.id)) (name : String) : ensurePm pms id name = pms :=
  if_pos (any_pm_iff.mpr h)

theorem ensurePm_of_not_mem {pms : List ScopedPmRecord} {id : ScopedPmId}
    (h : id ∉ pms.map (·.id)) (name : String) :
    ensurePm pms id name = pms ++ [ScopedPmRecord.create id name] :=
  if_neg fun hany => h (any_pm_iff.mp hany)

theorem nodup_ids_ensurePm {pms : List ScopedPmRecord} (h : (pms.map (·.id)).Nodup)
    (id : ScopedPmId) (name : String) : ((ensurePm pms id name).map (·.id)).Nodup := by
  by_cases hid : id ∈ pms.map (·.id)
  · rwa [ensurePm_of_mem hid]
  · rw [ensurePm_of_not_mem hid, List.map_append]
    refine List.Nodup.append h (List.nodup_singleton _) ?_
    simpa using fun p hp heq => hid (List.mem_map.mpr ⟨p, hp, heq⟩)

theorem nodup_ids_modifyFirst {pms : List ScopedPmRecord} {q : ScopedPmRecord → Bool}
    {f : ScopedPmRecord → ScopedPmRecord} (hf : ∀ p, (f p).id = p.id)
    (h : (pms.map (·.id)).Nodup) : ((modifyFirst q f pms).map (·.id)).Nodup := by
  rwa [map_modifyFirst_of_eq hf]

@[simp] theorem ScopedPmRecord.sent_id (m : Message) (p : ScopedPmRecord) :
    (p.sent m).id = p.id := rfl

theorem prefix_ensurePm (pms : List ScopedPmRecord) (id : ScopedPmId) (name : String) :
    pms <+: ensurePm pms id name := by
  unfold ensurePm
  split
  · exact List.prefix_rfl
  · exact List.prefix_append _ _

theorem nodup_pm_ids_event {data : ArchiveData} (h : (data.scopedPms.map (·.id)).Nodup)
    (e : ClientEvent) : ((applyArchiveEvent data e).scopedPms.map (·.id)).Nodup := by
  have hdelivered : ∀ channel messageId,
      ((applyDelivered data channel messageId).scopedPms.map (·.id)).Nodup := by
    intro channel messageId
    unfold applyDelivered
    split
    · exact h
    · rwa [map_id_map_of_eq]
      intro p
      split <;> rfl
  cases e with
  | channelDelivered channel messageId => exact hdelivered channel messageId
  | channelDirectDelivered channel messageId => exact hdelivered channel messageId
  | channelMessage => exact h
  | channelDirectMessage channel sender recipient messageId ts body =>
      rcases applyChannelDirectMessage_cases data channel sender recipient messageId ts body with
        ⟨-, heq⟩ | ⟨record, -, -, heq⟩
      · rwa [applyArchiveEvent, heq]
      · rw [applyArchiveEvent, heq]
        exact nodup_ids_modifyFirst (ScopedPmRecord.receive_id sender messageId ts body)
          (nodup_ids_ensurePm h _ _)
  | channelRemoved channel =>
      simp only [applyArchiveEvent, applyChannelRemoved]
      split
      · exact h
      · rwa [map_id_map_of_eq]
        intro p
        split <;> rfl
  | channelRosterChanged => exact h
  | channelPresenceChanged => exact h
  | eventsLagged => exact h

/-- A private conversation is created only when its identifier is new. -/
theorem nodup_pm_ids_apply {data : ArchiveData} (h : (data.scopedPms.map (·.id)).Nodup)
    (op : Op) : ((op.apply data).scopedPms.map (·.id)).Nodup := by
  cases op with
  | dropLost activeIds =>
      simp only [Op.apply, dropLost]
      rwa [map_id_map_of_eq]
      intro p
      split <;> rfl
  | mergeChannel joined roster now =>
      simp only [Op.apply, mergeChannel]
      split <;> exact h
  | rosterChanged channel roster =>
      simp only [Op.apply, rosterChanged]
      split
      · exact h
      · rwa [map_id_map_of_eq]
        intro p
        split <;> rfl
  | event e => exact nodup_pm_ids_event h e
  | openScopedPm channelId remote =>
      simp only [Op.apply]
      rcases openScopedPm_cases data channelId remote with ⟨⟨message, herr⟩, -⟩ |
        ⟨record, self, member, -, -, -, hok⟩
      · rwa [herr]
      · rw [hok]
        exact nodup_ids_ensurePm h _ _
  | recordChannelSend id out => exact h
  | recordScopedPmSend record id out =>
      rcases recordScopedPmSend_cases data record id out with ⟨-, herr⟩ | ⟨-, hok⟩
      · rwa [Op.apply, herr]
      · rw [Op.apply, hok]
        exact nodup_ids_modifyFirst (ScopedPmRecord.sent_id _) h
  | reopen =>
      simp only [Op.apply, ArchiveData.stored]
      rw [map_id_map_of_eq]
      · exact h
      · exact fun p => rfl

theorem nodup_pm_ids_of_reachable {daemonSafetyNumber : String} {data : ArchiveData}
    (h : (archiveMachine daemonSafetyNumber).Reachable data) :
    (data.scopedPms.map (·.id)).Nodup := by
  refine h.invariant (I := fun data => (data.scopedPms.map (·.id)).Nodup) ?_ ?_
  · rintro data rfl
    exact List.nodup_nil
  · rintro data op _ - hdata rfl
    exact nodup_pm_ids_apply hdata op

/-! ### What persists -/

/-- A message keeps everything but its delivery state, and stays delivered. -/
def Message.Kept (m m' : Message) : Prop :=
  { m with delivery := m'.delivery } = m' ∧
    (m.delivery = some .delivered → m'.delivery = some .delivered)

/-- A message keeps the fields of its stored form. -/
def Message.SameContent (m m' : Message) : Prop := m.stored = m'.stored

theorem Message.Kept.refl (m : Message) : m.Kept m := ⟨rfl, fun h => h⟩

theorem Message.Kept.trans (m m' m'' : Message) (h : m.Kept m') (h' : m'.Kept m'') :
    m.Kept m'' := by
  refine ⟨?_, fun hm => h'.2 (h.2 hm)⟩
  rw [← h'.1, ← h.1]

theorem Message.Kept.sameContent (m m' : Message) (h : m.Kept m') : m.SameContent m' := by
  rw [Message.SameContent, ← h.1]
  rfl

theorem kept_promote (messageId : MessageId) (m : Message) : m.Kept (promote messageId m) := by
  unfold promote
  split
  · exact ⟨rfl, fun _ => rfl⟩
  · exact Message.Kept.refl m

/-- A record keeps its identity, and its messages stay. -/
def ChannelRecord.Grows (R : Message → Message → Prop) (c c' : ChannelRecord) : Prop :=
  c'.id = c.id ∧ c'.selfMemberId = c.selfMemberId ∧ Extends R c.messages c'.messages

def ScopedPmRecord.Grows (R : Message → Message → Prop) (p p' : ScopedPmRecord) : Prop :=
  p'.id = p.id ∧ Extends R p.messages p'.messages

/-- Every record and every message of `data` is still at its place in `data'`. -/
def Evolves (R : Message → Message → Prop) (data data' : ArchiveData) : Prop :=
  Extends (ChannelRecord.Grows R) data.channels data'.channels ∧
    Extends (ScopedPmRecord.Grows R) data.scopedPms data'.scopedPms

section Persistence

variable {R : Message → Message → Prop}

theorem ChannelRecord.Grows.refl (hR : ∀ m, R m m) (c : ChannelRecord) : c.Grows R c :=
  ⟨rfl, rfl, Extends.refl hR c.messages⟩

theorem ScopedPmRecord.Grows.refl (hR : ∀ m, R m m) (p : ScopedPmRecord) : p.Grows R p :=
  ⟨rfl, Extends.refl hR p.messages⟩

theorem ChannelRecord.Grows.trans (hR : ∀ m m' m'', R m m' → R m' m'' → R m m'')
    (c c' c'' : ChannelRecord) (h : c.Grows R c') (h' : c'.Grows R c'') : c.Grows R c'' :=
  ⟨h'.1.trans h.1, h'.2.1.trans h.2.1, h.2.2.trans hR h'.2.2⟩

theorem ScopedPmRecord.Grows.trans (hR : ∀ m m' m'', R m m' → R m' m'' → R m m'')
    (p p' p'' : ScopedPmRecord) (h : p.Grows R p') (h' : p'.Grows R p'') : p.Grows R p'' :=
  ⟨h'.1.trans h.1, h.2.trans hR h'.2⟩

theorem Evolves.refl (hR : ∀ m, R m m) (data : ArchiveData) : Evolves R data data :=
  ⟨Extends.refl (ChannelRecord.Grows.refl hR) _, Extends.refl (ScopedPmRecord.Grows.refl hR) _⟩

theorem Evolves.trans (hR : ∀ m m' m'', R m m' → R m' m'' → R m m'')
    {data data' data'' : ArchiveData} (h : Evolves R data data') (h' : Evolves R data' data'') :
    Evolves R data data'' :=
  ⟨h.1.trans (ChannelRecord.Grows.trans hR) h'.1, h.2.trans (ScopedPmRecord.Grows.trans hR) h'.2⟩

end Persistence

theorem pushUnseen_extends (messages : List Message) (m : Message) :
    Extends Message.Kept messages (pushUnseen messages m) :=
  extends_prefix Message.Kept.refl (prefix_pushUnseen messages m)

theorem grows_receive (remote : MemberId) (messageId : MessageId) (ts : ℕ)
    (body : List UInt8) (p : ScopedPmRecord) :
    p.Grows Message.Kept (p.receive remote messageId ts body) :=
  ⟨rfl, pushUnseen_extends p.messages _⟩

theorem evolves_event (data : ArchiveData) (e : ClientEvent) :
    Evolves Message.Kept data (applyArchiveEvent data e) := by
  have hc := ChannelRecord.Grows.refl Message.Kept.refl
  have hp := ScopedPmRecord.Grows.refl Message.Kept.refl
  have hpromote : ∀ messageId messages, Extends Message.Kept messages
      (messages.map (promote messageId)) :=
    fun messageId messages => extends_map (kept_promote messageId) messages
  have hdelivered : ∀ channel messageId,
      Evolves Message.Kept data (applyDelivered data channel messageId) := by
    intro channel messageId
    unfold applyDelivered
    split
    · exact Evolves.refl Message.Kept.refl data
    · refine ⟨extends_map (fun c => ?_) _, extends_map (fun p => ?_) _⟩
      · split
        · exact ⟨rfl, rfl, hpromote messageId c.messages⟩
        · exact hc c
      · split
        · exact ⟨rfl, hpromote messageId p.messages⟩
        · exact hp p
  cases e with
  | channelDelivered channel messageId => exact hdelivered channel messageId
  | channelDirectDelivered channel messageId => exact hdelivered channel messageId
  | channelMessage channel messageId ts sender senderIndex body =>
      refine ⟨extends_modifyFirst hc ?_ _, Extends.refl hp _⟩
      exact fun c => ⟨rfl, rfl, pushUnseen_extends c.messages _⟩
  | channelDirectMessage channel sender recipient messageId ts body =>
      rcases applyChannelDirectMessage_cases data channel sender recipient messageId ts body with
        ⟨-, heq⟩ | ⟨record, -, -, heq⟩
      · rw [applyArchiveEvent, heq]
        exact Evolves.refl Message.Kept.refl data
      · rw [applyArchiveEvent, heq]
        refine ⟨Extends.refl hc _, ?_⟩
        have hensure := extends_prefix hp (prefix_ensurePm data.scopedPms
          ⟨record.id, recipient, sender⟩ (remoteName record sender))
        exact hensure.trans (ScopedPmRecord.Grows.trans Message.Kept.trans)
          (extends_modifyFirst hp (grows_receive sender messageId ts body) _)
  | channelRemoved channel =>
      simp only [applyArchiveEvent, applyChannelRemoved]
      split
      · exact Evolves.refl Message.Kept.refl data
      · refine ⟨extends_modifyFirst hc ?_ _, extends_map (fun p => ?_) _⟩
        · exact fun c => hc c.deactivate
        · split
          · exact hp p.deactivate
          · exact hp p
  | channelRosterChanged => exact Evolves.refl Message.Kept.refl data
  | channelPresenceChanged => exact Evolves.refl Message.Kept.refl data
  | eventsLagged => exact Evolves.refl Message.Kept.refl data

theorem extends_append_self (messages : List Message) (m : Message) :
    Extends Message.Kept messages (messages ++ [m]) :=
  (Extends.refl Message.Kept.refl messages).append [m]

/-- Between two reloads every record and message stays, and no message loses the
state `delivered`. -/
theorem evolves_apply (data : ArchiveData) {op : Op} (hop : op ≠ .reopen) :
    Evolves Message.Kept data (op.apply data) := by
  have hc := ChannelRecord.Grows.refl Message.Kept.refl
  have hp := ScopedPmRecord.Grows.refl Message.Kept.refl
  cases op with
  | dropLost activeIds =>
      refine ⟨extends_map (fun c => ?_) _, extends_map (fun p => ?_) _⟩
      · split
        · exact hc c.deactivate
        · exact hc c
      · split
        · exact hp p.deactivate
        · exact hp p
  | mergeChannel joined roster now =>
      simp only [Op.apply, mergeChannel]
      split
      · refine ⟨extends_modifyFirst hc ?_ _, Extends.refl hp _⟩
        exact fun c => hc (c.merge joined _)
      · exact ⟨(Extends.refl hc _).append _, Extends.refl hp _⟩
  | rosterChanged channel roster =>
      simp only [Op.apply, rosterChanged]
      split
      · exact Evolves.refl Message.Kept.refl data
      · refine ⟨extends_modifyFirst hc ?_ _, extends_map (fun p => ?_) _⟩
        · exact fun c => hc (c.withMembers _)
        · split
          · exact hp p.deactivate
          · exact hp p
  | event e => exact evolves_event data e
  | openScopedPm channelId remote =>
      simp only [Op.apply]
      rcases openScopedPm_cases data channelId remote with ⟨⟨message, herr⟩, -⟩ |
        ⟨record, self, member, -, -, -, hok⟩
      · rw [herr]
        exact Evolves.refl Message.Kept.refl data
      · rw [hok]
        exact ⟨Extends.refl hc _, extends_prefix hp (prefix_ensurePm _ _ _)⟩
  | recordChannelSend id out =>
      refine ⟨extends_modifyFirst hc ?_ _, Extends.refl hp _⟩
      exact fun c => ⟨rfl, rfl, extends_append_self c.messages _⟩
  | recordScopedPmSend record id out =>
      rcases recordScopedPmSend_cases data record id out with ⟨-, herr⟩ | ⟨-, hok⟩
      · rw [Op.apply, herr]
        exact Evolves.refl Message.Kept.refl data
      · rw [Op.apply, hok]
        refine ⟨Extends.refl hc _, extends_modifyFirst hp ?_ _⟩
        exact fun p => ⟨rfl, extends_append_self p.messages _⟩
  | reopen => exact absurd rfl hop

/-- A reload keeps the contents. -/
theorem evolves_stored (data : ArchiveData) :
    Evolves Message.SameContent data data.stored := by
  have hm : ∀ messages : List Message,
      Extends Message.SameContent messages (messages.map Message.stored) :=
    extends_map fun m => rfl
  exact ⟨extends_map (fun c => ⟨rfl, rfl, hm c.messages⟩) _,
    extends_map (fun p => ⟨rfl, hm p.messages⟩) _⟩

end Archive

end GChat
