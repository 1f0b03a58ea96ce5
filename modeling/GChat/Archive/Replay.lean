import GChat.Archive.Run
import GChat.Foundation.Replay

/-!
# Replayed deliveries

The durable inbox repeats a delivery until it is acknowledged. Projecting a
delivery leaves a trace in the archive, the identifier of its message in the
conversation the lookup finds. Later deliveries keep the trace, and where it is
present the projection changes nothing, so a run of deliveries with repetitions
gives the archive of the run without them. By the same check on identifiers no
delivery puts an identifier into a conversation twice.
-/

namespace GChat

namespace Archive

open Foundation

/-- The message of a delivery is already where the delivery would put it. -/
def Stored (data : ArchiveData) : ClientEvent → Prop
  | .channelMessage channel messageId _ _ _ _ =>
      data.channels.find? (names channel) = none ∨
        ∃ first, data.channels.find? (names channel) = some first ∧
          messageId ∈ first.messages.map (·.id)
  | .channelDirectMessage channel sender recipient messageId _ _ =>
      (∀ first, data.channels.find? (names channel) = some first →
        first.selfMemberId ≠ some recipient) ∨
        ∃ first, data.channels.find? (names channel) = some first ∧
          first.selfMemberId = some recipient ∧
          ∃ p, (data.scopedPms.find? fun p => p.id == ⟨first.id, recipient, sender⟩) = some p ∧
            messageId ∈ p.messages.map (·.id)
  | _ => True

def ClientEvent.IsDelivery (e : ClientEvent) : Prop := e.deliveryChannel.isSome = true

/-- What the lookups read of a record. -/
def ChannelRecord.header (c : ChannelRecord) : String × ChannelId × Option MemberId :=
  (c.protocolName, c.id, c.selfMemberId)

theorem headers_delivery (data : ArchiveData) {e : ClientEvent} (he : e.IsDelivery) :
    (applyArchiveEvent data e).channels.map ChannelRecord.header =
      data.channels.map ChannelRecord.header := by
  cases e with
  | channelMessage channel messageId ts sender senderIndex body =>
      exact map_modifyFirst_of_eq (fun c => by rfl) _
  | channelDirectMessage channel sender recipient messageId ts body =>
      rcases applyChannelDirectMessage_cases data channel sender recipient messageId ts body with
        ⟨-, heq⟩ | ⟨record, -, -, heq⟩
      · rw [applyArchiveEvent, heq]
      · rw [applyArchiveEvent, heq]
  | channelDelivered => cases he
  | channelDirectDelivered => cases he
  | channelRemoved => cases he
  | channelRosterChanged => cases he
  | channelPresenceChanged => cases he
  | eventsLagged => cases he

theorem map_header_find?_names (l : List ChannelRecord) (channel : String) :
    (l.find? (names channel)).map ChannelRecord.header =
      (l.map ChannelRecord.header).find? fun h => h.1 == channel := by
  rw [List.find?_map]
  rfl

theorem header_find?_delivery (data : ArchiveData) {e : ClientEvent} (he : e.IsDelivery)
    (channel : String) :
    ((applyArchiveEvent data e).channels.find? (names channel)).map ChannelRecord.header =
      (data.channels.find? (names channel)).map ChannelRecord.header := by
  rw [map_header_find?_names, map_header_find?_names, headers_delivery data he]

/-- The record found by a name stays the one found, and keeps its messages. -/
theorem find?_names_delivery {data : ArchiveData} {e : ClientEvent} (he : e.IsDelivery)
    {channel : String} {first : ChannelRecord}
    (h : data.channels.find? (names channel) = some first) :
    ∃ first', (applyArchiveEvent data e).channels.find? (names channel) = some first' ∧
      first'.header = first.header ∧ first.Grows Message.Kept first' :=
  ((evolves_event data e).1.and_map (headers_delivery data he)).find?
    (fun c c' hcc' => by
      have hname := congrArg Prod.fst hcc'.1
      rw [names, names, show c'.protocolName = c.protocolName from hname]) h

theorem mem_ids_of_extends {messages messages' : List Message}
    (h : Extends Message.Kept messages messages') {messageId : MessageId}
    (hm : messageId ∈ messages.map (·.id)) : messageId ∈ messages'.map (·.id) := by
  obtain ⟨m, hmem, rfl⟩ := List.mem_map.mp hm
  obtain ⟨m', hm', hkept⟩ := h.mem hmem
  exact List.mem_map.mpr ⟨m', hm', by rw [← hkept.1]⟩

/-! ### The trace of a delivery -/

theorem apply_of_stored {data : ArchiveData} {e : ClientEvent} (he : e.IsDelivery)
    (h : Stored data e) : applyArchiveEvent data e = data := by
  cases e with
  | channelMessage channel messageId ts sender senderIndex body =>
      rw [applyArchiveEvent, applyChannelMessage]
      rcases h with hnone | ⟨first, hfirst, hm⟩
      · rw [modifyFirst_of_find?_eq_none hnone]
      · rw [modifyFirst_of_fixed hfirst (receive_eq_self_iff.mpr hm)]
  | channelDirectMessage channel sender recipient messageId ts body =>
      rcases applyChannelDirectMessage_cases data channel sender recipient messageId ts body with
        ⟨-, heq⟩ | ⟨record, hrecord, hself, heq⟩
      · rw [applyArchiveEvent, heq]
      · rcases h with hno | ⟨first, hfirst, -, p, hp, hm⟩
        · exact absurd hself (hno record hrecord)
        · cases hrecord.symm.trans hfirst
          have hid : (⟨record.id, recipient, sender⟩ : ScopedPmId) ∈
              data.scopedPms.map (·.id) :=
            List.mem_map.mpr ⟨p, List.mem_of_find?_eq_some hp, by simpa using List.find?_some hp⟩
          have hfixed : p.receive sender messageId ts body = p := by
            rw [ScopedPmRecord.receive, pushUnseen_of_mem hm]
          rw [applyArchiveEvent, heq, ensurePm_of_mem hid, modifyFirst_of_fixed hp hfixed]
  | channelDelivered => cases he
  | channelDirectDelivered => cases he
  | channelRemoved => cases he
  | channelRosterChanged => cases he
  | channelPresenceChanged => cases he
  | eventsLagged => cases he

theorem exists_find?_ensurePm (pms : List ScopedPmRecord) (id : ScopedPmId) (name : String) :
    ∃ p, ((ensurePm pms id name).find? fun p => p.id == id) = some p := by
  have hmem : id ∈ (ensurePm pms id name).map (·.id) := by
    by_cases hid : id ∈ pms.map (·.id)
    · rwa [ensurePm_of_mem hid]
    · rw [ensurePm_of_not_mem hid]
      simp
  obtain ⟨p, hp, hpid⟩ := List.mem_map.mp hmem
  obtain ⟨q, hq, -⟩ := exists_find?_of_mem (p := fun p => p.id == id) hp (by simp [hpid])
  exact ⟨q, hq⟩

theorem stored_apply (data : ArchiveData) {e : ClientEvent} (he : e.IsDelivery) :
    Stored (applyArchiveEvent data e) e := by
  cases e with
  | channelMessage channel messageId ts sender senderIndex body =>
      have hfind : (applyChannelMessage data channel messageId ts sender senderIndex
          body).channels.find? (names channel) = (data.channels.find? (names channel)).map
            (ChannelRecord.receive messageId ts sender senderIndex body) :=
        find?_modifyFirst (fun c => by rfl) data.channels
      rw [applyArchiveEvent]
      cases hfirst : data.channels.find? (names channel) with
      | none => exact Or.inl (by rw [hfind, hfirst, Option.map_none])
      | some first =>
          refine Or.inr ⟨_, by rw [hfind, hfirst, Option.map_some], ?_⟩
          exact mem_ids_receive first messageId ts sender senderIndex body
  | channelDirectMessage channel sender recipient messageId ts body =>
      rcases applyChannelDirectMessage_cases data channel sender recipient messageId ts body with
        ⟨hno, heq⟩ | ⟨record, hrecord, hself, heq⟩
      · rw [applyArchiveEvent, heq]
        exact Or.inl hno
      · rw [applyArchiveEvent, heq]
        obtain ⟨p, hp⟩ := exists_find?_ensurePm data.scopedPms ⟨record.id, recipient, sender⟩
          (remoteName record sender)
        refine Or.inr ⟨record, hrecord, hself, p.receive sender messageId ts body, ?_,
          mem_ids_pushUnseen p.messages _⟩
        rw [find?_modifyFirst fun p => by rfl, hp, Option.map_some]
  | channelDelivered => cases he
  | channelDirectDelivered => cases he
  | channelRemoved => cases he
  | channelRosterChanged => cases he
  | channelPresenceChanged => cases he
  | eventsLagged => cases he

theorem stored_delivery {data : ArchiveData} {e e' : ClientEvent} (he' : e'.IsDelivery)
    (h : Stored data e) : Stored (applyArchiveEvent data e') e := by
  cases e with
  | channelMessage channel messageId ts sender senderIndex body =>
      rcases h with hnone | ⟨first, hfirst, hm⟩
      · have hheader := header_find?_delivery data he' channel
        rw [hnone, Option.map_none, Option.map_eq_none_iff] at hheader
        exact Or.inl hheader
      · obtain ⟨first', hfirst', -, -, -, hgrown⟩ := find?_names_delivery he' hfirst
        exact Or.inr ⟨first', hfirst', mem_ids_of_extends hgrown hm⟩
  | channelDirectMessage channel sender recipient messageId ts body =>
      rcases h with hno | ⟨first, hfirst, hself, p, hp, hm⟩
      · refine Or.inl fun first' hfirst' hself' => ?_
        have hheader := header_find?_delivery data he' channel
        rw [hfirst', Option.map_some] at hheader
        obtain ⟨first, hfirst, heq⟩ := Option.map_eq_some_iff.mp hheader.symm
        refine hno first hfirst (Eq.trans ?_ hself')
        exact congrArg (fun h => h.2.2) heq
      · obtain ⟨first', hfirst', -, hid, hself', -⟩ := find?_names_delivery he' hfirst
        obtain ⟨p', hp', -, hgrown⟩ := (evolves_event data e').2.find?
          (fun q q' hqq' => by rw [hqq'.1]) hp
        rw [← hid] at hp'
        exact Or.inr ⟨first', hfirst', hself'.trans hself, p', hp', mem_ids_of_extends hgrown hm⟩
  | channelDelivered => trivial
  | channelDirectDelivered => trivial
  | channelRemoved => trivial
  | channelRosterChanged => trivial
  | channelPresenceChanged => trivial
  | eventsLagged => trivial

/-- Repeating deliveries changes nothing. -/
theorem foldl_replays_deliveries (data : ArchiveData) {events run : List ClientEvent}
    (h : Replays events run) (hevents : ∀ e ∈ events, e.IsDelivery) :
    run.foldl applyArchiveEvent data = events.foldl applyArchiveEvent data := by
  refine foldl_replays ClientEvent.IsDelivery Stored ?_ ?_ ?_ data h hevents
  · exact fun data e he hs => apply_of_stored he hs
  · exact fun data e he => stored_apply data he
  · exact fun data e e' he' hs => stored_delivery he' hs

/-! ### Distinct identifiers -/

def ChannelRecord.ids (c : ChannelRecord) : List MessageId := c.messages.map (·.id)

def ScopedPmRecord.ids (p : ScopedPmRecord) : List MessageId := p.messages.map (·.id)

/-- No conversation holds two messages of one identifier. -/
def DistinctIds (data : ArchiveData) : Prop :=
  (∀ c ∈ data.channels, c.ids.Nodup) ∧ ∀ p ∈ data.scopedPms, p.ids.Nodup

/-- The message of a send is new to its conversation. -/
def FreshSend (data : ArchiveData) : Op → Prop
  | .recordChannelSend id out => ∀ c ∈ data.channels, c.id = id →
      out.messageId ∉ c.ids
  | .recordScopedPmSend _ id out => ∀ p ∈ data.scopedPms, p.id = id →
      out.messageId ∉ p.ids
  | _ => True

theorem nodup_ids_sent {messages : List Message} (h : (messages.map (·.id)).Nodup) {m : Message}
    (hm : m.id ∉ messages.map (·.id)) : ((messages ++ [m]).map (·.id)).Nodup := by
  rw [List.map_append]
  exact h.append (List.nodup_singleton _) (by simpa using hm)

/-- An operation that adds no message keeps the identifiers distinct. -/
theorem distinctIds_of_noNewIds {data data' : ArchiveData} (h : DistinctIds data)
    (hchannels : ∀ c' ∈ data'.channels, c'.ids = [] ∨ ∃ c ∈ data.channels, c'.ids = c.ids)
    (hpms : ∀ p' ∈ data'.scopedPms, p'.ids = [] ∨ ∃ p ∈ data.scopedPms, p'.ids = p.ids) :
    DistinctIds data' := by
  refine ⟨fun c' hc' => ?_, fun p' hp' => ?_⟩
  · rcases hchannels c' hc' with hnil | ⟨c, hc, heq⟩
    · rw [hnil]
      exact List.nodup_nil
    · exact heq ▸ h.1 c hc
  · rcases hpms p' hp' with hnil | ⟨p, hp, heq⟩
    · rw [hnil]
      exact List.nodup_nil
    · exact heq ▸ h.2 p hp

section NoNewIds

variable {α β : Type*} {l : List α} {f : α → α} {ids : α → List β}

theorem noNewIds_refl (l : List α) :
    ∀ x' ∈ l, ids x' = [] ∨ ∃ x ∈ l, ids x' = ids x :=
  fun x hx => Or.inr ⟨x, hx, rfl⟩

theorem noNewIds_map (hf : ∀ x, ids (f x) = ids x) :
    ∀ x' ∈ l.map f, ids x' = [] ∨ ∃ x ∈ l, ids x' = ids x := by
  intro x' hx'
  obtain ⟨x, hx, rfl⟩ := List.mem_map.mp hx'
  exact Or.inr ⟨x, hx, hf x⟩

theorem noNewIds_modifyFirst {q : α → Bool} (hf : ∀ x, ids (f x) = ids x) :
    ∀ x' ∈ modifyFirst q f l, ids x' = [] ∨ ∃ x ∈ l, ids x' = ids x := by
  intro x' hx'
  rcases mem_modifyFirst hx' with hx | ⟨x, hfind, rfl⟩
  · exact Or.inr ⟨x', hx, rfl⟩
  · exact Or.inr ⟨x, List.mem_of_find?_eq_some hfind, hf x⟩

theorem noNewIds_append {x : α} (hx : ids x = []) :
    ∀ x' ∈ l ++ [x], ids x' = [] ∨ ∃ x ∈ l, ids x' = ids x := by
  intro x' hx'
  rcases List.mem_append.mp hx' with hold | hnew
  · exact Or.inr ⟨x', hold, rfl⟩
  · exact Or.inl (List.mem_singleton.mp hnew ▸ hx)

end NoNewIds

theorem noNewIds_ensurePm (pms : List ScopedPmRecord) (id : ScopedPmId) (name : String) :
    ∀ p' ∈ ensurePm pms id name, p'.ids = [] ∨ ∃ p ∈ pms, p'.ids = p.ids := by
  unfold ensurePm
  split
  · exact noNewIds_refl pms
  · exact noNewIds_append rfl

theorem distinctIds_event {data : ArchiveData} (h : DistinctIds data) (e : ClientEvent) :
    DistinctIds (applyArchiveEvent data e) := by
  have hdelivered : ∀ channel messageId,
      DistinctIds (applyDelivered data channel messageId) := by
    intro channel messageId
    unfold applyDelivered
    split
    · exact h
    · refine distinctIds_of_noNewIds h (noNewIds_map fun c => ?_) (noNewIds_map fun p => ?_)
      · split
        · exact map_id_promote messageId c.messages
        · rfl
      · split
        · exact map_id_promote messageId p.messages
        · rfl
  cases e with
  | channelDelivered channel messageId => exact hdelivered channel messageId
  | channelDirectDelivered channel messageId => exact hdelivered channel messageId
  | channelMessage channel messageId ts sender senderIndex body =>
      refine ⟨fun c' hc' => ?_, h.2⟩
      rcases mem_modifyFirst hc' with hc | ⟨c, hfind, rfl⟩
      · exact h.1 c' hc
      · exact nodup_ids_pushUnseen _ (h.1 c (List.mem_of_find?_eq_some hfind))
  | channelDirectMessage channel sender recipient messageId ts body =>
      rcases applyChannelDirectMessage_cases data channel sender recipient messageId ts body with
        ⟨-, heq⟩ | ⟨record, -, -, heq⟩
      · rwa [applyArchiveEvent, heq]
      · rw [applyArchiveEvent, heq]
        have hensure : DistinctIds { data with
            scopedPms := ensurePm data.scopedPms ⟨record.id, recipient, sender⟩
              (remoteName record sender) } :=
          distinctIds_of_noNewIds h (noNewIds_refl _) (noNewIds_ensurePm _ _ _)
        refine ⟨h.1, fun p' hp' => ?_⟩
        rcases mem_modifyFirst hp' with hp | ⟨p, hfind, rfl⟩
        · exact hensure.2 p' hp
        · exact nodup_ids_pushUnseen _ (hensure.2 p (List.mem_of_find?_eq_some hfind))
  | channelRemoved channel =>
      simp only [applyArchiveEvent, applyChannelRemoved]
      split
      · exact h
      · refine distinctIds_of_noNewIds h (noNewIds_modifyFirst fun c => by rfl)
          (noNewIds_map fun p => ?_)
        split <;> rfl
  | channelRosterChanged => exact h
  | channelPresenceChanged => exact h
  | eventsLagged => exact h

/-- Every operation keeps the identifiers of each conversation distinct, a recorded
send provided its identifier is new there. -/
theorem distinctIds_apply {data : ArchiveData} (h : DistinctIds data) {op : Op}
    (hop : FreshSend data op) : DistinctIds (op.apply data) := by
  cases op with
  | dropLost activeIds =>
      refine distinctIds_of_noNewIds h (noNewIds_map fun c => ?_) (noNewIds_map fun p => ?_)
      · split <;> rfl
      · split <;> rfl
  | mergeChannel joined roster now =>
      simp only [Op.apply, mergeChannel]
      split
      · exact distinctIds_of_noNewIds h (noNewIds_modifyFirst fun c => by rfl)
          (noNewIds_refl _)
      · exact distinctIds_of_noNewIds h (noNewIds_append rfl) (noNewIds_refl _)
  | rosterChanged channel roster =>
      simp only [Op.apply, rosterChanged]
      split
      · exact h
      · refine distinctIds_of_noNewIds h (noNewIds_modifyFirst fun c => by rfl)
          (noNewIds_map fun p => ?_)
        split <;> rfl
  | event e => exact distinctIds_event h e
  | openScopedPm channelId remote =>
      rcases openScopedPm_cases data channelId remote with ⟨⟨message, herr⟩, -⟩ |
        ⟨record, self, member, -, -, -, hok⟩
      · rwa [Op.apply, herr]
      · rw [Op.apply, hok]
        exact distinctIds_of_noNewIds h (noNewIds_refl _) (noNewIds_ensurePm _ _ _)
  | recordChannelSend id out =>
      refine ⟨fun c' hc' => ?_, h.2⟩
      rcases mem_modifyFirst hc' with hc | ⟨c, hfind, rfl⟩
      · exact h.1 c' hc
      · have hc := List.mem_of_find?_eq_some hfind
        have hp := List.find?_some hfind
        rw [Bool.and_eq_true, beq_iff_eq] at hp
        exact nodup_ids_sent (h.1 c hc) (hop c hc hp.2)
  | recordScopedPmSend record id out =>
      rcases recordScopedPmSend_cases data record id out with ⟨-, herr⟩ | ⟨-, hok⟩
      · rwa [Op.apply, herr]
      · rw [Op.apply, hok]
        refine ⟨h.1, fun p' hp' => ?_⟩
        rcases mem_modifyFirst hp' with hp | ⟨p, hfind, rfl⟩
        · exact h.2 p' hp
        · have hp := List.mem_of_find?_eq_some hfind
          have hpid := List.find?_some hfind
          rw [Bool.and_eq_true, beq_iff_eq] at hpid
          exact nodup_ids_sent (h.2 p hp) (hop p hp hpid.1)
  | reopen =>
      have hstored : ∀ messages : List Message,
          (messages.map Message.stored).map (·.id) = messages.map (·.id) := by
        intro messages
        rw [List.map_map]
        rfl
      exact distinctIds_of_noNewIds h (noNewIds_map fun c => hstored c.messages)
        (noNewIds_map fun p => hstored p.messages)

theorem distinctIds_of_reachable {daemonSafetyNumber : String} {data : ArchiveData}
    (h : ((archiveMachine daemonSafetyNumber).restrict FreshSend).Reachable data) :
    DistinctIds data := by
  refine h.invariant ?_ ?_
  · rintro data rfl
    exact ⟨fun _ hc => absurd hc List.not_mem_nil, fun _ hp => absurd hp List.not_mem_nil⟩
  · rintro data op _ - hdata ⟨hop, rfl⟩
    exact distinctIds_apply hdata hop

end Archive

end GChat
