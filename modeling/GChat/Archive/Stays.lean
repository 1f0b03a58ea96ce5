import GChat.Archive.Run

/-!
# The record at a place

No operation moves a record, gives it another identity or makes it active again. So the place of
a record stands for a membership, and the key the record has once it is left does not depend on
when it is looked at.
-/

namespace GChat

namespace Archive

open Foundation

/-- A record keeps what its retained key is made of, and is not activated again. -/
def Retires (c c' : ChannelRecord) : Prop :=
  c'.joinedAtUnix = c.joinedAtUnix ∧ (c.active = false → c'.active = false)

theorem Retires.refl (c : ChannelRecord) : Retires c c := ⟨rfl, fun h => h⟩

theorem Retires.trans (c c' c'' : ChannelRecord) (h : Retires c c') (h' : Retires c' c'') :
    Retires c c'' :=
  ⟨h'.1.trans h.1, fun hc => h'.2 (h.2 hc)⟩

theorem retires_deactivate (c : ChannelRecord) : Retires c c.deactivate := ⟨rfl, fun _ => rfl⟩

theorem retires_event (data : ArchiveData) (e : ClientEvent) :
    Extends Retires data.channels (applyArchiveEvent data e).channels := by
  have hdelivered : ∀ channel messageId,
      Extends Retires data.channels (applyDelivered data channel messageId).channels := by
    intro channel messageId
    unfold applyDelivered
    split
    · exact Extends.refl Retires.refl _
    · apply extends_map
      intro c
      split
      · exact Retires.refl c
      · exact Retires.refl c
  cases e with
  | channelDelivered channel messageId => exact hdelivered channel messageId
  | channelDirectDelivered channel messageId => exact hdelivered channel messageId
  | channelMessage channel messageId ts sender senderIndex body =>
      refine extends_modifyFirst Retires.refl ?_ _
      exact fun c => Retires.refl c
  | channelDirectMessage channel sender recipient messageId ts body =>
      obtain ⟨-, hsame⟩ | ⟨record, -, -, hfiled⟩ :=
        applyChannelDirectMessage_cases data channel sender recipient messageId ts body
      · rw [applyArchiveEvent, hsame]
        exact Extends.refl Retires.refl _
      · rw [applyArchiveEvent, hfiled]
        exact Extends.refl Retires.refl _
  | channelRemoved channel =>
      simp only [applyArchiveEvent, applyChannelRemoved]
      split
      · exact Extends.refl Retires.refl _
      · exact extends_modifyFirst Retires.refl retires_deactivate _
  | channelRosterChanged channel => exact Extends.refl Retires.refl _
  | channelPresenceChanged channel memberId => exact Extends.refl Retires.refl _
  | eventsLagged skipped => exact Extends.refl Retires.refl _

theorem retires_apply (data : ArchiveData) (op : Op) :
    Extends Retires data.channels (op.apply data).channels := by
  cases op with
  | dropLost activeIds =>
      apply extends_map
      intro c
      split
      · exact retires_deactivate c
      · exact Retires.refl c
  | mergeChannel joined roster now =>
      simp only [Op.apply, mergeChannel]
      split
      · refine extends_modifyFirst Retires.refl ?_ _
        exact fun c => Retires.refl c
      · exact (Extends.refl Retires.refl _).append _
  | rosterChanged channel roster =>
      simp only [Op.apply, rosterChanged]
      split
      · exact Extends.refl Retires.refl _
      · refine extends_modifyFirst Retires.refl ?_ _
        exact fun c => Retires.refl c
  | event e => exact retires_event data e
  | openScopedPm channelId remote =>
      simp only [Op.apply]
      obtain ⟨⟨message, herr⟩, -⟩ | ⟨record, self, member, -, -, -, hok⟩ :=
        openScopedPm_cases data channelId remote
      · rw [herr]
        exact Extends.refl Retires.refl _
      · rw [hok]
        exact Extends.refl Retires.refl _
  | recordChannelSend id out =>
      refine extends_modifyFirst Retires.refl ?_ _
      exact fun c => Retires.refl c
  | recordScopedPmSend record id out =>
      obtain ⟨-, herr⟩ | ⟨-, hok⟩ := recordScopedPmSend_cases data record id out
      · rw [Op.apply, herr]
        exact Extends.refl Retires.refl _
      · rw [Op.apply, hok]
        exact Extends.refl Retires.refl _
  | reopen =>
      apply extends_map
      exact fun c => Retires.refl c

/-- The record at a place after a run: its identity, its messages, and whether it is active. -/
def Stays (c c' : ChannelRecord) : Prop := c.Grows Message.SameContent c' ∧ Retires c c'

theorem sameContent_refl (m : Message) : m.SameContent m := rfl

theorem sameContent_trans (m m' m'' : Message) (h : m.SameContent m') (h' : m'.SameContent m'') :
    m.SameContent m'' := Eq.trans h h'

theorem Stays.refl (c : ChannelRecord) : Stays c c :=
  ⟨ChannelRecord.Grows.refl sameContent_refl c, Retires.refl c⟩

theorem Stays.trans (c c' c'' : ChannelRecord) (h : Stays c c') (h' : Stays c' c'') :
    Stays c c'' :=
  ⟨ChannelRecord.Grows.trans sameContent_trans c c' c'' h.1 h'.1,
    Retires.trans c c' c'' h.2 h'.2⟩

theorem stays_apply (data : ArchiveData) (op : Op) :
    Extends Stays data.channels (op.apply data).channels := by
  have hgrows : Extends (ChannelRecord.Grows Message.SameContent) data.channels
      (op.apply data).channels := by
    by_cases hop : op = .reopen
    · subst hop
      exact (evolves_stored data).1
    · apply (evolves_apply data hop).1.mono
      rintro c c' ⟨hid, hself, hmessages⟩
      exact ⟨hid, hself, hmessages.mono Message.Kept.sameContent⟩
  intro i c hc
  obtain ⟨c', hc', hgrow⟩ := hgrows i c hc
  obtain ⟨d, hd, hretires⟩ := retires_apply data op i c hc
  rw [hc'] at hd
  cases hd
  exact ⟨c', hc', hgrow, hretires⟩

theorem stays_run (data : ArchiveData) (ops : List Op) :
    Extends Stays data.channels (ops.foldl Op.apply data).channels := by
  induction ops generalizing data with
  | nil => exact Extends.refl Stays.refl _
  | cons op ops ih => exact (stays_apply data op).trans Stays.trans (ih (op.apply data))

/-- The key of a record that was left does not depend on when it is looked at. -/
theorem recordKey_stays {c c' : ChannelRecord} (h : Stays c c') (hleft : c'.active = false) :
    recordKey c' = recordKey c.deactivate := by
  obtain ⟨⟨hid, hself, -⟩, hjoined, -⟩ := h
  rw [recordKey_eq_iff, recordIdentity_of_inactive hleft, recordIdentity_of_inactive rfl, hid,
    hself, hjoined]
  rfl

end Archive

end GChat
