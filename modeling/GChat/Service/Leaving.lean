import GChat.Archive.Stays
import GChat.Service.History
import GChat.Service.Preferences

/-!
# What is kept of a channel that is left

Read markers, ignored members and muted conversations are filed under the key of a conversation.
A record that becomes inactive gets another key, and nothing is carried over: all its messages
from others count as unread again and are shown again. So leaving keeps what was read and hidden
exactly if there was nothing of it.
-/

namespace GChat

namespace Service

open Foundation Commands

/-! ### Unread messages -/

/-- The largest number of unread messages that is shown. -/
def unreadLimit : ℕ := 4294967295

section Unread

variable {Rest : Type} (state : UiState Rest) (conversation : String)

/-- Where the messages begin that were not read. -/
def unreadStart (messages : List Archive.Message) : ℕ :=
  ((state.read[conversation]?.bind (position (messages.map fun m => hex m.id.toList))).map
    (· + 1)).getD 0

/-- The preferences hide the message. -/
def hides (m : Archive.Message) : Bool :=
  state.preferences.ignores conversation (m.senderMemberId.map fun id => hex id.toList) m.mine

def unread (messages : List Archive.Message) : ℕ :=
  min ((messages.drop (unreadStart state conversation messages)).countP fun m =>
    !m.mine && !hides state conversation m) unreadLimit

/-- The number that is shown; it is zero for a muted conversation. -/
def shownUnread (messages : List Archive.Message) : ℕ :=
  if state.preferences.mutes conversation then 0 else unread state conversation messages

end Unread

/-! ### The requests of a profile -/

/-- A profile: its archive, and the state of the service. -/
structure Account (Rest : Type) where
  archive : Archive.ArchiveData
  state : UiState Rest

/-- The key of a record that is not active begins so. -/
def isRetained (conversation : String) : Bool := startsWith conversation "archive/"

/-- A conversation that is none of the archive. -/
def OtherRoom : Type := { room : Room // isRetained room.id = false }

def roomMembers (members : List Archive.MemberRecord) : List RoomMember :=
  members.map fun m => ⟨hex m.id.toList, m.displayName, m.isSelf⟩

/-- The conversations of the archive as they are projected. -/
def projectedRooms (archive : Archive.ArchiveData) : List Room :=
  archive.channels.map (fun c => ⟨Archive.recordKey c, roomMembers c.members⟩) ++
    archive.scopedPms.map fun p =>
      ⟨Archive.queryKey p.id,
        ((archive.channels.find? fun c => c.id == p.id.channelId).map fun c =>
          roomMembers c.members).getD []⟩

/-- What happens to a profile. `other` stands for the requests that do not look at the
conversations of the archive. -/
inductive Happening (Rest : Type) where
  | archive (op : Archive.Op)
  | markRead (conversation message : String)
  | preference (others : List OtherRoom) (conversation : Option String) (text : String)
  | other (state : UiState Rest)

section Account

variable {Rest : Type}

/-- Move the read marker of a conversation of the archive. -/
def Account.markRead (a : Account Rest) (conversation message : String) : Account Rest :=
  match conversationMessages a.archive conversation with
  | .error _ => a
  | .ok messages =>
      let ids := messages.map fun m => hex m.id.toList
      match position ids message with
      | none => a
      | some requested =>
          if movesMarker ids a.state.read[conversation]? requested then
            { a with state := { a.state with read := a.state.read.insert conversation message } }
          else a

variable (lowercase : String → String) (builtin : List String)

def Account.act (a : Account Rest) : Happening Rest → Account Rest
  | .archive op => { a with archive := op.apply a.archive }
  | .markRead conversation message => a.markRead conversation message
  | .preference others conversation text =>
      let rooms := projectedRooms a.archive ++ others.map (·.1)
      match submitPreference lowercase builtin a.state.preferences
          (conversation.bind fun id => rooms.find? fun r => r.id == id) text with
      | .error _ => a
      | .ok (preferences, _) => { a with state := { a.state with preferences := preferences } }
  | .other state => { a with state := state }

/-- The other requests write neither the preferences nor a read marker of a retained record. -/
def Happening.Allowed (a : Account Rest) : Happening Rest → Prop
  | .other state => state.preferences = a.state.preferences ∧
      ∀ k, isRetained k = true → state.read[k]? = a.state.read[k]?
  | _ => True

/-- The profiles from their creation on. -/
def accountMachine : Machine (Account Rest) (Happening Rest) where
  start a := (∃ daemon, a.archive = .create daemon) ∧ ∃ rest, a.state = .default rest
  next a h b := h.Allowed a ∧ b = a.act lowercase builtin h

end Account

/-! ### Where things are filed -/

theorem isRetained_recordKey (c : Archive.ChannelRecord) :
    isRetained (Archive.recordKey c) = !c.active := by
  cases hactive : c.active with
  | true =>
      rw [Bool.not_true, ← Bool.not_eq_true, isRetained, startsWith_iff,
        Archive.toList_recordKey, Archive.recordIdentity_of_active hactive]
      rintro ⟨rest, hrest⟩
      exact absurd (List.cons.inj hrest).1 (by decide)
  | false =>
      rw [Bool.not_false, isRetained, startsWith_iff, Archive.toList_recordKey,
        Archive.recordIdentity_of_inactive hactive]
      exact List.prefix_append _ _

theorem isRetained_queryKey (id : Archive.ScopedPmId) :
    isRetained (Archive.queryKey id) = false := by
  rw [← Bool.not_eq_true, isRetained, startsWith_iff, Archive.toList_queryKey]
  rintro ⟨rest, hrest⟩
  exact absurd (List.cons.inj hrest).1 (by decide)

/-- Something is filed under the key. -/
def UiState.Files {Rest : Type} (state : UiState Rest) (k : String) : Prop :=
  state.read[k]?.isSome = true ∨ state.preferences.muted.contains k = true ∨
    state.preferences.ignored.contains k = true

/-- What is filed under the key of a retained record is filed for a record. -/
def Account.Scoped {Rest : Type} (a : Account Rest) : Prop :=
  ∀ k, isRetained k = true → a.state.Files k →
    ∃ c ∈ a.archive.channels, c.active = false ∧ Archive.recordKey c = k

/-! ### Nothing is filed for a record before it is left -/

section Scoped

variable {Rest : Type} {lowercase : String → String} {builtin : List String} {a b : Account Rest}

theorem Account.Scoped.archive (h : a.Scoped) (op : Archive.Op) :
    ({ a with archive := op.apply a.archive } : Account Rest).Scoped := by
  intro k hk hfiles
  obtain ⟨c, hc, hleft, hkey⟩ := h k hk hfiles
  obtain ⟨c', hc', hstays⟩ := (Archive.stays_apply a.archive op).mem hc
  have hleft' := hstays.2.2 hleft
  refine ⟨c', hc', hleft', ?_⟩
  rw [Archive.recordKey_stays hstays hleft', ← hkey]
  exact (Archive.recordKey_stays (Archive.Stays.refl c) hleft).symm

/-- A conversation of the archive with the key of a retained record is one. -/
theorem exists_of_messages {archive : Archive.ArchiveData} {k : String}
    {messages : List Archive.Message} (h : conversationMessages archive k = .ok messages)
    (hk : isRetained k = true) :
    ∃ c ∈ archive.channels, c.active = false ∧ Archive.recordKey c = k := by
  unfold conversationMessages at h
  split at h
  next c hfind =>
    have hkey : Archive.recordKey c = k := by simpa using List.find?_some hfind
    refine ⟨c, List.mem_of_find?_eq_some hfind, ?_, hkey⟩
    rw [← hkey, isRetained_recordKey] at hk
    simpa using hk
  next =>
    split at h
    next p hfind =>
      have hkey : Archive.queryKey p.id = k := by simpa using List.find?_some hfind
      rw [← hkey, isRetained_queryKey] at hk
      cases hk
    next => cases h

theorem exists_of_room {archive : Archive.ArchiveData} {others : List OtherRoom} {r : Room}
    (h : r ∈ projectedRooms archive ++ others.map (·.1)) (hk : isRetained r.id = true) :
    ∃ c ∈ archive.channels, c.active = false ∧ Archive.recordKey c = r.id := by
  obtain h | h := List.mem_append.mp h
  · obtain h | h := List.mem_append.mp h
    · obtain ⟨c, hc, rfl⟩ := List.mem_map.mp h
      rw [isRetained_recordKey] at hk
      exact ⟨c, hc, by simpa using hk, rfl⟩
    · obtain ⟨p, hp, rfl⟩ := List.mem_map.mp h
      rw [isRetained_queryKey] at hk
      cases hk
  · obtain ⟨o, -, rfl⟩ := List.mem_map.mp h
    rw [o.2] at hk
    cases hk

theorem Account.Scoped.markRead (h : a.Scoped) (conversation message : String) :
    (a.markRead conversation message).Scoped := by
  unfold Account.markRead
  split
  · exact h
  next messages hmessages =>
    dsimp only
    split
    · exact h
    · split
      · intro k hk hfiles
        by_cases hkey : conversation = k
        · subst hkey
          exact exists_of_messages hmessages hk
        · apply h k hk
          unfold UiState.Files at hfiles ⊢
          rwa [StringMap.get_insert_of_ne _ _ hkey] at hfiles
      · exact h

theorem Account.Scoped.act (h : a.Scoped) (x : Happening Rest) (hallowed : x.Allowed a) :
    (a.act lowercase builtin x).Scoped := by
  cases x with
  | archive op => exact h.archive op
  | markRead conversation message => exact h.markRead conversation message
  | preference others conversation text =>
      simp only [Account.act]
      split
      · exact h
      next preferences lines hsubmit =>
        have hfiled := Preferences.filedUnder_submit hsubmit
        have hroom : ∀ k, isRetained k = true →
            (conversation.bind fun id => (projectedRooms a.archive ++ others.map (·.1)).find?
              fun r => r.id == id).map (·.id) = some k →
            ∃ c ∈ a.archive.channels, c.active = false ∧ Archive.recordKey c = k := by
          intro k hk hroom
          obtain ⟨r, hr, rfl⟩ := Option.map_eq_some_iff.mp hroom
          obtain ⟨id, -, hfind⟩ := Option.bind_eq_some_iff.mp hr
          exact exists_of_room (List.mem_of_find?_eq_some hfind) hk
        intro k hk hfiles
        obtain hread | hmuted | hignored := hfiles
        · exact h k hk (Or.inl hread)
        · obtain hold | hnew := hfiled.muted k hmuted
          · exact h k hk (Or.inr (Or.inl hold))
          · exact hroom k hk hnew
        · obtain hold | hnew := hfiled.ignored k hignored
          · exact h k hk (Or.inr (Or.inr hold))
          · exact hroom k hk hnew
  | other state =>
      obtain ⟨hpreferences, hread⟩ := hallowed
      intro k hk hfiles
      apply h k hk
      unfold UiState.Files at hfiles ⊢
      rw [← hread k hk, ← hpreferences]
      exact hfiles

theorem scoped_of_reachable (h : (accountMachine lowercase builtin).Reachable a) : a.Scoped := by
  refine h.invariant ?_ ?_
  · rintro a ⟨-, rest, hstate⟩ k - hfiles
    rw [hstate] at hfiles
    simp [UiState.Files, UiState.default, Preferences.default] at hfiles
  · rintro a x b - hscoped ⟨hallowed, rfl⟩
    exact hscoped.act x hallowed

end Scoped

/-! ### What leaving keeps -/

section Leaving

variable {Rest : Type}

/-- The messages of `c` that are in `c'`, the record after the channel was left, count as unread
as before, and those that were hidden are hidden. -/
structure KeepsRead (state : UiState Rest) (c c' : Archive.ChannelRecord) : Prop where
  unread : shownUnread state (Archive.recordKey c') (c'.messages.take c.messages.length) =
    shownUnread state (Archive.recordKey c) c.messages
  hidden : ∀ (i : ℕ) (m m' : Archive.Message), c.messages[i]? = some m → c'.messages[i]? = some m' →
    state.preferences.shows (message state.messageMetadata (Archive.recordKey c) m) = false →
      state.preferences.shows (message state.messageMetadata (Archive.recordKey c') m') = false

/-- Nothing is hidden, and the conversation is not muted and no message was read, but for own
messages; or more messages are unread than can be shown. -/
structure Untouched (state : UiState Rest) (c : Archive.ChannelRecord) : Prop where
  shown : ∀ m ∈ c.messages, hides state (Archive.recordKey c) m = false
  unread : (∀ (i : ℕ) (m : Archive.Message), c.messages[i]? = some m → m.mine = false →
      state.preferences.mutes (Archive.recordKey c) = false ∧
        unreadStart state (Archive.recordKey c) c.messages ≤ i) ∨
    unreadLimit ≤ shownUnread state (Archive.recordKey c) c.messages

/-- Messages of others. -/
def incoming (messages : List Archive.Message) : ℕ := messages.countP fun m => !m.mine

theorem incoming_eq_zero {messages : List Archive.Message} :
    incoming messages = 0 ↔ ∀ m ∈ messages, m.mine = true := by
  simp [incoming]

/-- The messages of others that stand before a place. -/
theorem incoming_take_eq_zero {messages : List Archive.Message} {n : ℕ} :
    incoming (messages.take n) = 0 ↔
      ∀ i m, messages[i]? = some m → m.mine = false → n ≤ i := by
  rw [incoming_eq_zero]
  constructor
  · intro h i m hm hmine
    by_contra hi
    have hmem : m ∈ messages.take n := by
      apply List.mem_of_getElem? (i := i)
      rw [List.getElem?_take_of_lt (by omega), hm]
    rw [h m hmem] at hmine
    cases hmine
  · intro h m hm
    obtain ⟨i, hi⟩ := List.mem_iff_getElem?.mp hm
    cases hmine : m.mine with
    | true => rfl
    | false =>
        rw [List.getElem?_take] at hi
        split at hi
        · have := h i m hi hmine
          omega
        · cases hi

variable {state : UiState Rest} {c c' : Archive.ChannelRecord}

theorem unfiled {k : String} (h : ¬ state.Files k) :
    state.read[k]? = none ∧ state.preferences.muted.contains k = false ∧
      state.preferences.ignored[k]? = none := by
  unfold UiState.Files at h
  rw [StringMap.contains_eq_isSome state.preferences.ignored, not_or, not_or,
    Option.not_isSome_iff_eq_none, Option.not_isSome_iff_eq_none, Bool.not_eq_true] at h
  exact h

/-- Under a key for which nothing is filed everything of others is unread. -/
theorem shownUnread_unfiled {k : String} (h : ¬ state.Files k) (messages : List Archive.Message) :
    shownUnread state k messages = min (incoming messages) unreadLimit := by
  obtain ⟨hread, hmuted, hignored⟩ := unfiled h
  simp [shownUnread, Preferences.mutes, hmuted, unread, unreadStart, hread, hides,
    Preferences.ignores, hignored, incoming]

theorem shows_unfiled {k : String} (h : ¬ state.Files k) (m : Archive.Message) :
    state.preferences.shows (message state.messageMetadata k m) = true := by
  simp [Preferences.shows, Preferences.ignores, message, (unfiled h).2.2]

theorem shows_eq (k : String) (m : Archive.Message) :
    state.preferences.shows (message state.messageMetadata k m) = !hides state k m := rfl

/-- Without hidden messages, the unread ones are those of others behind the marker. -/
theorem unread_of_shown {k : String} {messages : List Archive.Message}
    (h : ∀ m ∈ messages, hides state k m = false) :
    unread state k messages =
      min (incoming (messages.drop (unreadStart state k messages))) unreadLimit := by
  unfold unread incoming
  congr 1
  apply List.countP_congr
  intro m hm
  simp [h m (List.mem_of_mem_drop hm)]

/-- All messages of others count as unread exactly if none was read and they are not muted. -/
theorem shownUnread_eq_iff {k : String} {messages : List Archive.Message}
    (h : ∀ m ∈ messages, hides state k m = false) :
    min (incoming messages) unreadLimit = shownUnread state k messages ↔
      (∀ i m, messages[i]? = some m → m.mine = false →
        state.preferences.mutes k = false ∧ unreadStart state k messages ≤ i) ∨
        unreadLimit ≤ shownUnread state k messages := by
  have hlimit : 0 < unreadLimit := by decide
  unfold shownUnread
  cases hmutes : state.preferences.mutes k with
  | true =>
      have hall : incoming messages = 0 ↔
          ∀ (i : ℕ) (m : Archive.Message), messages[i]? = some m → m.mine ≠ false := by
        rw [incoming_eq_zero]
        constructor
        · intro hmine i m hm
          rw [hmine m (List.mem_of_getElem? hm)]
          exact Bool.false_ne_true.symm
        · intro hmine m hm
          obtain ⟨i, hi⟩ := List.mem_iff_getElem?.mp hm
          simpa using hmine i m hi
      simp only [if_true, Bool.true_eq_false, false_and, imp_false]
      rw [← hall]
      omega
  | false =>
      have hsplit : incoming (messages.take (unreadStart state k messages)) +
          incoming (messages.drop (unreadStart state k messages)) = incoming messages := by
        rw [incoming, incoming, ← List.countP_append, List.take_append_drop, incoming]
      simp only [Bool.false_eq_true, if_false, true_and]
      rw [unread_of_shown h, ← incoming_take_eq_zero]
      omega

/-- Leaving a channel keeps what was read and hidden exactly if the record was untouched: the
archive may be left and joined in any way, with any other change of it before and after. `c` is
the record at a place, which shares its key to be with no record left before, and `c'` the one at
this place after the run, when it is not active. -/
theorem leaving_keeps_iff {lowercase : String → String} {builtin : List String}
    {a : Account Rest} (ha : (accountMachine lowercase builtin).Reachable a) {i : ℕ}
    (hc : a.archive.channels[i]? = some c)
    (halone : ∀ d ∈ a.archive.channels, d.active = false →
      Archive.recordKey d ≠ Archive.recordKey c.deactivate)
    {ops : List Archive.Op}
    (hc' : (ops.foldl Archive.Op.apply a.archive).channels[i]? = some c')
    (hleft : c'.active = false) :
    KeepsRead a.state c c' ↔ Untouched a.state c := by
  obtain ⟨d, hd, hstays⟩ := Archive.stays_run a.archive ops i c hc
  cases hd.symm.trans hc'
  have hkey := Archive.recordKey_stays hstays hleft
  have hunfiled : ¬ a.state.Files (Archive.recordKey c') := by
    intro hfiles
    have hretained : isRetained (Archive.recordKey c') = true := by
      rw [isRetained_recordKey, hleft]
      rfl
    obtain ⟨e, he, hold, heq⟩ := scoped_of_reachable ha _ hretained hfiles
    exact halone e he hold (heq.trans hkey)
  have hmessages : incoming (c'.messages.take c.messages.length) = incoming c.messages := by
    have hmine := hstays.1.2.2.map_take (g := Archive.Message.mine)
      fun m m' hsame => (congrArg Archive.Message.mine hsame).symm
    have hcount : ∀ messages : List Archive.Message,
        incoming messages = (messages.map Archive.Message.mine).countP (!·) := by
      intro messages
      rw [List.countP_map]
      rfl
    rw [hcount, hmine, hcount]
  constructor
  · intro h
    have hshown : ∀ m ∈ c.messages, hides a.state (Archive.recordKey c) m = false := by
      intro m hm
      obtain ⟨j, hj⟩ := List.mem_iff_getElem?.mp hm
      obtain ⟨m', hm', -⟩ := hstays.1.2.2 j m hj
      cases hhides : hides a.state (Archive.recordKey c) m with
      | false => rfl
      | true =>
          have hhidden := h.hidden j m m' hj hm' (by rw [shows_eq, hhides]; rfl)
          rw [shows_unfiled hunfiled] at hhidden
          cases hhidden
    have hunread := h.unread
    rw [shownUnread_unfiled hunfiled, hmessages] at hunread
    exact ⟨hshown, (shownUnread_eq_iff hshown).mp hunread⟩
  · intro h
    constructor
    · rw [shownUnread_unfiled hunfiled, hmessages]
      exact (shownUnread_eq_iff h.shown).mpr h.unread
    · intro j m m' hm hm' hhidden
      rw [shows_eq, h.shown m (List.mem_of_getElem? hm)] at hhidden
      cases hhidden

theorem reachable_happenings {lowercase : String → String} {builtin : List String}
    {a : Account Rest} (ha : (accountMachine lowercase builtin).Reachable a)
    {happenings : List (Happening Rest)} (h : ∀ x ∈ happenings, ∀ b : Account Rest, x.Allowed b) :
    (accountMachine lowercase builtin).Reachable
      (happenings.foldl (Account.act lowercase builtin) a) := by
  induction happenings generalizing a with
  | nil => exact ha
  | cons x happenings ih =>
      obtain ⟨hx, hrest⟩ := List.forall_mem_cons.mp h
      exact ih (ha.step ⟨hx a, rfl⟩) hrest

end Leaving

/-! ### A channel that was read -/

namespace Sample

def founded : Account Unit := ⟨.create "", .default ()⟩

/-- A room is joined, and a message from another member arrives. -/
def arrived : List (Happening Unit) :=
  (Archive.reconcileOps [(Archive.room, Archive.ownRoster (Bytes.fill 32 1))] 1).map .archive ++
    [.archive (.event (.channelMessage "room" (Bytes.fill 16 5) 4 "peer" 1 [104, 105]))]

def unseen : Account Unit := arrived.foldl (Account.act id []) founded

def seen : Account Unit :=
  unseen.markRead (Archive.channelKey Archive.room.id) (hex (Bytes.fill 16 5).toList)

def removed : List Archive.Op := [.event (.channelRemoved "room")]

def recordOf (archive : Archive.ArchiveData) : Archive.ChannelRecord :=
  archive.channels.head?.getD (.create Archive.room none [] 0)

def left (a : Account Unit) : Archive.ArchiveData := removed.foldl Archive.Op.apply a.archive

theorem unseen_reachable : (accountMachine id []).Reachable unseen :=
  reachable_happenings (.start ⟨⟨"", rfl⟩, (), rfl⟩) (by
    intro x hx b
    obtain hx | hx := List.mem_append.mp hx
    · obtain ⟨op, -, rfl⟩ := List.mem_map.mp hx
      trivial
    · rw [List.mem_singleton.mp hx]
      trivial)

end Sample

open Sample in
/-- The message that was read in the room is unread in the room that was left. -/
theorem left_channel_unread_again :
    seen.archive.channels[0]? = some (recordOf seen.archive) ∧
      (left seen).channels[0]? = some (recordOf (left seen)) ∧
      (recordOf seen.archive).active = true ∧ (recordOf (left seen)).active = false ∧
      ¬ KeepsRead seen.state (recordOf seen.archive) (recordOf (left seen)) := by
  refine ⟨by decide +kernel, by decide +kernel, by decide +kernel, by decide +kernel, ?_⟩
  intro h
  exact absurd h.unread (by decide +kernel)

open Sample in
theorem sample_keeps :
    KeepsRead unseen.state (recordOf unseen.archive) (recordOf (left unseen)) := by
  have hc : unseen.archive.channels[0]? = some (recordOf unseen.archive) := by decide +kernel
  have hc' : (removed.foldl Archive.Op.apply unseen.archive).channels[0]? =
      some (recordOf (left unseen)) := by decide +kernel
  have hstart : unreadStart unseen.state (Archive.recordKey (recordOf unseen.archive))
      (recordOf unseen.archive).messages = 0 := by decide +kernel
  refine (leaving_keeps_iff unseen_reachable hc (by decide +kernel) hc' (by decide +kernel)).mpr
    ⟨by decide +kernel, Or.inl ?_⟩
  intro i m _ _
  exact ⟨by decide +kernel, hstart ▸ Nat.zero_le i⟩

end Service

end GChat
