import GChat.Service.Arrivals
import GChat.Service.Delivery
import GChat.Service.Leaving
import GChat.Service.Synced

/-!
# Read markers

A conversation has a marker at the last message that was read. Each of the three stores moves
it for itself. For contacts and hosted channels the new marker is on a candidate, which is
published once it is saved; for an archived conversation it is set in memory first, and when
its save fails it stays there, so that the same request finds nothing to save any more.
-/

namespace GChat

namespace Service

open Foundation Api Store

/-! ### Requests -/

section Definitions

variable {Key Rest : Type}

/-- Move the read marker of a conversation. -/
def Env.requestMarkRead (env : Env Key Rest) (s : Unlocked Key Rest)
    (archive : Archive.ArchiveData) (conversation message : String) (io : SaveIo) :
    Unlocked Key Rest × Except String Unit :=
  if Commands.isContact conversation then env.contact s (.markRead conversation message) io
  else if s.state.hosted.contains conversation then
    env.markReadHosted s conversation message io
  else
    match conversationMessages archive conversation with
    | .error error => (s, .error error)
    | .ok messages =>
        env.markRead s conversation message (messages.map fun m => hex m.id.toList) io

/-- The number of messages after a marker, in a list of messages as they are shown. -/
def unreadAfter (preferences : Preferences) (key : String) (read : Option String)
    (messages : List Message) : ℕ :=
  let start := (read.bind fun id => messages.findIdx? fun m => m.id == id).elim 0 (· + 1)
  min ((messages.drop start).filter fun m =>
    !m.mine && !preferences.ignores key m.memberId m.mine).length unreadLimit

/-- The count in the summary of a hosted channel. -/
def unreadHosted (state : UiState Rest) (key : String) (room : Hosted.Archive) : ℕ :=
  unreadAfter state.preferences key state.read[key]? room.messages

/-- The count in the summary of a contact. -/
def unreadContact (preferences : Preferences) (key : String) (contact : Contacts.Contact) : ℕ :=
  unreadAfter preferences key contact.read contact.messages

/-- The count of a conversation, from its store. -/
def UiState.unread (state : UiState Rest) (archive : Archive.ArchiveData)
    (conversation : String) : ℕ :=
  if Commands.isContact conversation then
    (state.contacts.contacts[conversation]?.map
      (unreadContact state.preferences conversation)).getD 0
  else
    match state.hosted[conversation]? with
    | some room => unreadHosted state conversation room
    | none =>
        match conversationMessages archive conversation with
        | .error _ => 0
        | .ok messages => Service.unread state conversation messages

/-! ### Markers and their positions -/

/-- The messages of a conversation, as they are shown. -/
def UiState.messagesOf (state : UiState Rest) (archive : Archive.ArchiveData)
    (conversation : String) : List Message :=
  (Service.conversation state archive conversation).getD []

def UiState.idsOf (state : UiState Rest) (archive : Archive.ArchiveData)
    (conversation : String) : List String :=
  (state.messagesOf archive conversation).map (·.id)

def UiState.marker (state : UiState Rest) (conversation : String) : Option String :=
  if Commands.isContact conversation then
    state.contacts.contacts[conversation]?.bind (·.read)
  else state.read[conversation]?

/-- Where the marker stands in its conversation. -/
def UiState.markerPosition (state : UiState Rest) (archive : Archive.ArchiveData)
    (conversation : String) : Option ℕ :=
  (state.marker conversation).bind (position (state.idsOf archive conversation))

/-- The messages of others after the marker that are not ignored. -/
def UiState.waiting (state : UiState Rest) (archive : Archive.ArchiveData)
    (conversation : String) : List Message :=
  ((state.messagesOf archive conversation).drop
    ((state.markerPosition archive conversation).elim 0 (· + 1))).filter fun m =>
      !m.mine && !state.preferences.ignores conversation m.memberId m.mine

/-- The state with the marker of a conversation at a message. -/
def UiState.mark (state : UiState Rest) (conversation message : String) : UiState Rest :=
  if Commands.isContact conversation then
    match state.contacts.contacts[conversation]? with
    | none => state
    | some contact =>
        { state with
          contacts := state.contacts.setContact conversation { contact with read := some message } }
  else { state with read := state.read.insert conversation message }

/-- The request names a message after the marker, or there is no marker. -/
def UiState.Moves (state : UiState Rest) (archive : Archive.ArchiveData)
    (conversation message : String) : Prop :=
  ∃ next, position (state.idsOf archive conversation) message = some next ∧
    ∀ i, state.markerPosition archive conversation = some i → i < next

/-- The marker in the documents. -/
def Documents.marker (d : Documents Rest) (conversation : String) : Option String :=
  if Commands.isContact conversation then
    d.book.contacts[conversation]?.bind (·.read)
  else d.legacy.read[conversation]?

end Definitions

variable {Key Rest : Type} {env : Env Key Rest} {s t : Unlocked Key Rest}
  {state state' : UiState Rest} {archive archive' : Archive.ArchiveData}
  {conversation message : String} {io : SaveIo}

/-! ### What is counted -/

theorem position_map {α : Type} (f : α → String) (l : List α) (id : String) :
    position (l.map f) id = l.findIdx? fun a => f a == id := by
  rw [position, List.findIdx?_map]
  rfl

theorem unreadAfter_eq (preferences : Preferences) (key : String) (read : Option String)
    (messages : List Message) :
    unreadAfter preferences key read messages =
      min ((messages.drop ((read.bind (position (messages.map (·.id)))).elim 0 (· + 1))).filter
        fun m => !m.mine && !preferences.ignores key m.memberId m.mine).length unreadLimit := by
  have hstart : (read.bind fun id => messages.findIdx? fun m => m.id == id) =
      read.bind (position (messages.map (·.id))) := by
    cases read with
    | none => rfl
    | some id => exact (position_map (·.id) messages id).symm
  rw [unreadAfter, hstart]

theorem unread_eq (state : UiState Rest) (key : String) (messages : List Archive.Message) :
    Service.unread state key messages =
      unreadAfter state.preferences key state.read[key]?
        (messages.map (Service.message state.messageMetadata key)) := by
  have hstart : unreadStart state key messages =
      (state.read[key]?.bind (position ((messages.map
        (Service.message state.messageMetadata key)).map (·.id)))).elim 0 (· + 1) := by
    rw [unreadStart, List.map_map]
    change _ = (state.read[key]?.bind (position (messages.map fun m => hex m.id.toList))).elim 0 _
    cases state.read[key]?.bind (position (messages.map fun m => hex m.id.toList)) with
    | none => rfl
    | some i => rfl
  rw [unreadAfter_eq, ← hstart, ← List.map_drop, List.filter_map, List.length_map,
    Service.unread, List.countP_eq_length_filter]
  rfl

/-- The count is the number of waiting messages, as far as it can be shown. -/
theorem unread_eq_waiting (state : UiState Rest) (archive : Archive.ArchiveData)
    (conversation : String) :
    state.unread archive conversation =
      min (state.waiting archive conversation).length unreadLimit := by
  unfold UiState.unread UiState.waiting UiState.markerPosition UiState.idsOf UiState.marker
    UiState.messagesOf Service.conversation
  by_cases hcontact : Commands.isContact conversation = true
  · simp only [if_pos hcontact]
    cases hc : state.contacts.contacts[conversation]? with
    | none => simp
    | some contact => exact unreadAfter_eq _ _ _ _
  · simp only [if_neg hcontact]
    cases hroom : state.hosted[conversation]? with
    | some room => exact unreadAfter_eq _ _ _ _
    | none =>
        dsimp only
        cases hmessages : conversationMessages archive conversation with
        | error error => simp [Except.toOption]
        | ok messages =>
            dsimp only
            rw [unread_eq, unreadAfter_eq]
            rfl

/-! ### One request -/

theorem movesMarker_iff (messages : List String) (marker : Option String) (next : ℕ) :
    movesMarker messages marker next = true ↔
      ∀ i, marker.bind (position messages) = some i → i < next := by
  rw [movesMarker]
  cases marker.bind (position messages) with
  | none => simp
  | some i => simp

theorem idsOf_contact (hcontact : Commands.isContact conversation = true) :
    state.idsOf archive conversation =
      ((state.contacts.contacts[conversation]?.map (·.messages)).getD []).map (·.id) := by
  rw [UiState.idsOf, UiState.messagesOf, Service.conversation, if_pos hcontact]

theorem idsOf_hosted (hcontact : Commands.isContact conversation ≠ true) {room : Hosted.Archive}
    (hroom : state.hosted[conversation]? = some room) :
    state.idsOf archive conversation = room.ids := by
  rw [UiState.idsOf, UiState.messagesOf, Service.conversation, if_neg hcontact, hroom]
  rfl

theorem idsOf_archived (hcontact : Commands.isContact conversation ≠ true)
    (hroom : state.hosted[conversation]? = none) :
    state.idsOf archive conversation =
      ((conversationMessages archive conversation).toOption.getD []).map
        fun m => hex m.id.toList := by
  rw [UiState.idsOf, UiState.messagesOf, Service.conversation, if_neg hcontact, hroom]
  cases conversationMessages archive conversation with
  | error error => rfl
  | ok messages =>
      simp only [Except.toOption, Option.map_some, Option.getD_some, List.map_map]
      rfl

theorem marker_contact (hcontact : Commands.isContact conversation = true) :
    state.marker conversation = state.contacts.contacts[conversation]?.bind (·.read) := by
  rw [UiState.marker, if_pos hcontact]

theorem marker_read (hcontact : Commands.isContact conversation ≠ true) :
    state.marker conversation = state.read[conversation]? := by
  rw [UiState.marker, if_neg hcontact]

theorem mark_of_read (hcontact : Commands.isContact conversation ≠ true) :
    state.mark conversation message =
      { state with read := state.read.insert conversation message } := by
  rw [UiState.mark, if_neg hcontact]

theorem moves_iff_movesMarker {next : ℕ}
    (hnext : position (state.idsOf archive conversation) message = some next) :
    state.Moves archive conversation message ↔
      movesMarker (state.idsOf archive conversation) (state.marker conversation) next = true := by
  rw [movesMarker_iff]
  constructor
  · rintro ⟨next', hnext', hlater⟩
    rw [hnext] at hnext'
    cases hnext'
    exact hlater
  · exact fun hlater => ⟨next, hnext, hlater⟩

/-- A request names no message, or one that the marker has passed, or it moves the marker: on a
candidate, or for an archived conversation in memory. -/
inductive Outcome (env : Env Key Rest) (s : Unlocked Key Rest) (archive : Archive.ArchiveData)
    (conversation message : String) (io : SaveIo) : Unlocked Key Rest × Except String Unit → Prop
  | unknown (error : String) (h : position (s.state.idsOf archive conversation) message = none) :
      Outcome env s archive conversation message io (s, .error error)
  | kept (next : ℕ) (h : position (s.state.idsOf archive conversation) message = some next)
      (hmoves : ¬s.state.Moves archive conversation message) :
      Outcome env s archive conversation message io (s, .ok ())
  | saved (next : ℕ) (h : position (s.state.idsOf archive conversation) message = some next)
      (hmoves : ¬s.state.Moves archive conversation message) :
      Outcome env s archive conversation message io (env.commit s s.state io)
  | moved (hmoves : s.state.Moves archive conversation message)
      (harchived : s.isArchived conversation = false) :
      Outcome env s archive conversation message io
        (env.commit s (s.state.mark conversation message) io)
  | inPlace (hmoves : s.state.Moves archive conversation message)
      (harchived : s.isArchived conversation = true) :
      Outcome env s archive conversation message io
        (env.persist { s with state := s.state.mark conversation message } io)

/-- The contacts move their markers as the other stores do. -/
theorem markRead_eq {book : Contacts.Book} {c : Contacts.Contact}
    (hc : book.contacts[conversation]? = some c) :
    Contacts.markRead book conversation message =
      match position (c.messages.map (·.id)) message with
      | none => .error "Unknown read marker"
      | some next =>
          .ok (if movesMarker (c.messages.map (·.id)) c.read next then
            book.setContact conversation { c with read := some message } else book) := by
  have hold : (c.read.bind fun id => c.messages.findIdx? (·.id == id)) =
      c.read.bind (position (c.messages.map (·.id))) := by
    cases c.read with
    | none => rfl
    | some id => exact (position_map (·.id) c.messages id).symm
  simp only [Contacts.markRead, hc, okOr, bind, Except.bind, hold, position_map]
  cases c.messages.findIdx? (·.id == message) with
  | none => rfl
  | some next =>
      dsimp only
      rw [movesMarker]
      split
      · rfl
      · rfl

theorem outcome_contact (hcontact : Commands.isContact conversation = true) :
    Outcome env s archive conversation message io
      (env.contact s (.markRead conversation message) io) := by
  have harchived : s.isArchived conversation = false := by
    rw [Unlocked.isArchived, hcontact]
    rfl
  unfold Env.contact
  simp only [Contacts.Op.run, savesBook, if_true]
  cases hc : s.state.contacts.contacts[conversation]? with
  | none =>
      have hunknown : Contacts.markRead s.state.contacts conversation message =
          .error "Unknown contact" := by
        simp only [Contacts.markRead, hc, okOr, bind, Except.bind]
      rw [hunknown]
      refine .unknown _ ?_
      rw [idsOf_contact hcontact, hc]
      rfl
  | some c =>
      have hids : s.state.idsOf archive conversation = c.messages.map (·.id) := by
        rw [idsOf_contact hcontact, hc]
        rfl
      have hmarker : s.state.marker conversation = c.read := by
        rw [marker_contact hcontact, hc]
        rfl
      rw [markRead_eq hc, ← hids, ← hmarker]
      cases hnext : position (s.state.idsOf archive conversation) message with
      | none => exact .unknown _ hnext
      | some next =>
          have hmoves := moves_iff_movesMarker hnext
          dsimp only
          split
          next hmove =>
            have hmark : s.state.mark conversation message =
                { s.state with
                  contacts := s.state.contacts.setContact conversation
                    { c with read := some message } } := by
              rw [UiState.mark, if_pos hcontact, hc]
            rw [← hmark]
            exact .moved (hmoves.mpr hmove) harchived
          next hmove => exact .saved next hnext (fun h => hmove (hmoves.mp h))

theorem outcome_hosted (hcontact : Commands.isContact conversation ≠ true) {room : Hosted.Archive}
    (hroom : s.state.hosted[conversation]? = some room) :
    Outcome env s archive conversation message io
      (env.markReadHosted s conversation message io) := by
  have harchived : s.isArchived conversation = false := by
    rw [Unlocked.isArchived, hroom]
    simp
  have hids : s.state.idsOf archive conversation = room.ids := idsOf_hosted hcontact hroom
  unfold Env.markReadHosted
  rw [hroom]
  dsimp only
  rw [show (room.messages.map (·.id)) = s.state.idsOf archive conversation from hids.symm]
  cases hnext : position (s.state.idsOf archive conversation) message with
  | none => exact .unknown _ hnext
  | some next =>
      have hmoves := moves_iff_movesMarker hnext
      rw [marker_read hcontact] at hmoves
      dsimp only
      split
      next hmove =>
        rw [← mark_of_read hcontact]
        exact .moved (hmoves.mpr hmove) harchived
      next hmove => exact .kept next hnext (fun h => hmove (hmoves.mp h))

theorem outcome_archived (harchived : s.isArchived conversation = true)
    {messages : List Archive.Message}
    (hmessages : conversationMessages archive conversation = .ok messages) :
    Outcome env s archive conversation message io
      (env.markRead s conversation message (messages.map fun m => hex m.id.toList) io) := by
  have hkind := harchived
  simp only [Unlocked.isArchived, Bool.and_eq_true, Bool.not_eq_true',
    Option.isNone_iff_eq_none] at hkind
  have hcontact : Commands.isContact conversation ≠ true := by simp [hkind.1]
  have hids : s.state.idsOf archive conversation = messages.map fun m => hex m.id.toList := by
    rw [idsOf_archived hcontact hkind.2, hmessages]
    rfl
  unfold Env.markRead
  rw [← hids]
  cases hnext : position (s.state.idsOf archive conversation) message with
  | none => exact .unknown _ hnext
  | some next =>
      have hmoves := moves_iff_movesMarker hnext
      rw [marker_read hcontact] at hmoves
      dsimp only
      split
      next hmove =>
        rw [← mark_of_read hcontact]
        exact .inPlace (hmoves.mpr hmove) harchived
      next hmove => exact .kept next hnext (fun h => hmove (hmoves.mp h))

/-- What a request to move a marker does. -/
theorem requestMarkRead_outcome (env : Env Key Rest) (s : Unlocked Key Rest)
    (archive : Archive.ArchiveData) (conversation message : String) (io : SaveIo) :
    Outcome env s archive conversation message io
      (env.requestMarkRead s archive conversation message io) := by
  unfold Env.requestMarkRead
  by_cases hcontact : Commands.isContact conversation = true
  · rw [if_pos hcontact]
    exact outcome_contact hcontact
  · rw [if_neg hcontact]
    cases hroom : s.state.hosted[conversation]? with
    | some room =>
        rw [if_pos (StringMap.contains_of_get hroom)]
        exact outcome_hosted hcontact hroom
    | none =>
        rw [if_neg (by rw [StringMap.contains_eq_isSome, hroom]; simp)]
        have harchived : s.isArchived conversation = true := by
          simp [Unlocked.isArchived, hroom, hcontact]
        cases hmessages : conversationMessages archive conversation with
        | error error =>
            refine .unknown _ ?_
            rw [idsOf_archived hcontact hroom, hmessages]
            rfl
        | ok messages => exact outcome_archived harchived hmessages

end Service

end GChat
