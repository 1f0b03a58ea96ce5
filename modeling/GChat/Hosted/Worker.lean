import GChat.Hosted.Projection

/-!
# The worker of the hosted channels

A round visits the listed channels in order. A visit archives the events that wait locally and
then synchronizes the channel. The error of a synchronization is recorded on the channel, and the
round goes on. An error of the first step, or one that cannot be recorded, ends the round: it is
what the round returns, and the channels after it are not visited.
-/

namespace GChat

namespace Hosted

open Foundation

/-- A request to the protocol client. -/
inductive Request where
  | events (channel : Id)
  | commitEvents (channel : Id) (through : ℕ)
  | sync (channel : Id)
deriving DecidableEq

/-- How the calls of one archiving end; `none` is a reply of another kind. -/
structure Fetch where
  events : Except String (Option (List Event))
  saved : Except String Unit
  committed : Except String Unit

/-- A listed channel, with how the calls of its visit end. -/
structure Visit where
  channel : Channel
  own : Fetch
  sync : Except String (Option Channel)
  recovered : Fetch
  noted : Except String Unit

/-- The state of the session, and the requests made so far. -/
structure Session where
  state : UiState
  requests : List Request

namespace Session

def exchange (s : Session) (request : Request) : Session :=
  { s with requests := s.requests ++ [request] }

section Definitions

variable (completionType : String)

/-- Fetch the events of a channel, archive them and acknowledge what was archived. -/
def archive (s : Session) (channel : Channel) (recovered : Bool) (fetch : Fetch) :
    Session × Except String Unit :=
  let s := s.exchange (.events channel.id)
  match fetch.events with
  | .error e => (s, .error e)
  | .ok none => (s, .error "Invalid hosted event reply")
  | .ok (some events) =>
      match archiveHosted completionType (fun _ => fetch.saved) s.state channel recovered events with
      | (state, .error e) => ({ s with state := state }, .error e)
      | (state, .ok through) =>
          if 0 < through ∧ events ≠ [] then
            ({ s with state := state }.exchange (.commitEvents channel.id through),
              fetch.committed)
          else ({ s with state := state }, .ok ())

def syncTracked (s : Session) (v : Visit) : Session × Except String Unit :=
  let s := s.exchange (.sync v.channel.id)
  match v.sync with
  | .error e => (s, .error e)
  | .ok none => (s, .error "Invalid hosted sync reply")
  | .ok (some channel) => s.archive completionType channel true v.recovered

/-- Record the error of a synchronization, unless it is recorded already. -/
def note (s : Session) (id : Id) (error : String) (saved : Except String Unit) :
    Session × Except String Unit :=
  match s.state.hosted[key id]? with
  | none => (s, .ok ())
  | some room =>
      if room.error = some error then (s, .ok ())
      else
        match saved with
        | .error e => (s, .error e)
        | .ok () =>
            ({ s with
                state := { s.state with
                  hosted := s.state.hosted.insert (key id) { room with error := some error } } },
              .ok ())

/-- One turn of the loop over the channels. -/
def visit (s : Session) (v : Visit) : Session × Except String Unit :=
  match s.archive completionType v.channel false v.own with
  | (s, .error e) => (s, .error e)
  | (s, .ok ()) =>
      match s.syncTracked completionType v with
      | (s, .ok ()) => (s, .ok ())
      | (s, .error e) => s.note v.channel.id e v.noted

/-- A round over the listed channels. -/
def round : Session → List Visit → Session × Except String Unit
  | s, [] => (s, .ok ())
  | s, v :: visits =>
      match s.visit completionType v with
      | (s, .error e) => (s, .error e)
      | (s, .ok ()) => round s visits

/-- A visit up to the point where an error is recorded. -/
def attempt (s : Session) (v : Visit) : Session × Except String Unit :=
  match s.archive completionType v.channel false v.own with
  | (s, .error e) => (s, .error e)
  | (s, .ok ()) => s.syncTracked completionType v

/-- The session after visits that are made whatever the ones before them return. -/
def each (s : Session) (visits : List Visit) : Session :=
  visits.foldl (fun s v => (s.visit completionType v).1) s

/-- The channel has an archive that carries the error. -/
def Carries (s : Session) (id : Id) (error : String) : Prop :=
  ∃ room, s.state.hosted[key id]? = some room ∧ room.error = some error

/-- The requests of a visit up to the synchronization. -/
def owed (id : Id) (events : List Event) (through : ℕ) : List Request :=
  .events id :: ((if 0 < through ∧ events ≠ [] then [.commitEvents id through] else []) ++ [.sync id])

/-- If the events of the channel can be fetched, applied and saved at its turn, then the round
comes to the channel, archives them, acknowledges them and asks for the synchronization. -/
def Serves (s : Session) (visits before : List Visit) (v : Visit) : Prop :=
  ∀ events t through, v.own.events = .ok (some events) → v.own.saved = .ok () →
    apply completionType (s.each completionType before).state v.channel events = .ok (t, through) →
      ∃ s', s.round completionType before = (s', .ok ()) ∧
        (s'.archive completionType v.channel false v.own).1.state = t ∧
        s'.requests ++ owed v.channel.id events through <+:
          (s.round completionType visits).1.requests ∧
        ∃ room, (s.round completionType visits).1.state.hosted[key v.channel.id]? = some room ∧
          through ≤ room.cursor

/-- If the visit fails, then the round comes to the channel and the error is recorded there; the
cursor and the messages stay. -/
def Records (s : Session) (before : List Visit) (v : Visit) : Prop :=
  ∀ failed e, (s.each completionType before).attempt completionType v = (failed, .error e) →
    ∃ s', s.round completionType before = (s', .ok ()) ∧
      ∃ room room', failed.state.hosted[key v.channel.id]? = some room ∧
        (s'.visit completionType v).1.state.hosted[key v.channel.id]? = some room' ∧
        room'.error = some e ∧ room'.cursor = room.cursor ∧ room'.messages = room.messages

/-- The channels fail independently in a round. -/
def Independent (s : Session) (visits : List Visit) : Prop :=
  ∀ before v after, visits = before ++ v :: after →
    s.Serves completionType visits before v ∧ s.Records completionType before v

end Definitions

end Session

section Conditions

variable (completionType : String)

/-- The archiving of the events that wait locally succeeds. -/
def Fetch.Archives (fetch : Fetch) (state : UiState) (channel : Channel) : Prop :=
  ∃ events t through, fetch.events = .ok (some events) ∧
    apply completionType state channel events = .ok (t, through) ∧
    (t ≠ state → fetch.saved = .ok ()) ∧
    (0 < through ∧ events ≠ [] → fetch.committed = .ok ())

/-- The events are archived, and an error after that can be recorded or is recorded already. -/
def Visit.Passes (v : Visit) (s : Session) : Prop :=
  v.own.Archives completionType s.state v.channel ∧
    ∀ failed e, s.attempt completionType v = (failed, .error e) →
      v.noted = .ok () ∨ failed.Carries v.channel.id e

/-- Every visit passes at its turn. -/
def Session.Quiet (s : Session) (visits : List Visit) : Prop :=
  ∀ before v after, visits = before ++ v :: after →
    v.Passes completionType (s.each completionType before)

end Conditions

namespace Session

variable {completionType : String} {s t r : Session} {v : Visit} {visits before : List Visit}

/-! ### What only grows -/

/-- Requests are added, and no cursor goes back. -/
structure Grows (s t : Session) : Prop where
  requests : s.requests <+: t.requests
  rooms : ∀ (k : String) (room : Archive), s.state.hosted[k]? = some room →
    ∃ room' : Archive, t.state.hosted[k]? = some room' ∧ room.cursor ≤ room'.cursor

theorem Grows.refl (s : Session) : s.Grows s :=
  ⟨List.prefix_rfl, fun _ room h => ⟨room, h, le_rfl⟩⟩

theorem Grows.trans (h : s.Grows t) (h' : t.Grows r) : s.Grows r where
  requests := h.requests.trans h'.requests
  rooms k room hroom := by
    obtain ⟨mid, hmid, hle⟩ := h.rooms k room hroom
    obtain ⟨last, hlast, hle'⟩ := h'.rooms k mid hmid
    exact ⟨last, hlast, hle.trans hle'⟩

theorem grows_exchange (s : Session) (request : Request) : s.Grows (s.exchange request) :=
  ⟨List.prefix_append _ _, fun _ room h => ⟨room, h, le_rfl⟩⟩

/-- An archive is put in the place of one whose cursor is not past its own. -/
theorem rooms_insert {hosted : StringMap Archive} {k : String} {room : Archive}
    (hle : ∀ old, hosted[k]? = some old → old.cursor ≤ room.cursor) (l : String) (old : Archive)
    (hold : hosted[l]? = some old) :
    ∃ room', (hosted.insert k room)[l]? = some room' ∧ old.cursor ≤ room'.cursor := by
  by_cases hkey : k = l
  · subst hkey
    exact ⟨room, StringMap.get_insert_self _ _ _, hle old hold⟩
  · exact ⟨old, (StringMap.get_insert_of_ne _ _ hkey).trans hold, le_rfl⟩

theorem enter_cursor (state : UiState) (channel : Channel) {old : Archive}
    (h : state.hosted[key channel.id]? = some old) : (state.enter channel).cursor = old.cursor := by
  unfold UiState.enter
  rw [h, Option.getD_some, seed_eq]

theorem rooms_apply {state next : UiState} {channel : Channel} {events : List Event} {through : ℕ}
    (h : apply completionType state channel events = .ok (next, through)) (k : String)
    (old : Archive) (hold : state.hosted[k]? = some old) :
    ∃ room, next.hosted[k]? = some room ∧ old.cursor ≤ room.cursor := by
  obtain ⟨room, activity, hfold, rfl, rfl⟩ := apply_eq_ok.mp h
  apply rooms_insert _ k old hold
  intro first hfirst
  rw [← enter_cursor state channel hfirst]
  exact (foldlM_past hfold).1

theorem rooms_recovered (state : UiState) (channel : Channel) (k : String) (old : Archive)
    (hold : state.hosted[k]? = some old) :
    ∃ room, (state.recovered channel).hosted[k]? = some room ∧ old.cursor ≤ room.cursor := by
  unfold UiState.recovered
  cases hroom : state.hosted[key channel.id]? with
  | none => exact ⟨old, hold, le_rfl⟩
  | some room =>
      apply rooms_insert _ k old hold
      intro first hfirst
      rw [hroom] at hfirst
      rw [Option.some.inj hfirst]

theorem rooms_archiveHosted (completionType : String) (save : UiState → Except String Unit)
    (state : UiState) (channel : Channel) (recovered : Bool) (events : List Event) (k : String)
    (old : Archive) (hold : state.hosted[k]? = some old) :
    ∃ room, (archiveHosted completionType save state channel recovered events).1.hosted[k]? =
      some room ∧ old.cursor ≤ room.cursor := by
  have hstays : ∃ room, state.hosted[k]? = some room ∧ old.cursor ≤ room.cursor :=
    ⟨old, hold, le_rfl⟩
  unfold archiveHosted
  cases happly : apply completionType state channel events with
  | error e => exact hstays
  | ok result =>
      obtain ⟨mid, hmid, hle⟩ := rooms_apply happly k old hold
      have hcandidate : ∃ room, (if recovered then result.1.recovered channel
          else result.1).hosted[k]? = some room ∧ old.cursor ≤ room.cursor := by
        cases recovered with
        | false => exact ⟨mid, hmid, hle⟩
        | true =>
            obtain ⟨room, hroom, hle'⟩ := rooms_recovered result.1 channel k mid hmid
            exact ⟨room, hroom, hle.trans hle'⟩
      dsimp only
      generalize (if recovered then result.1.recovered channel else result.1) = candidate
        at hcandidate ⊢
      split
      · cases save candidate with
        | error e => exact hstays
        | ok u => exact hcandidate
      · exact hstays

theorem grows_archive (completionType : String) (s : Session) (channel : Channel) (recovered : Bool) (fetch : Fetch) :
    (s.exchange (.events channel.id)).Grows
      (s.archive completionType channel recovered fetch).1 := by
  unfold archive
  cases fetch.events with
  | error e => exact Grows.refl _
  | ok reply =>
      cases reply with
      | none => exact Grows.refl _
      | some events =>
          have hrooms := rooms_archiveHosted completionType (fun _ => fetch.saved) s.state channel
            recovered events
          dsimp only [exchange] at hrooms ⊢
          cases harchive : archiveHosted completionType (fun _ => fetch.saved) s.state channel
              recovered events with
          | mk state result =>
              rw [harchive] at hrooms
              cases result with
              | error e => exact ⟨List.prefix_rfl, hrooms⟩
              | ok through =>
                  dsimp only
                  split
                  · exact ⟨List.prefix_append _ _, hrooms⟩
                  · exact ⟨List.prefix_rfl, hrooms⟩

theorem grows_syncTracked (completionType : String) (s : Session) (v : Visit) :
    (s.exchange (.sync v.channel.id)).Grows (s.syncTracked completionType v).1 := by
  unfold syncTracked
  cases v.sync with
  | error e => exact Grows.refl _
  | ok reply =>
      cases reply with
      | none => exact Grows.refl _
      | some channel =>
          exact (grows_exchange _ _).trans
            (grows_archive completionType _ channel true v.recovered)

theorem grows_note (s : Session) (id : Id) (error : String) (saved : Except String Unit) :
    s.Grows (s.note id error saved).1 := by
  unfold note
  cases hroom : s.state.hosted[key id]? with
  | none => exact Grows.refl s
  | some room =>
      dsimp only
      split
      · exact Grows.refl s
      · cases saved with
        | error e => exact Grows.refl s
        | ok u =>
            refine ⟨List.prefix_rfl, fun k old hold => ?_⟩
            apply rooms_insert _ k old hold
            intro first hfirst
            rw [hroom] at hfirst
            rw [Option.some.inj hfirst]

theorem grows_archive_visit (s : Session) (v : Visit) :
    (s.archive completionType v.channel false v.own).1.Grows (s.visit completionType v).1 := by
  unfold visit
  generalize s.archive completionType v.channel false v.own = archived
  obtain ⟨mid, result⟩ := archived
  cases result with
  | error e => exact Grows.refl mid
  | ok u =>
      have hsync := (grows_exchange mid _).trans (grows_syncTracked completionType mid v)
      dsimp only
      generalize mid.syncTracked completionType v = synced at hsync
      obtain ⟨last, result⟩ := synced
      cases result with
      | ok u => exact hsync
      | error e => exact hsync.trans (grows_note last _ e v.noted)

theorem grows_visit (s : Session) (v : Visit) : s.Grows (s.visit completionType v).1 :=
  (grows_exchange s _).trans
    ((grows_archive completionType s v.channel false v.own).trans (grows_archive_visit s v))

/-- The rest of a round after its first visit. -/
theorem grows_visit_round (s : Session) (v : Visit) (visits : List Visit) :
    (s.visit completionType v).1.Grows (s.round completionType (v :: visits)).1 := by
  induction visits generalizing s v with
  | nil =>
      rw [round]
      generalize s.visit completionType v = visited
      obtain ⟨next, result⟩ := visited
      cases result with
      | error e => exact Grows.refl next
      | ok u => exact Grows.refl next
  | cons w visits ih =>
      rw [round]
      generalize s.visit completionType v = visited
      obtain ⟨next, result⟩ := visited
      cases result with
      | error e => exact Grows.refl next
      | ok u => exact (grows_visit next w).trans (ih next w)

/-! ### A visit -/

theorem archiveHosted_own {save : UiState → Except String Unit} {state next : UiState}
    {channel : Channel} {events : List Event} {through : ℕ}
    (happly : apply completionType state channel events = .ok (next, through)) :
    archiveHosted completionType save state channel false events =
      if next ≠ state then
        match save next with
        | .error e => (state, .error e)
        | .ok () => (next, .ok through)
      else (next, .ok through) := by
  unfold archiveHosted
  rw [happly]
  by_cases hnext : next = state
  · simp [hnext]
  · cases hsave : save next with
    | error e => simp [hnext, hsave]
    | ok u => simp [hnext, hsave]

/-- The archiving of the events that wait locally, with its effect. -/
theorem archive_own {channel : Channel} {fetch : Fetch} {events : List Event} {state : UiState}
    {through : ℕ} (hevents : fetch.events = .ok (some events))
    (happly : apply completionType s.state channel events = .ok (state, through))
    (hsaved : state ≠ s.state → fetch.saved = .ok ()) :
    s.archive completionType channel false fetch =
      if 0 < through ∧ events ≠ [] then
        (⟨state, s.requests ++ [.events channel.id, .commitEvents channel.id through]⟩,
          fetch.committed)
      else (⟨state, s.requests ++ [.events channel.id]⟩, .ok ()) := by
  have harchive : archiveHosted completionType (fun _ => fetch.saved) s.state channel false events =
      (state, .ok through) := by
    rw [archiveHosted_own happly]
    split
    next hne => rw [hsaved hne]
    next => rfl
  unfold archive
  simp only [hevents, exchange, harchive]
  split
  · simp
  · rfl

theorem archive_eq_ok {channel : Channel} {fetch : Fetch} :
    (s.archive completionType channel false fetch).2 = .ok () ↔
      fetch.Archives completionType s.state channel := by
  constructor
  · intro h
    cases hevents : fetch.events with
    | error e => simp [archive, hevents] at h
    | ok reply =>
        cases reply with
        | none => simp [archive, hevents] at h
        | some events =>
            cases happly : apply completionType s.state channel events with
            | error e => simp [archive, hevents, archiveHosted, exchange, happly] at h
            | ok result =>
                obtain ⟨state, through⟩ := result
                have hsaved : state ≠ s.state → fetch.saved = .ok () := by
                  intro hne
                  cases hsaved : fetch.saved with
                  | ok u => rfl
                  | error e =>
                      simp [archive, hevents, exchange, archiveHosted_own happly, hne, hsaved] at h
                refine ⟨events, state, through, hevents, happly, hsaved, fun hdue => ?_⟩
                rw [archive_own hevents happly hsaved, if_pos hdue] at h
                exact h
  · rintro ⟨events, state, through, hevents, happly, hsaved, hcommitted⟩
    rw [archive_own hevents happly hsaved]
    split
    next hdue => exact hcommitted hdue
    next => rfl

/-- What the archive of a channel becomes when an error is recorded on it. -/
theorem note_records {id : Id} {error : String} {saved : Except String Unit} {room : Archive}
    (hroom : s.state.hosted[key id]? = some room) :
    ((s.note id error saved).2 = .ok () ↔ saved = .ok () ∨ s.Carries id error) ∧
      ((∃ room', (s.note id error saved).1.state.hosted[key id]? = some room' ∧
          room'.error = some error ∧ room'.cursor = room.cursor ∧
          room'.messages = room.messages) ↔ saved = .ok () ∨ s.Carries id error) := by
  have hcarries : s.Carries id error ↔ room.error = some error := by
    simp [Carries, hroom]
  rw [hcarries]
  by_cases herror : room.error = some error
  · simp [note, hroom, herror]
  · cases saved with
    | error e => simp [note, hroom, herror]
    | ok u => simp [note, hroom, herror]

/-- An error of the first step ends the round; an error after it is recorded. -/
theorem visit_eq (s : Session) (v : Visit) :
    s.visit completionType v =
      match s.attempt completionType v with
      | (t, .ok ()) => (t, .ok ())
      | (t, .error e) =>
          if (s.archive completionType v.channel false v.own).2 = .ok () then
            t.note v.channel.id e v.noted
          else (t, .error e) := by
  unfold visit attempt
  cases s.archive completionType v.channel false v.own with
  | mk t result =>
      cases result with
      | error e => rfl
      | ok u =>
          dsimp only
          cases t.syncTracked completionType v with
          | mk t result =>
              cases result with
              | error e => rfl
              | ok u => rfl

/-- After the events that wait locally are archived, the channel has an archive. -/
theorem room_of_attempt (hown : v.own.Archives completionType s.state v.channel) :
    ∃ room, (s.attempt completionType v).1.state.hosted[key v.channel.id]? = some room := by
  obtain ⟨events, state, through, hevents, happly, hsaved, hcommitted⟩ := hown
  obtain ⟨room, activity, -, hstate, -⟩ := apply_eq_ok.mp happly
  have hroom : state.hosted[key v.channel.id]? = some room.fillOperations := by
    rw [hstate]
    exact leave_get _ _ _ _
  have harchive : (s.archive completionType v.channel false v.own).1.state = state := by
    rw [archive_own hevents happly hsaved]
    split
    · rfl
    · rfl
  unfold attempt
  generalize s.archive completionType v.channel false v.own = archived at harchive
  obtain ⟨mid, result⟩ := archived
  rw [← harchive] at hroom
  cases result with
  | error e => exact ⟨_, hroom⟩
  | ok u =>
      have hgrows := (grows_exchange mid _).trans (grows_syncTracked completionType mid v)
      obtain ⟨last, hlast, -⟩ := hgrows.rooms _ _ hroom
      exact ⟨last, hlast⟩

theorem visit_eq_ok : (s.visit completionType v).2 = .ok () ↔ v.Passes completionType s := by
  rw [visit_eq, Visit.Passes, ← archive_eq_ok]
  cases hattempt : s.attempt completionType v with
  | mk t result =>
      cases result with
      | ok u =>
          have hown : (s.archive completionType v.channel false v.own).2 = .ok () := by
            unfold attempt at hattempt
            split at hattempt
            · cases hattempt
            next harchive => rw [harchive]
          simp [hown]
      | error e =>
          by_cases hown : (s.archive completionType v.channel false v.own).2 = .ok ()
          · obtain ⟨room, hroom⟩ := room_of_attempt (archive_eq_ok.mp hown)
            rw [hattempt] at hroom
            simp only [hown, if_true, (note_records hroom).1, true_and]
            constructor
            · rintro h t' e' heq
              cases heq
              exact h
            · intro h
              exact h t e rfl
          · simp [hown]

/-- The error of a visit is recorded exactly if it is one of the synchronization that can be
recorded, or the channel carries it already. -/
theorem recorded_iff {failed : Session} {e : String}
    (hattempt : s.attempt completionType v = (failed, .error e)) :
    (∃ room room', failed.state.hosted[key v.channel.id]? = some room ∧
        (s.visit completionType v).1.state.hosted[key v.channel.id]? = some room' ∧
        room'.error = some e ∧ room'.cursor = room.cursor ∧ room'.messages = room.messages) ↔
      v.own.Archives completionType s.state v.channel ∧ v.noted = .ok () ∨
        failed.Carries v.channel.id e := by
  rw [visit_eq, hattempt]
  dsimp only
  by_cases hown : v.own.Archives completionType s.state v.channel
  · obtain ⟨room, hroom⟩ := room_of_attempt hown
    rw [hattempt] at hroom
    simp only [archive_eq_ok.mpr hown, if_true, hown, true_and]
    rw [← (note_records hroom).2]
    constructor
    · rintro ⟨old, room', hold, h⟩
      cases hroom.symm.trans hold
      exact ⟨room', h⟩
    · rintro ⟨room', h⟩
      exact ⟨room, room', hroom, h⟩
  · simp only [mt archive_eq_ok.mp hown, if_false, hown, false_and, false_or]
    constructor
    · rintro ⟨room, room', -, hroom', herror, -⟩
      exact ⟨room', hroom', herror⟩
    · rintro ⟨room, hroom, herror⟩
      exact ⟨room, room, hroom, hroom, herror, rfl, rfl⟩

/-! ### A round -/

theorem quiet_cons :
    s.Quiet completionType (v :: visits) ↔
      v.Passes completionType s ∧ (s.visit completionType v).1.Quiet completionType visits := by
  constructor
  · intro h
    refine ⟨h [] v visits rfl, fun before u after heq => ?_⟩
    exact h (v :: before) u after (by rw [heq, List.cons_append])
  · rintro ⟨hfirst, hrest⟩ before u after heq
    cases before with
    | nil =>
        obtain ⟨rfl, -⟩ := List.cons.inj heq
        exact hfirst
    | cons w before =>
        obtain ⟨rfl, htail⟩ := List.cons.inj heq
        exact hrest before u after htail

/-- A round gets to its end exactly if every visit passes at its turn. -/
theorem round_eq_ok {s' : Session} :
    s.round completionType visits = (s', .ok ()) ↔
      s' = s.each completionType visits ∧ s.Quiet completionType visits := by
  induction visits generalizing s with
  | nil => simp [round, each, Quiet, eq_comm]
  | cons v visits ih =>
      rw [quiet_cons, round, each, List.foldl_cons, ← visit_eq_ok]
      cases s.visit completionType v with
      | mk next result =>
          cases result with
          | error e => simp
          | ok u => simpa [each] using ih

theorem round_append {s' : Session} (h : s.round completionType before = (s', .ok ()))
    (rest : List Visit) :
    s.round completionType (before ++ rest) = s'.round completionType rest := by
  induction before generalizing s with
  | nil =>
      cases h
      rfl
  | cons v before ih =>
      rw [List.cons_append, round]
      rw [round] at h
      generalize s.visit completionType v = visited at h
      obtain ⟨next, result⟩ := visited
      cases result with
      | error e => cases h
      | ok u => exact ih h

/-- The requests of a visit whose first step succeeds contain what it owes to the channel. -/
theorem owed_of_archives {events : List Event} {state : UiState} {through : ℕ}
    (hevents : v.own.events = .ok (some events))
    (happly : apply completionType s.state v.channel events = .ok (state, through))
    (hsaved : v.own.saved = .ok ())
    (hcommitted : 0 < through ∧ events ≠ [] → v.own.committed = .ok ()) :
    s.requests ++ owed v.channel.id events through <+: (s.visit completionType v).1.requests := by
  have hown := archive_own (s := s) hevents happly fun _ => hsaved
  have hsync : ∃ mid : Session, s.archive completionType v.channel false v.own = (mid, .ok ()) ∧
      s.requests ++ owed v.channel.id events through = (mid.exchange (.sync v.channel.id)).requests := by
    rw [hown]
    split
    next hdue => exact ⟨_, by rw [hcommitted hdue], by simp [owed, hdue, exchange]⟩
    next hdue => exact ⟨_, rfl, by simp [owed, hdue, exchange]⟩
  obtain ⟨mid, harchive, howed⟩ := hsync
  rw [howed]
  have hgrows := grows_syncTracked completionType mid v
  unfold visit
  rw [harchive]
  dsimp only
  generalize mid.syncTracked completionType v = synced at hgrows
  obtain ⟨last, result⟩ := synced
  cases result with
  | ok u => exact hgrows.requests
  | error e => exact hgrows.requests.trans (grows_note last _ e v.noted).requests

/-- A channel whose events can be archived at its turn is served exactly if the round comes to it
and the acknowledgement is accepted. -/
theorem serves_iff {after : List Visit} (heq : visits = before ++ v :: after) :
    s.Serves completionType visits before v ↔
      ∀ events t through, v.own.events = .ok (some events) → v.own.saved = .ok () →
        apply completionType (s.each completionType before).state v.channel events =
            .ok (t, through) →
          s.Quiet completionType before ∧
            (0 < through ∧ events ≠ [] → v.own.committed = .ok ()) := by
  constructor
  · intro h events t through hevents hsaved happly
    obtain ⟨s', hround, -, hrequests, -⟩ := h events t through hevents hsaved happly
    obtain ⟨rfl, hquiet⟩ := round_eq_ok.mp hround
    refine ⟨hquiet, fun hdue => ?_⟩
    have hown := archive_own (s := s.each completionType before) hevents happly fun _ => hsaved
    rw [if_pos hdue] at hown
    cases hcommitted : v.own.committed with
    | ok u => rfl
    | error e =>
        rw [hcommitted] at hown
        have hvisit : ((s.each completionType before).round completionType (v :: after)).1 =
            ⟨t, (s.each completionType before).requests ++
              [.events v.channel.id, .commitEvents v.channel.id through]⟩ := by
          rw [round, visit, hown]
        rw [heq, round_append hround, hvisit, List.prefix_append_right_inj] at hrequests
        have hlength := hrequests.length_le
        simp [owed, hdue] at hlength
  · intro h events t through hevents hsaved happly
    obtain ⟨hquiet, hcommitted⟩ := h events t through hevents hsaved happly
    have hround : s.round completionType before = (s.each completionType before, .ok ()) :=
      round_eq_ok.mpr ⟨rfl, hquiet⟩
    have hrest : s.round completionType visits =
        (s.each completionType before).round completionType (v :: after) := by
      rw [heq, round_append hround]
    have hstate : ((s.each completionType before).archive completionType v.channel false v.own).1.state
        = t := by
      rw [archive_own hevents happly fun _ => hsaved]
      split
      · rfl
      · rfl
    refine ⟨_, hround, hstate, ?_, ?_⟩
    · rw [hrest]
      exact (owed_of_archives hevents happly hsaved hcommitted).trans
        (grows_visit_round _ v after).requests
    · obtain ⟨room, activity, -, hleave, hthrough⟩ := apply_eq_ok.mp happly
      have hroom : t.hosted[key v.channel.id]? = some room.fillOperations := by
        rw [hleave]
        exact leave_get _ _ _ _
      rw [← hstate] at hroom
      obtain ⟨last, hlast, hle⟩ :=
        ((grows_archive_visit _ v).trans (grows_visit_round _ v after)).rooms _ _ hroom
      rw [hrest]
      exact ⟨last, hlast, hthrough ▸ hle⟩

theorem records_iff :
    s.Records completionType before v ↔
      ∀ failed e, (s.each completionType before).attempt completionType v = (failed, .error e) →
        s.Quiet completionType before ∧
          (v.own.Archives completionType (s.each completionType before).state v.channel ∧
              v.noted = .ok () ∨
            failed.Carries v.channel.id e) := by
  constructor
  · intro h failed e hattempt
    obtain ⟨s', hround, hrecorded⟩ := h failed e hattempt
    obtain ⟨rfl, hquiet⟩ := round_eq_ok.mp hround
    exact ⟨hquiet, (recorded_iff hattempt).mp hrecorded⟩
  · intro h failed e hattempt
    obtain ⟨hquiet, hrecorded⟩ := h failed e hattempt
    exact ⟨_, round_eq_ok.mpr ⟨rfl, hquiet⟩, (recorded_iff hattempt).mpr hrecorded⟩

end Session

/-- The channels of a round fail independently exactly if no channel that stands before one to be
archived or one that fails breaks the round at its turn, the events that are archived can be
acknowledged, and what fails is a synchronization whose error can be recorded. -/
theorem independent_iff_quiet (completionType : String) (s : Session) (visits : List Visit) :
    s.Independent completionType visits ↔
      ∀ before v after, visits = before ++ v :: after →
        (∀ events t through, v.own.events = .ok (some events) → v.own.saved = .ok () →
          apply completionType (s.each completionType before).state v.channel events =
              .ok (t, through) →
            s.Quiet completionType before ∧
              (0 < through ∧ events ≠ [] → v.own.committed = .ok ())) ∧
        ∀ failed e, (s.each completionType before).attempt completionType v = (failed, .error e) →
          s.Quiet completionType before ∧
            (v.own.Archives completionType (s.each completionType before).state v.channel ∧
                v.noted = .ok () ∨
              failed.Carries v.channel.id e) := by
  constructor
  · intro h before v after heq
    obtain ⟨hserves, hrecords⟩ := h before v after heq
    exact ⟨(Session.serves_iff heq).mp hserves, Session.records_iff.mp hrecords⟩
  · intro h before v after heq
    obtain ⟨hserves, hrecords⟩ := h before v after heq
    exact ⟨(Session.serves_iff heq).mpr hserves, Session.records_iff.mpr hrecords⟩

/-! ### A gap before another channel -/

namespace Sample

/-- The archive of the first channel has a gap before its next event. -/
def gap : Visit :=
  { channel := room []
    own := ⟨.ok (some [message 5 peer peer]), .ok (), .ok ()⟩
    sync := .error "offline"
    recovered := ⟨.error "offline", .ok (), .ok ()⟩
    noted := .ok () }

def other : Visit :=
  { gap with
    channel := ⟨Bytes.fill 32 7, self, [], []⟩
    own :=
      ⟨.ok (some [⟨1, Bytes.fill 32 7, 100, .message peer peer (.text "hello") .pending⟩]),
        .ok (), .ok ()⟩ }

end Sample

open Sample in
/-- The channel after one with a gap is not visited, though its events could be archived. -/
theorem gap_stops_round : ¬ Session.Independent "" ⟨⟨∅, []⟩, []⟩ [gap, other] := by
  intro h
  obtain ⟨hserves, -⟩ := h [gap] other [] rfl
  cases happly : apply "" (Session.each "" ⟨⟨∅, []⟩, []⟩ [gap]).state other.channel
      [⟨1, Bytes.fill 32 7, 100, .message peer peer (.text "hello") .pending⟩] with
  | error e =>
      have hok : (apply "" (Session.each "" ⟨⟨∅, []⟩, []⟩ [gap]).state other.channel
          [⟨1, Bytes.fill 32 7, 100, .message peer peer (.text "hello") .pending⟩]).toOption.isSome
          = true := by decide +kernel
      rw [happly] at hok
      cases hok
  | ok result =>
      obtain ⟨s', hround, -⟩ := hserves _ result.1 result.2 rfl rfl happly
      have hstops : (Session.round "" ⟨⟨∅, []⟩, []⟩ [gap]).2 ≠ .ok () := by decide +kernel
      exact hstops (congrArg Prod.snd hround)

end Hosted

end GChat
