import GChat.Service.Markers

/-!
# Reading while messages arrive

The runs of a profile in which messages arrive, requests move the markers, and saves may fail.
No marker ever goes back. What is in memory and what is on disk stay in step as long as no save
that fails has replaced a file, and no failing save was one of a marker of the archive.
-/

namespace GChat

namespace Service

open Foundation Api Store

/-! ### Runs -/

section Definitions

variable {Key Rest : Type}

/-- A profile in use, with the archive of its client. -/
structure Reader (Key Rest : Type) where
  session : Unlocked Key Rest
  archive : Archive.ArchiveData

/-- A request to move a marker, or messages that arrive or are sent. -/
inductive Reading where
  | markRead (conversation message : String) (io : SaveIo)
  | archived (arrival : Arrival)
  | contact (op : { op : Contacts.Op // op.marks = false }) (io : SaveIo)
  | hosted (channel : Hosted.Channel) (recovered : Bool) (events : List Hosted.Event)
      (io : SaveIo)
  | queued (conversation : String) (id : Hosted.Id) (content : Hosted.Content)
      (operation : String) (now : ℕ) (io : SaveIo)

/-- What a step does to the open profile. -/
def Env.attend (env : Env Key Rest) (r : Reader Key Rest) :
    Reading → Unlocked Key Rest × Except String Unit
  | .markRead conversation message io =>
      env.requestMarkRead r.session r.archive conversation message io
  | .archived _ => (r.session, .ok ())
  | .contact op io => env.contact r.session op.val io
  | .hosted channel recovered events io =>
      env.archiveHosted r.session channel recovered events io
  | .queued conversation id content operation now io =>
      env.rememberQueued r.session conversation id content operation now io

def Reading.archive (data : Archive.ArchiveData) : Reading → Archive.ArchiveData
  | .archived arrival => arrival.apply data
  | _ => data

def Env.read (env : Env Key Rest) (r : Reader Key Rest) (reading : Reading) : Reader Key Rest :=
  ⟨(env.attend r reading).1, reading.archive r.archive⟩

/-- A candidate that the step saves is saved, or no file is replaced whose document differs.
The marker of an archived conversation is saved. -/
def Env.Keeps (env : Env Key Rest) (r : Reader Key Rest) : Reading → Prop
  | .markRead conversation message io =>
      r.session.state.Moves r.archive conversation message →
        if r.session.isArchived conversation then
          (r.session.store.save env.cipher env.codec env.formats
            (r.session.state.mark conversation message) io).2 = .ok ()
        else env.Clean r.session (r.session.state.mark conversation message) io
  | .archived _ => True
  | .contact op io => ∀ book, op.val.run env.contactCodec r.session.state.contacts = .ok book →
      savesBook op.val r.session.state.contacts book = true →
      env.Clean r.session { r.session.state with contacts := book } io
  | .hosted channel recovered events io => ∀ candidate through,
      Hosted.apply env.completionType r.session.state.channels channel events =
        .ok (candidate, through) →
      env.Clean r.session
        (r.session.state.withChannels (if recovered then candidate.recovered channel else candidate))
        io
  | .queued conversation id content operation now io => ∀ room,
      r.session.state.hosted[conversation]? = some room →
      env.Clean r.session
        (r.session.state.setRoom conversation (room.rememberQueued id content operation now)) io

def Reader.position (r : Reader Key Rest) (conversation : String) : Option ℕ :=
  r.session.state.markerPosition r.archive conversation

/-- No marker goes back. -/
def Reader.Follows (r r' : Reader Key Rest) : Prop :=
  ∀ (conversation : String) (i : ℕ), r.position conversation = some i →
    ∃ j, r'.position conversation = some j ∧ i ≤ j

/-- A request that fails, or that names a message the marker has passed, changes nothing; one
that returns `ok` leaves the marker saved, at the message or behind it. -/
structure Env.Marks (env : Env Key Rest) (s t : Unlocked Key Rest) (archive : Archive.ArchiveData)
    (conversation message : String) (result : Except String Unit) : Prop where
  failed : ∀ error, result = .error error → t.state = s.state ∧
    ∃ d, s.InSync env d ∧ t.InSync env d
  passed : ¬s.state.Moves archive conversation message → t.state = s.state ∧
    ∃ d, s.InSync env d ∧ t.InSync env d
  done : result = .ok () → ∃ d i j, t.InSync env d ∧
    position (t.state.idsOf archive conversation) message = some i ∧
    (d.marker conversation).bind (position (t.state.idsOf archive conversation)) = some j ∧ i ≤ j

end Definitions

section Runs

variable {Key Rest : Type} {env : Env Key Rest} {s t : Unlocked Key Rest} {d : Documents Rest}
  {state state' : UiState Rest} {archive archive' : Archive.ArchiveData}
  {conversation message : String} {io : SaveIo} {r r' : Reader Key Rest}

/-! ### Markers never go back -/

theorem position_prefix {l l' : List String} (h : l <+: l') {id : String} {i : ℕ}
    (hi : position l id = some i) : position l' id = some i := by
  obtain ⟨more, rfl⟩ := h
  rw [position, List.findIdx?_append]
  rw [position] at hi
  rw [hi]
  rfl

theorem Reader.Follows.refl (r : Reader Key Rest) : r.Follows r :=
  fun _ i h => ⟨i, h, Nat.le_refl i⟩

theorem Reader.Follows.trans {r'' : Reader Key Rest} (h : r.Follows r') (h' : r'.Follows r'') :
    r.Follows r'' := by
  intro conversation i hi
  obtain ⟨j, hj, hle⟩ := h conversation i hi
  obtain ⟨k, hk, hle'⟩ := h' conversation j hj
  exact ⟨k, hk, hle.trans hle'⟩

/-- Conversations that are continued keep the positions of their markers. -/
theorem follows_of_prefix (hmarker : ∀ conversation, r.session.state.marker conversation ≠ none →
      r'.session.state.marker conversation = r.session.state.marker conversation)
    (hids : ∀ conversation, r.session.state.marker conversation ≠ none →
      r.session.state.idsOf r.archive conversation <+:
        r'.session.state.idsOf r'.archive conversation) : r.Follows r' := by
  intro conversation i hi
  obtain ⟨id, hid, hposition⟩ := Option.bind_eq_some_iff.mp hi
  have hsome : r.session.state.marker conversation ≠ none := by
    rw [hid]
    nofun
  refine ⟨i, ?_, Nat.le_refl i⟩
  rw [Reader.position, UiState.markerPosition, hmarker conversation hsome, hid]
  exact position_prefix (hids conversation hsome) hposition

theorem follows_of_state (hstate : r'.session.state = r.session.state)
    (harchive : r'.archive = r.archive) : r.Follows r' := by
  intro conversation i hi
  refine ⟨i, ?_, Nat.le_refl i⟩
  rw [Reader.position, hstate, harchive]
  exact hi

/-! #### A marker that is moved -/

theorem idsOf_mark (state : UiState Rest) (archive : Archive.ArchiveData)
    (conversation message other : String) :
    (state.mark conversation message).idsOf archive other = state.idsOf archive other := by
  by_cases hcontact : Commands.isContact conversation = true
  · rw [UiState.mark, if_pos hcontact]
    cases hc : state.contacts.contacts[conversation]? with
    | none => rfl
    | some c =>
        by_cases hother : Commands.isContact other = true
        · rw [idsOf_contact hother, idsOf_contact hother]
          by_cases heq : conversation = other
          · subst heq
            simp only [Contacts.Book.setContact, StringMap.get_insert_self, hc, Option.map_some,
              Option.getD_some]
          · simp only [Contacts.Book.setContact]
            rw [StringMap.get_insert_of_ne _ _ heq]
        · simp only [UiState.idsOf, UiState.messagesOf, Service.conversation, if_neg hother]
  · rw [mark_of_read hcontact]
    rfl

theorem marker_mark_of_ne {other : String} (h : conversation ≠ other) :
    (state.mark conversation message).marker other = state.marker other := by
  by_cases hcontact : Commands.isContact conversation = true
  · rw [UiState.mark, if_pos hcontact]
    cases hc : state.contacts.contacts[conversation]? with
    | none => rfl
    | some c =>
        simp only [UiState.marker, Contacts.Book.setContact]
        rw [StringMap.get_insert_of_ne _ _ h]
  · rw [mark_of_read hcontact]
    simp only [UiState.marker]
    rw [StringMap.get_insert_of_ne _ _ h]

theorem marker_mark {next : ℕ}
    (hnext : position (state.idsOf archive conversation) message = some next) :
    (state.mark conversation message).marker conversation = some message := by
  by_cases hcontact : Commands.isContact conversation = true
  · cases hc : state.contacts.contacts[conversation]? with
    | none =>
        rw [idsOf_contact hcontact, hc] at hnext
        cases hnext
    | some c =>
        rw [marker_contact hcontact, UiState.mark, if_pos hcontact, hc]
        simp only [Contacts.Book.setContact, StringMap.get_insert_self, Option.bind_some]
  · rw [marker_read hcontact, mark_of_read hcontact]
    exact StringMap.get_insert_self _ _ _

/-- The marker is at the message. -/
theorem markerPosition_mark {next : ℕ}
    (hnext : position (state.idsOf archive conversation) message = some next) :
    (state.mark conversation message).markerPosition archive conversation = some next := by
  rw [UiState.markerPosition, marker_mark hnext, idsOf_mark]
  exact hnext

theorem follows_mark (hmoves : r.session.state.Moves r.archive conversation message)
    (hstate : r'.session.state = r.session.state.mark conversation message)
    (harchive : r'.archive = r.archive) : r.Follows r' := by
  obtain ⟨next, hnext, hlater⟩ := hmoves
  intro other i hi
  by_cases heq : conversation = other
  · subst heq
    refine ⟨next, ?_, (hlater i hi).le⟩
    rw [Reader.position, hstate, harchive]
    exact markerPosition_mark hnext
  · refine ⟨i, ?_, Nat.le_refl i⟩
    rw [Reader.position, UiState.markerPosition, hstate, harchive, marker_mark_of_ne heq,
      idsOf_mark]
    exact hi

/-! #### Conversations that are continued -/

theorem idsOf_archive (h : ArchiveContinues archive archive') (conversation : String) :
    state.idsOf archive conversation <+: state.idsOf archive' conversation := by
  by_cases hcontact : Commands.isContact conversation = true
  · rw [idsOf_contact hcontact, idsOf_contact hcontact]
  · cases hroom : state.hosted[conversation]? with
    | some room =>
        rw [idsOf_hosted hcontact hroom, idsOf_hosted hcontact hroom]
    | none =>
        rw [idsOf_archived hcontact hroom, idsOf_archived hcontact hroom]
        cases hmessages : conversationMessages archive conversation with
        | error error => exact List.nil_prefix
        | ok messages =>
            obtain ⟨messages', hmessages', hpre⟩ := h conversation messages hmessages
            rw [hmessages']
            have hhex := hpre.map fun id => hex id.toList
            rw [archivedIds, archivedIds, List.map_map, List.map_map] at hhex
            exact hhex

theorem idsOf_book {book : Contacts.Book} (h : state.contacts.Continues book)
    (conversation : String) :
    state.idsOf archive conversation <+:
      ({ state with contacts := book } : UiState Rest).idsOf archive conversation := by
  by_cases hcontact : Commands.isContact conversation = true
  · rw [idsOf_contact hcontact, idsOf_contact hcontact]
    cases hc : state.contacts.contacts[conversation]? with
    | none => exact List.nil_prefix
    | some c =>
        obtain ⟨c', hc', hgrows⟩ := h conversation c hc
        dsimp only
        rw [hc']
        have hpre := hgrows.entries.map (·.id)
        rw [List.map_map, List.map_map] at hpre
        exact hpre
  · simp only [UiState.idsOf, UiState.messagesOf, Service.conversation, if_neg hcontact]
    exact List.prefix_rfl

theorem marker_book {book : Contacts.Book} (h : state.contacts.Continues book)
    (hmarker : state.marker conversation ≠ none) :
    ({ state with contacts := book } : UiState Rest).marker conversation =
      state.marker conversation := by
  by_cases hcontact : Commands.isContact conversation = true
  · rw [marker_contact hcontact] at hmarker ⊢
    rw [marker_contact hcontact]
    cases hc : state.contacts.contacts[conversation]? with
    | none =>
        rw [hc] at hmarker
        exact absurd rfl hmarker
    | some c =>
        obtain ⟨c', hc', hgrows⟩ := h conversation c hc
        dsimp only
        rw [hc']
        exact hgrows.read
  · rw [marker_read hcontact, marker_read hcontact]

theorem idsOf_rooms (hrooms : Hosted.Continues state.hosted state'.hosted)
    (hcontacts : state'.contacts = state.contacts) (conversation : String) :
    state.idsOf archive conversation <+: state'.idsOf archive conversation := by
  by_cases hcontact : Commands.isContact conversation = true
  · rw [idsOf_contact hcontact, idsOf_contact hcontact, hcontacts]
  · cases hroom : state.hosted[conversation]? with
    | some room =>
        obtain ⟨room', hroom', hpre⟩ := hrooms.kept conversation room hroom
        rw [idsOf_hosted hcontact hroom, idsOf_hosted hcontact hroom']
        exact hpre
    | none =>
        rw [idsOf_archived hcontact hroom]
        cases hroom' : state'.hosted[conversation]? with
        | none =>
            rw [idsOf_archived hcontact hroom']
        | some room' =>
            -- the archive has no conversation with the key of a hosted channel
            obtain ⟨channel, rfl⟩ := hrooms.new conversation room' hroom hroom'
            cases hmessages : conversationMessages archive (Hosted.key channel) with
            | error error => exact List.nil_prefix
            | ok messages => exact absurd hmessages (conversationMessages_key archive channel messages)

theorem follows_of_rooms (hrooms : Hosted.Continues r.session.state.hosted r'.session.state.hosted)
    (hcontacts : r'.session.state.contacts = r.session.state.contacts)
    (hread : r'.session.state.read = r.session.state.read)
    (harchive : r'.archive = r.archive) : r.Follows r' := by
  refine follows_of_prefix (fun conversation _ => ?_) (fun conversation _ => ?_)
  · rw [UiState.marker, UiState.marker, hcontacts, hread]
  · rw [harchive]
    exact idsOf_rooms hrooms hcontacts conversation

/-! #### One step -/

/-- A commit leaves the state, or it publishes the candidate. -/
theorem commit_state (env : Env Key Rest) (s : Unlocked Key Rest) (candidate : UiState Rest)
    (io : SaveIo) :
    (env.commit s candidate io).1.state = s.state ∨
      (env.commit s candidate io).1.state = candidate := by
  obtain ⟨message, -, herror⟩ | ⟨store, -, hok⟩ := commit_cases env s candidate io
  · rw [herror]
    exact Or.inl rfl
  · rw [hok]
    exact Or.inr rfl

theorem persist_eq (env : Env Key Rest) (s : Unlocked Key Rest) (io : SaveIo) :
    env.persist s io = (⟨(s.store.save env.cipher env.codec env.formats s.state io).1, s.state⟩,
      (s.store.save env.cipher env.codec env.formats s.state io).2) := rfl

theorem follows_markRead (env : Env Key Rest) (r : Reader Key Rest)
    (conversation message : String) (io : SaveIo) :
    r.Follows (env.read r (.markRead conversation message io)) := by
  unfold Env.read Env.attend
  dsimp only
  have houtcome := requestMarkRead_outcome env r.session r.archive conversation message io
  generalize env.requestMarkRead r.session r.archive conversation message io = result at houtcome
  cases houtcome with
  | unknown error h => exact .refl r
  | kept next h hmoves => exact .refl r
  | saved next h hmoves =>
      obtain heq | heq := commit_state env r.session r.session.state io
      · exact follows_of_state heq rfl
      · exact follows_of_state heq rfl
  | moved hmoves harchived =>
      obtain heq | heq := commit_state env r.session (r.session.state.mark conversation message) io
      · exact follows_of_state heq rfl
      · exact follows_mark hmoves heq rfl
  | inPlace hmoves harchived => exact follows_mark hmoves rfl rfl

theorem follows_contact (env : Env Key Rest) (r : Reader Key Rest)
    (op : { op : Contacts.Op // op.marks = false }) (io : SaveIo) :
    r.Follows (env.read r (.contact op io)) := by
  unfold Env.read Env.attend Env.contact
  dsimp only
  cases hrun : op.val.run env.contactCodec r.session.state.contacts with
  | error message => exact .refl r
  | ok book =>
      dsimp only
      have hbook := Contacts.continues_run op.property hrun
      split
      · obtain heq | heq := commit_state env r.session { r.session.state with contacts := book } io
        · exact follows_of_state heq rfl
        · refine follows_of_prefix (fun conversation hmarker => ?_) (fun conversation _ => ?_)
          · rw [heq]
            exact marker_book hbook hmarker
          · rw [heq]
            exact idsOf_book hbook conversation
      · exact .refl r

theorem follows_hosted (env : Env Key Rest) (r : Reader Key Rest) (channel : Hosted.Channel)
    (recovered : Bool) (events : List Hosted.Event) (io : SaveIo) :
    r.Follows (env.read r (.hosted channel recovered events io)) := by
  unfold Env.read Env.attend Env.archiveHosted
  dsimp only
  cases happly : Hosted.apply env.completionType r.session.state.channels channel events with
  | error message => exact .refl r
  | ok result =>
      obtain ⟨candidate, through⟩ := result
      dsimp only
      have hrooms : Hosted.Continues r.session.state.hosted
          (if recovered then candidate.recovered channel else candidate).hosted := by
        have happlied := Hosted.continues_apply happly
        cases recovered with
        | true => exact happlied.trans (Hosted.continues_recovered candidate channel)
        | false => exact happlied
      generalize (if recovered then candidate.recovered channel else candidate) = candidate
        at hrooms ⊢
      split
      · obtain heq | heq := commit_state env r.session (r.session.state.withChannels candidate) io
        · exact follows_of_state heq rfl
        · refine follows_of_rooms ?_ ?_ ?_ rfl
          · rw [heq]
            exact hrooms
          · rw [heq]
            rfl
          · rw [heq]
            rfl
      · exact .refl r

theorem follows_queued (env : Env Key Rest) (r : Reader Key Rest) (conversation : String)
    (id : Hosted.Id) (content : Hosted.Content) (operation : String) (now : ℕ) (io : SaveIo) :
    r.Follows (env.read r (.queued conversation id content operation now io)) := by
  unfold Env.read Env.attend Env.rememberQueued
  dsimp only
  cases hroom : r.session.state.hosted[conversation]? with
  | none => exact .refl r
  | some room =>
      dsimp only
      obtain heq | heq := commit_state env r.session (r.session.state.setRoom conversation
        (room.rememberQueued id content operation now)) io
      · exact follows_of_state heq rfl
      · refine follows_of_rooms ?_ ?_ ?_ rfl
        · rw [heq]
          exact .insert hroom (Hosted.ids_rememberQueued room id content operation now)
        · rw [heq]
          rfl
        · rw [heq]
          rfl

/-- No step takes a marker back. -/
theorem follows_read (env : Env Key Rest) (r : Reader Key Rest) (reading : Reading) :
    r.Follows (env.read r reading) := by
  cases reading with
  | markRead conversation message io => exact follows_markRead env r conversation message io
  | archived arrival =>
      exact follows_of_prefix (fun _ _ => rfl) fun conversation _ =>
        idsOf_archive (arrival.continues r.archive) conversation
  | contact op io => exact follows_contact env r op io
  | hosted channel recovered events io => exact follows_hosted env r channel recovered events io
  | queued conversation id content operation now io =>
      exact follows_queued env r conversation id content operation now io

theorem follows_foldl (env : Env Key Rest) (r : Reader Key Rest) (readings : List Reading) :
    r.Follows (readings.foldl env.read r) := by
  induction readings generalizing r with
  | nil => exact .refl r
  | cons reading readings ih => exact (follows_read env r reading).trans (ih (env.read r reading))

/-! ### Memory and disk -/

/-- The marker in the documents is that in memory. -/
theorem Unlocked.InSync.marker (h : s.InSync env d) {id : String}
    (hmarker : s.state.marker conversation = some id) : d.marker conversation = some id := by
  by_cases hcontact : Commands.isContact conversation = true
  · rw [marker_contact hcontact] at hmarker
    rw [Documents.marker, if_pos hcontact]
    obtain ⟨c, hc, hid⟩ := Option.bind_eq_some_iff.mp hmarker
    have hthere : Book.isEmpty s.state.contacts = false := by
      have hsome : s.state.contacts.contacts.isEmpty = false := by
        rw [Bool.eq_false_iff]
        intro hempty
        rw [Std.ExtTreeMap.isEmpty_iff.mp hempty] at hc
        cases hc
      rw [Book.isEmpty, hsome]
      rfl
    have hbook := h.agrees.book (by rw [hthere]; rfl)
    rw [hbook]
    exact hmarker
  · rw [marker_read hcontact] at hmarker
    rw [Documents.marker, if_neg hcontact, h.agrees.legacy]
    exact hmarker

/-- To save the state as it is changes neither memory nor the documents. -/
theorem commit_self (h : s.InSync env d) (io : SaveIo) :
    (env.commit s s.state io).1.state = s.state ∧ (env.commit s s.state io).1.InSync env d := by
  have hspared := h.spared (spares_self env s io)
  obtain ⟨message, -, herror⟩ | ⟨store, hsave, hok⟩ := commit_cases env s s.state io
  · rw [herror]
    exact ⟨rfl, hspared⟩
  · rw [hok]
    rw [hsave] at hspared
    exact ⟨rfl, hspared⟩

theorem commit_keeps (h : s.InSync env d) {candidate : UiState Rest}
    (hclean : env.Clean s candidate io) : ∃ kept, (env.commit s candidate io).1.InSync env kept := by
  obtain ⟨store, kept, heq, hkept⟩ | ⟨store, message, heq, hkept⟩ := commit_inSync h hclean
  · rw [heq]
    exact ⟨kept, hkept⟩
  · rw [heq]
    exact ⟨d, hkept⟩

/-- The message of a request is where the marker is, or before it. -/
theorem passed_of_not_moves {next : ℕ}
    (hnext : position (state.idsOf archive conversation) message = some next)
    (hmoves : ¬state.Moves archive conversation message) :
    ∃ i, state.markerPosition archive conversation = some i ∧ next ≤ i := by
  cases hposition : state.markerPosition archive conversation with
  | none =>
      refine absurd ⟨next, hnext, fun i hi => ?_⟩ hmoves
      rw [hposition] at hi
      cases hi
  | some i =>
      refine ⟨i, rfl, ?_⟩
      by_contra hlt
      refine hmoves ⟨next, hnext, fun j hj => ?_⟩
      rw [hposition] at hj
      cases hj
      exact Nat.lt_of_not_le hlt

theorem Unlocked.InSync.position (h : s.InSync env d) {i : ℕ}
    (hi : s.state.markerPosition archive conversation = some i) :
    (d.marker conversation).bind (Service.position (s.state.idsOf archive conversation)) =
      some i := by
  obtain ⟨id, hid, hposition⟩ := Option.bind_eq_some_iff.mp hi
  rw [h.marker hid]
  exact hposition

/-- Nothing changed, and the marker is behind the message. -/
theorem marks_of_passed (h : s.InSync env d) (ht : t.InSync env d) (hstate : t.state = s.state)
    {next : ℕ} (hnext : position (s.state.idsOf archive conversation) message = some next)
    (hmoves : ¬s.state.Moves archive conversation message) (result : Except String Unit) :
    env.Marks s t archive conversation message result := by
  refine ⟨fun _ _ => ⟨hstate, d, h, ht⟩, fun _ => ⟨hstate, d, h, ht⟩, fun _ => ?_⟩
  obtain ⟨i, hi, hle⟩ := passed_of_not_moves hnext hmoves
  rw [← hstate] at hi hnext
  exact ⟨d, next, i, ht, hnext, ht.position hi, hle⟩

/-- The marker is at the message, in memory and in the documents. -/
theorem marks_of_moved (ht : t.InSync env d)
    (hstate : t.state = s.state.mark conversation message)
    (hmoves : s.state.Moves archive conversation message) :
    env.Marks s t archive conversation message (.ok ()) := by
  refine ⟨nofun, fun h => absurd hmoves h, fun _ => ?_⟩
  obtain ⟨next, hnext, -⟩ := hmoves
  have hposition := markerPosition_mark hnext
  rw [← hstate] at hposition
  rw [← idsOf_mark s.state archive conversation message, ← hstate] at hnext
  exact ⟨d, next, next, ht, hnext, ht.position hposition, Nat.le_refl next⟩

theorem marks_markRead (h : s.InSync env d)
    (hkeeps : env.Keeps ⟨s, archive⟩ (.markRead conversation message io)) :
    (∃ d', (env.requestMarkRead s archive conversation message io).1.InSync env d') ∧
      env.Marks s (env.requestMarkRead s archive conversation message io).1 archive conversation
        message (env.requestMarkRead s archive conversation message io).2 := by
  have houtcome := requestMarkRead_outcome env s archive conversation message io
  generalize env.requestMarkRead s archive conversation message io = result at houtcome
  cases houtcome with
  | unknown error hunknown =>
      exact ⟨⟨d, h⟩, ⟨fun _ _ => ⟨rfl, d, h, h⟩, fun _ => ⟨rfl, d, h, h⟩, nofun⟩⟩
  | kept next hnext hmoves => exact ⟨⟨d, h⟩, marks_of_passed h h rfl hnext hmoves _⟩
  | saved next hnext hmoves =>
      obtain ⟨hstate, hsame⟩ := commit_self h io
      exact ⟨⟨d, hsame⟩, marks_of_passed h hsame hstate hnext hmoves _⟩
  | moved hmoves harchived =>
      have hclean := hkeeps hmoves
      rw [if_neg (by rw [harchived]; nofun)] at hclean
      obtain ⟨store, kept, heq, hkept⟩ | ⟨store, error, heq, hkept⟩ := commit_inSync h hclean
      · rw [heq]
        exact ⟨⟨kept, hkept⟩, marks_of_moved hkept rfl hmoves⟩
      · rw [heq]
        exact ⟨⟨d, hkept⟩, ⟨fun _ _ => ⟨rfl, d, h, hkept⟩, fun hnot => absurd hmoves hnot, nofun⟩⟩
  | inPlace hmoves harchived =>
      have hsaved := hkeeps hmoves
      rw [if_pos harchived] at hsaved
      rw [persist_eq]
      dsimp only at hsaved ⊢
      cases hsave : s.store.save env.cipher env.codec env.formats
          (s.state.mark conversation message) io with
      | mk store result =>
          rw [hsave] at hsaved
          cases hsaved
          obtain ⟨kept, hkept⟩ := inSync_of_save h.holds hsave
          exact ⟨⟨kept, hkept⟩, marks_of_moved hkept rfl hmoves⟩

/-- A step keeps memory and disk in step. -/
theorem inSync_read (h : r.session.InSync env d) {reading : Reading}
    (hkeeps : env.Keeps r reading) : ∃ d', (env.read r reading).session.InSync env d' := by
  cases reading with
  | markRead conversation message io => exact (marks_markRead h hkeeps).1
  | archived arrival => exact ⟨d, h⟩
  | contact op io =>
      unfold Env.read Env.attend Env.contact
      dsimp only
      cases hrun : op.val.run env.contactCodec r.session.state.contacts with
      | error message => exact ⟨d, h⟩
      | ok book =>
          dsimp only
          split
          next hsaves => exact commit_keeps h (hkeeps book hrun hsaves)
          next => exact ⟨d, h⟩
  | hosted channel recovered events io =>
      unfold Env.read Env.attend Env.archiveHosted
      dsimp only
      cases happly : Hosted.apply env.completionType r.session.state.channels channel events with
      | error message => exact ⟨d, h⟩
      | ok result =>
          obtain ⟨candidate, through⟩ := result
          have hclean := hkeeps candidate through happly
          dsimp only
          generalize (if recovered then candidate.recovered channel else candidate) = candidate
            at hclean ⊢
          split
          · exact commit_keeps h hclean
          · exact ⟨d, h⟩
  | queued conversation id content operation now io =>
      unfold Env.read Env.attend Env.rememberQueued
      dsimp only
      cases hroom : r.session.state.hosted[conversation]? with
      | none => exact ⟨d, h⟩
      | some room => exact commit_keeps h (hkeeps room hroom)

theorem inSync_foldl (h : r.session.InSync env d) {readings : List Reading}
    (hkeeps : Machine.Meets env.Keeps env.read r readings) :
    ∃ d', (readings.foldl env.read r).session.InSync env d' := by
  induction readings generalizing r d with
  | nil => exact ⟨d, h⟩
  | cons reading readings ih =>
      obtain ⟨d', h'⟩ := inSync_read h hkeeps.1
      exact ih h' hkeeps.2

/-- A profile that was unlocked is in step with its files. -/
theorem unlock_inSync {store : ServiceStateStore Key} (hcipher : env.cipher.Lawful)
    (hformats : env.formats.Lawful) (hd : store.Holds env d) {opening : Opening}
    (h : env.unlock store.files opening = .ok s) : ∃ d', s.InSync env d' := by
  rw [unlock_eq] at h
  obtain ⟨u, hopen, h⟩ := bind_eq_ok.mp h
  obtain ⟨hholds, -⟩ := openFiles_holds hcipher hformats hd hopen
  obtain ⟨message, hfailed, -⟩ | ⟨kept, hsave, hok⟩ := commit_cases env u u.state opening.save
  · cases hcommit : env.commit u u.state opening.save with
    | mk v result =>
        rw [hcommit] at hfailed h
        rw [show result = .error message from hfailed] at h
        cases h
  · rw [hok] at h
    cases h
    exact inSync_of_save hholds hsave

/-- A marker of the archive that moves while its save fails stays in memory. -/
theorem keeps_of_marks (harchived : r.session.isArchived conversation = true)
    (hmarks : env.Marks r.session
      (env.requestMarkRead r.session r.archive conversation message io).1 r.archive conversation
      message (env.requestMarkRead r.session r.archive conversation message io).2) :
    env.Keeps r (.markRead conversation message io) := by
  intro hmoves
  rw [if_pos harchived]
  have houtcome := requestMarkRead_outcome env r.session r.archive conversation message io
  generalize env.requestMarkRead r.session r.archive conversation message io = result
    at houtcome hmarks
  cases houtcome with
  | unknown error h =>
      obtain ⟨next, hnext, -⟩ := hmoves
      rw [h] at hnext
      cases hnext
  | kept next h hnot => exact absurd hmoves hnot
  | saved next h hnot => exact absurd hmoves hnot
  | moved _ hnot =>
      rw [harchived] at hnot
      cases hnot
  | inPlace _ _ =>
      rw [persist_eq] at hmarks
      dsimp only at hmarks
      cases hsave : (r.session.store.save env.cipher env.codec env.formats
          (r.session.state.mark conversation message) io).2 with
      | ok u => rfl
      | error error =>
          obtain ⟨hstate, -⟩ := hmarks.failed error hsave
          dsimp only at hstate
          obtain ⟨next, hnext, hlater⟩ := hmoves
          have hposition := markerPosition_mark hnext
          rw [hstate] at hposition
          exact absurd (hlater next hposition) (Nat.lt_irrefl next)

/-- In a run that keeps memory and disk in step no marker goes back, the unread count is the
number of messages that wait, and each request leaves its marker saved or changes nothing. For
the archive that is so exactly if the marker that moves is saved. -/
theorem read_markers {store : ServiceStateStore Key} (hcipher : env.cipher.Lawful)
    (hformats : env.formats.Lawful) (hd : store.Holds env d) {opening : Opening}
    (hunlock : env.unlock store.files opening = .ok s) (archive : Archive.ArchiveData)
    {readings : List Reading} (hkeeps : Machine.Meets env.Keeps env.read ⟨s, archive⟩ readings) :
    let r := readings.foldl env.read ⟨s, archive⟩
    (∀ more, r.Follows (List.foldl env.read r more)) ∧
    (∀ conversation, (r.session.state.waiting r.archive conversation).length ≤ unreadLimit →
      r.session.state.unread r.archive conversation =
        (r.session.state.waiting r.archive conversation).length) ∧
    (∀ conversation message io, env.Keeps r (.markRead conversation message io) →
      env.Marks r.session
        (env.requestMarkRead r.session r.archive conversation message io).1 r.archive conversation
        message (env.requestMarkRead r.session r.archive conversation message io).2) ∧
    ∀ conversation message io, r.session.isArchived conversation = true →
      env.Marks r.session
        (env.requestMarkRead r.session r.archive conversation message io).1 r.archive conversation
        message (env.requestMarkRead r.session r.archive conversation message io).2 →
      env.Keeps r (.markRead conversation message io) := by
  intro r
  obtain ⟨d₀, hstart⟩ := unlock_inSync hcipher hformats hd hunlock
  obtain ⟨d', hsync⟩ : ∃ d', r.session.InSync env d' := inSync_foldl hstart hkeeps
  refine ⟨follows_foldl env r, fun conversation hbound => ?_, ?_, ?_⟩
  · rw [unread_eq_waiting, Nat.min_eq_left hbound]
  · exact fun conversation message io hclean => (marks_markRead hsync hclean).2
  · exact fun conversation message io harchived hmarks => keeps_of_marks harchived hmarks

end Runs

namespace Sample

/-! ### A marker of a channel -/

def roomKey : String := Archive.channelKey Archive.room.id

def greeting : String := hex (Bytes.fill 16 5).toList

/-- The document of the profile, with its read markers. -/
def readLegacy (read : StringMap String) : Legacy Unit := { profileLegacy ∅ with read := read }

def marked : StringMap String := (∅ : StringMap String).insert roomKey greeting

def markedText : List UInt8 :=
  utf8 (object [("instance_id", quote env.host.id), ("safety_number", quote "12345"),
    ("read", object [(roomKey, quote greeting)]),
    ("file_key", array (List.replicate 32 (number 5)))])

def isReader (d : Legacy Unit) : Bool :=
  d.activity == [] && d.instanceId == env.host.id && d.safetyNumber == "12345" &&
    d.commandHistory == [] && d.inputHistory == [] && d.operations.isEmpty &&
    d.messageMetadata.isEmpty && d.fileKey == some (Bytes.fill 32 5)

def readFormat : Format (Legacy Unit) where
  toVec d :=
    if isReader d && d.read == ∅ then .ok newText
    else if isReader d && d.read == marked then .ok markedText
    else .error "no sample"
  fromSlice bytes :=
    if bytes = newText then .ok (readLegacy ∅)
    else if bytes = markedText then .ok (readLegacy marked)
    else .error "no sample"

def readEnv : Env Unit Unit :=
  { crashEnv with formats := { crashEnv.formats with legacy := readFormat } }

theorem isReader_eq {d : Legacy Unit} (h : isReader d = true) : d = readLegacy d.read := by
  obtain ⟨activity, instanceId, safetyNumber, read, commandHistory, inputHistory, operations,
    messageMetadata, fileKey, rest⟩ := d
  simp only [isReader, Bool.and_eq_true, beq_iff_eq, Std.ExtTreeMap.isEmpty_iff] at h
  obtain ⟨⟨⟨⟨⟨⟨⟨rfl, rfl⟩, rfl⟩, rfl⟩, rfl⟩, rfl⟩, rfl⟩, rfl⟩ := h
  rfl

theorem readFormat_lawful : readFormat.Lawful := by
  have htexts : markedText ≠ newText := by decide +kernel
  intro d bytes h
  change (if _ then _ else if _ then _ else _) = _ at h
  change (if _ then _ else if _ then _ else _) = _
  split at h
  case isTrue heq =>
    cases h
    simp only [Bool.and_eq_true, beq_iff_eq] at heq
    rw [if_pos rfl, isReader_eq heq.1, heq.2]
  case isFalse =>
    split at h
    case isTrue heq =>
      cases h
      simp only [Bool.and_eq_true, beq_iff_eq] at heq
      rw [if_neg htexts, if_pos rfl, isReader_eq heq.1, heq.2]
    case isFalse => cases h

theorem readFormats_lawful : readEnv.formats.Lawful :=
  ⟨formats_lawful.retained, formats_lawful.book, formats_lawful.preferences, readFormat_lawful⟩

theorem readStore_holds : profileStore.Holds readEnv profileDocuments :=
  ⟨rfl, ⟨⟨rfl, rfl⟩, Or.inr ⟨newText, Bytes.fill 12 0, rfl, rfl⟩⟩, saved_holds.retained,
    saved_holds.book, saved_holds.preferences⟩

def opened : Except String (Unlocked Unit Unit) := readEnv.unlock profileStore.files opening

def marks (io : SaveIo) : Reading := .markRead roomKey greeting io

def markWith (r : Reader Unit Unit) (io : SaveIo) : Reader Unit Unit := readEnv.read r (marks io)

/-- What the request returns, the marker and the file. -/
def marking (r : Reader Unit Unit) (io : SaveIo) :
    Except String Unit × Option String × Option (List UInt8) :=
  ((readEnv.attend r (marks io)).2, (markWith r io).session.state.marker roomKey,
    (markWith r io).session.store.legacy.file)

end Sample

open Sample in
/-- The save of the first request fails and the marker stays in memory; the second request
returns `ok` and saves nothing. -/
theorem failed_marker_not_saved : ∃ s, opened = .ok s ∧
    s.state.marker roomKey = none ∧
    marking ⟨s, unseen.archive⟩ failing =
      (.error "I/O error", some greeting, s.store.legacy.file) ∧
    marking (markWith ⟨s, unseen.archive⟩ failing) saveIo =
      (.ok (), some greeting, s.store.legacy.file) := by
  have hrun : (opened.toOption.map fun s =>
      s.state.marker roomKey == none &&
      (decide (marking ⟨s, unseen.archive⟩ failing =
        (.error "I/O error", some greeting, s.store.legacy.file)) &&
      decide (marking (markWith ⟨s, unseen.archive⟩ failing) saveIo =
        (.ok (), some greeting, s.store.legacy.file)))) = some true := by decide +kernel
  obtain ⟨s, hs, h⟩ := Option.map_eq_some_iff.mp hrun
  simp only [Bool.and_eq_true, beq_iff_eq, decide_eq_true_eq] at h
  exact ⟨s, toOption_eq_some.mp hs, h⟩

open Sample in
/-- The marker is saved, and nothing is unread. -/
theorem sample_read_markers : ∃ s, opened = .ok s ∧
    let r := markWith ⟨s, unseen.archive⟩ saveIo
    r.session.state.unread r.archive roomKey = 0 ∧
      (∀ more, r.Follows (List.foldl readEnv.read r more)) ∧
      readEnv.Marks r.session (readEnv.requestMarkRead r.session r.archive roomKey greeting failing).1
        r.archive roomKey greeting
        (readEnv.requestMarkRead r.session r.archive roomKey greeting failing).2 := by
  have hrun : (opened.toOption.map fun s =>
      decide ((s.store.save readEnv.cipher readEnv.codec readEnv.formats
        (s.state.mark roomKey greeting) saveIo).2 = .ok ()) &&
      (decide (((markWith ⟨s, unseen.archive⟩ saveIo).session.state.waiting unseen.archive
        roomKey).length = 0) &&
      (decide ((markWith ⟨s, unseen.archive⟩ saveIo).position roomKey = some 0) &&
      (decide (position ((markWith ⟨s, unseen.archive⟩ saveIo).session.state.idsOf unseen.archive
        roomKey) greeting = some 0) &&
      s.isArchived roomKey)))) = some true := by decide +kernel
  obtain ⟨s, hs, h⟩ := Option.map_eq_some_iff.mp hrun
  simp only [Bool.and_eq_true, decide_eq_true_eq] at h
  obtain ⟨hsaved, hwaiting, hmarker, hmessage, harchived⟩ := h
  have hkeeps : Machine.Meets readEnv.Keeps readEnv.read ⟨s, unseen.archive⟩ [marks saveIo] := by
    refine ⟨fun _ => ?_, trivial⟩
    rw [if_pos harchived]
    exact hsaved
  obtain ⟨hfollows, hunread, hmarks, -⟩ := read_markers sampleCipher_lawful readFormats_lawful
    readStore_holds (toOption_eq_some.mp hs) unseen.archive hkeeps
  refine ⟨s, toOption_eq_some.mp hs, ?_, hfollows, ?_⟩
  · have hcount := hunread roomKey
    change ((markWith ⟨s, unseen.archive⟩ saveIo).session.state.waiting unseen.archive
      roomKey).length ≤ _ → _ = ((markWith ⟨s, unseen.archive⟩ saveIo).session.state.waiting
        unseen.archive roomKey).length at hcount
    rw [hwaiting] at hcount
    exact hcount (Nat.zero_le _)
  · refine hmarks roomKey greeting failing fun hmoves => ?_
    obtain ⟨next, hnext, hlater⟩ := hmoves
    have hzero : 0 = next := Option.some.inj (hmessage.symm.trans hnext)
    have hlt : 0 < next := hlater 0 hmarker
    exact absurd hzero hlt.ne

end Service

end GChat
