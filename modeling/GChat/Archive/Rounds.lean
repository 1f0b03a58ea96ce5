import GChat.Archive.Inbox
import GChat.Foundation.Upsert

/-!
# The inbox loop round by round

A round takes the deliveries of the durable inbox in order. One whose channel is not known has
the archive reconciled first. The first delivery that fails ends the round, and the next round
starts with it again. The answers of the SDK stay the same from round to round here, and the
store and the commits do not fail: what is left are the deliveries the archive does not take.
-/

namespace GChat

namespace Archive

open Foundation

/-! ### Reconciling -/

/-- What the SDK answers: the joined channels, with the roster of each. -/
abbrev Listing := Except String (List (JoinedChannel × Except String (List RosterMember)))

/-- The sections after the first one; a roster that is not answered ends the call. -/
def mergeListed (now : ℕ) : List (JoinedChannel × Except String (List RosterMember)) →
    ArchiveData → ArchiveData × Except String Unit
  | [], data => (data, .ok ())
  | (_, .error message) :: _, data => (data, .error message)
  | (joined, .ok roster) :: rest, data => mergeListed now rest (mergeChannel data joined roster now)

/-- A reconciliation as it is run, errors included. -/
def reconcile (listing : Listing) (now : ℕ) (data : ArchiveData) :
    ArchiveData × Except String Unit :=
  match listing with
  | .error message => (data, .error message)
  | .ok joined => mergeListed now joined (dropLost data (joined.map fun j => j.1.id))

section Reconcile

variable {now : ℕ}

/-- The channels that are merged before a roster is not answered. -/
def answered : List (JoinedChannel × Except String (List RosterMember)) →
    List (JoinedChannel × List RosterMember)
  | (joined, .ok roster) :: rest => (joined, roster) :: answered rest
  | _ => []

/-- Every active record is of a listed channel. -/
def Listed (ids : List ChannelId) (records : List ChannelRecord) : Prop :=
  ∀ c ∈ records, c.active = true → c.id ∈ ids

end Reconcile

/-! ### Rounds -/

/-- Whether there is a record of the channel of a delivery. -/
def known (data : ArchiveData) (e : ClientEvent) : Bool :=
  match e.deliveryChannel with
  | none => false
  | some channel => data.channels.any (names channel)

/-- The archive a delivery is taken to, and whether it could be reconciled where it had to. -/
def brought (listing : Listing) (now : ℕ) (data : ArchiveData) (e : ClientEvent) :
    ArchiveData × Except String Unit :=
  if known data e then (data, .ok ()) else reconcile listing now data

/-- Archive a delivery; the storage sink saves it from the slot. -/
def Inbox.archiveDelivery (s : Inbox) (e : ClientEvent) (outcome : SaveOutcome) :
    Inbox × Except String Unit :=
  match deliveryReady s.memory e with
  | .error message => (s, .error message)
  | .ok () =>
      match s.mode with
      | .archive => s.publish (archiveCandidate s.memory e) outcome
      | .embedded => { s with pendingArchive := some e }.sinkSave outcome

def Inbox.takeDelivery (listing : Listing) (now : ℕ) (s : Inbox) (e : ClientEvent) :
    Inbox × Except String Unit :=
  match brought listing now s.memory e with
  | (data, .error message) => ({ s with memory := data }, .error message)
  | (data, .ok ()) => { s with memory := data }.archiveDelivery e .saved

/-- A round over the deliveries that wait, and those that wait after it. -/
def Inbox.round (listing : Listing) (now : ℕ) : Inbox → List ClientEvent → Inbox × List ClientEvent
  | s, [] => (s, [])
  | s, e :: waiting =>
      match s.takeDelivery listing now e with
      | (s, .ok ()) =>
          Inbox.round listing now { s with committed := s.committed ++ [e] } waiting
      | (s, .error _) => (s, e :: waiting)

/-- Some rounds, each with the clock it reads. -/
def Inbox.rounds (listing : Listing) :
    (ℕ → ℕ) → ℕ → Inbox × List ClientEvent → Inbox × List ClientEvent
  | _, 0, p => p
  | now, n + 1, p =>
      Inbox.rounds listing (fun k => now (k + 1)) n (Inbox.round listing (now 0) p.1 p.2)

/-- The archive takes the delivery. -/
def Accepts (data : ArchiveData) (e : ClientEvent) : Prop :=
  deliveryReady data e = .ok () ∧ archiveContainsDelivery (applyArchiveEvent data e) e = true

/-- The archive after the turn of a delivery that is taken. -/
def taken (listing : Listing) (data : ArchiveData) (e : ClientEvent) : ArchiveData :=
  applyArchiveEvent (brought listing 0 data e).1 e

/-- The archive at the turn of a delivery, if those before it are taken. -/
def turnOf (listing : Listing) (data : ArchiveData) (before : List ClientEvent) (e : ClientEvent) :
    ArchiveData :=
  (brought listing 0 (before.foldl (taken listing) data) e).1

/-- Every delivery is taken at its turn. -/
def Passes (listing : Listing) (data : ArchiveData) (deliveries : List ClientEvent) : Prop :=
  ∀ before e after, deliveries = before ++ e :: after →
    Accepts (turnOf listing data before e) e

def ChannelRecord.undated (c : ChannelRecord) : ChannelRecord := { c with joinedAtUnix := 0 }

/-- The archive without the times at which records were created. -/
def ArchiveData.undated (data : ArchiveData) : ArchiveData :=
  { data with channels := data.channels.map ChannelRecord.undated }

section Clock

variable {data data' : ArchiveData} {e : ClientEvent}

theorem find?_undated {q : ChannelRecord → Bool} (hq : ∀ c, q c.undated = q c)
    (records : List ChannelRecord) :
    (records.map ChannelRecord.undated).find? q = (records.find? q).map ChannelRecord.undated := by
  rw [List.find?_map]
  congr 2
  funext c
  exact hq c

theorem apply_undated (data : ArchiveData) (e : ClientEvent) :
    applyArchiveEvent data.undated e = (applyArchiveEvent data e).undated := by
  have hdelivered : ∀ channel messageId, applyDelivered data.undated channel messageId =
      (applyDelivered data channel messageId).undated := by
    intro channel messageId
    simp only [applyDelivered, ArchiveData.undated]
    rw [find?_undated fun _ => rfl]
    cases data.channels.find? (namesActive channel) with
    | none => rfl
    | some found =>
        simp only [Option.map_some, List.map_map]
        congr 1
        apply List.map_congr_left
        intro c hc
        by_cases hid : c.id = found.id
        · simp [ChannelRecord.undated, hid]
        · simp [ChannelRecord.undated, hid]
  cases e with
  | channelDelivered channel messageId => exact hdelivered channel messageId
  | channelDirectDelivered channel messageId => exact hdelivered channel messageId
  | channelMessage channel messageId ts sender senderIndex body =>
      have hreceive := map_modifyFirst (g := ChannelRecord.undated) (p := names channel)
        (q := names channel) (ChannelRecord.receive messageId ts sender senderIndex body)
        (ChannelRecord.receive messageId ts sender senderIndex body) (fun _ => rfl)
        (fun _ => rfl) data.channels
      simp only [applyArchiveEvent, applyChannelMessage, ArchiveData.undated, hreceive]
  | channelDirectMessage channel sender recipient messageId ts body =>
      simp only [applyArchiveEvent, applyChannelDirectMessage, ArchiveData.undated]
      rw [find?_undated fun _ => rfl]
      cases data.channels.find? (names channel) with
      | none => rfl
      | some record =>
          simp only [Option.map_some, ChannelRecord.undated]
          cases record.selfMemberId with
          | none => rfl
          | some selfId =>
              simp only []
              split
              · rfl
              · rfl
  | channelRemoved channel =>
      simp only [applyArchiveEvent, applyChannelRemoved, ArchiveData.undated]
      rw [find?_undated fun _ => rfl]
      cases data.channels.find? (namesActive channel) with
      | none => rfl
      | some removed =>
          have hdeactivate := map_modifyFirst (g := ChannelRecord.undated) (p := namesActive channel)
            (q := namesActive channel) ChannelRecord.deactivate ChannelRecord.deactivate
            (fun _ => rfl) (fun _ => rfl) data.channels
          simp only [Option.map_some, hdeactivate]
          rfl
  | channelRosterChanged channel => rfl
  | channelPresenceChanged channel memberId => rfl
  | eventsLagged skipped => rfl

theorem contains_undated (data : ArchiveData) (e : ClientEvent) :
    archiveContainsDelivery data.undated e = archiveContainsDelivery data e := by
  cases e with
  | channelMessage channel messageId ts sender senderIndex body =>
      simp only [archiveContainsDelivery, ArchiveData.undated, List.any_map]
      rfl
  | channelDirectMessage channel sender recipient messageId ts body =>
      simp only [archiveContainsDelivery, ArchiveData.undated]
      rw [find?_undated fun _ => rfl, Option.map_map]
      rfl
  | _ => rfl

theorem known_undated (data : ArchiveData) (e : ClientEvent) :
    known data.undated e = known data e := by
  unfold known
  split
  · rfl
  · simp only [ArchiveData.undated, List.any_map]
    rfl

theorem ready_undated (data : ArchiveData) (e : ClientEvent) :
    deliveryReady data.undated e = deliveryReady data e := by
  unfold deliveryReady
  split
  · rfl
  · simp only [ArchiveData.undated, List.any_map]
    rfl

theorem accepts_undated : Accepts data.undated e ↔ Accepts data e := by
  rw [Accepts, Accepts, ready_undated, apply_undated, contains_undated]

theorem dropLost_undated (data : ArchiveData) (ids : List ChannelId) :
    dropLost data.undated ids = (dropLost data ids).undated := by
  have hlost : ((data.channels.map ChannelRecord.undated).filter fun c =>
      c.active && !ids.contains c.id).map (·.id) =
        (data.channels.filter fun c => c.active && !ids.contains c.id).map (·.id) := by
    rw [List.filter_map, List.map_map]
    rfl
  have hchannels : (data.channels.map ChannelRecord.undated).map (fun c =>
      if c.active && !ids.contains c.id then c.deactivate else c) =
        (data.channels.map fun c =>
          if c.active && !ids.contains c.id then c.deactivate else c).map
            ChannelRecord.undated := by
    rw [List.map_map, List.map_map]
    apply List.map_congr_left
    intro c _
    cases hlose : c.active && !ids.contains c.id with
    | true => simp only [Function.comp_apply, ChannelRecord.undated, hlose]; rfl
    | false => simp only [Function.comp_apply, ChannelRecord.undated, hlose]; rfl
  simp only [dropLost, ArchiveData.undated, hlost, hchannels]

theorem mergeChannel_undated (data : ArchiveData) (joined : JoinedChannel)
    (roster : List RosterMember) (now : ℕ) :
    mergeChannel data.undated joined roster 0 = (mergeChannel data joined roster now).undated := by
  have hmerge := map_modifyFirst (g := ChannelRecord.undated)
    (p := isCurrent joined (rosterSelf roster)) (q := isCurrent joined (rosterSelf roster))
    (ChannelRecord.merge joined (roster.map RosterMember.record))
    (ChannelRecord.merge joined (roster.map RosterMember.record)) (fun _ => rfl) (fun _ => rfl)
    data.channels
  have hany : (data.channels.map ChannelRecord.undated).any (isCurrent joined (rosterSelf roster)) =
      data.channels.any (isCurrent joined (rosterSelf roster)) := by
    rw [List.any_map]
    rfl
  unfold mergeChannel
  simp only [ArchiveData.undated, hany]
  split
  · simp only [hmerge]
  · simp only [List.map_append]
    rfl

theorem mergeListed_undated (now : ℕ)
    (joined : List (JoinedChannel × Except String (List RosterMember))) (data : ArchiveData) :
    mergeListed 0 joined data.undated =
      ((mergeListed now joined data).1.undated, (mergeListed now joined data).2) := by
  induction joined generalizing data with
  | nil => rfl
  | cons k joined ih =>
      obtain ⟨k, roster⟩ := k
      cases roster with
      | error message => rfl
      | ok roster =>
          rw [mergeListed, mergeListed, mergeChannel_undated data k roster now]
          exact ih _

theorem brought_undated (listing : Listing) (now : ℕ) (data : ArchiveData) (e : ClientEvent) :
    brought listing 0 data.undated e =
      ((brought listing now data e).1.undated, (brought listing now data e).2) := by
  unfold brought
  rw [known_undated]
  split
  · rfl
  · cases listing with
    | error message => rfl
    | ok joined =>
        simp only [reconcile, dropLost_undated]
        exact mergeListed_undated now joined _

theorem undated_undated (data : ArchiveData) : data.undated.undated = data.undated := by
  simp [ArchiveData.undated, ChannelRecord.undated, Function.comp_def]

theorem taken_undated (listing : Listing) (data : ArchiveData) (e : ClientEvent) :
    taken listing data.undated e = (taken listing data e).undated := by
  rw [taken, brought_undated listing 0, apply_undated]
  rfl

theorem foldl_taken_undated (listing : Listing) (data : ArchiveData) (before : List ClientEvent) :
    before.foldl (taken listing) data.undated = (before.foldl (taken listing) data).undated := by
  induction before generalizing data with
  | nil => rfl
  | cons e before ih =>
      rw [List.foldl_cons, List.foldl_cons, taken_undated]
      exact ih _

theorem turnOf_undated (listing : Listing) (data : ArchiveData) (before : List ClientEvent)
    (e : ClientEvent) :
    turnOf listing data.undated before e = (turnOf listing data before e).undated := by
  rw [turnOf, foldl_taken_undated, brought_undated listing 0]
  rfl

theorem passes_undated {listing : Listing} {deliveries : List ClientEvent} :
    Passes listing data.undated deliveries ↔ Passes listing data deliveries := by
  simp only [Passes, turnOf_undated, accepts_undated]

end Clock

/-! ### What a run of rounds does -/

/-- The run has taken the deliveries `done`, each at its turn, and those that wait still will
find the archive they would have found. -/
structure Advances (listing : Listing) (s : Inbox) (waiting : List ClientEvent)
    (r : Inbox × List ClientEvent) (done : List ClientEvent) : Prop where
  waiting : waiting = done ++ r.2
  committed : r.1.committed = s.committed ++ done
  passes : Passes listing s.memory done
  saved : ∀ e ∈ done, SavedIn r.1.saves e
  saves : s.saves <+: r.1.saves
  turn : ∀ before e after, r.2 = before ++ e :: after →
    (turnOf listing r.1.memory before e).undated =
      (turnOf listing s.memory (done ++ before) e).undated

section Rounds

variable {listing : Listing} {now : ℕ} {s : Inbox} {e : ClientEvent}
  {waiting before : List ClientEvent}

theorem accepts_iff_of_undated {data data' : ArchiveData} (h : data.undated = data'.undated) :
    Accepts data e ↔ Accepts data' e := by
  rw [← accepts_undated, h, accepts_undated]

theorem SavedIn.mono {saves saves' : List ArchiveData} (h : SavedIn saves e)
    (hsub : saves <+: saves') : SavedIn saves' e := by
  obtain ⟨data, hdata, hcontains⟩ := h
  exact ⟨data, hsub.subset hdata, hcontains⟩

theorem Advances.refl (s : Inbox) (waiting : List ClientEvent) :
    Advances listing s waiting (s, waiting) [] where
  waiting := rfl
  committed := (List.append_nil _).symm
  passes before e after h := by simp at h
  saved e he := absurd he List.not_mem_nil
  saves := List.prefix_rfl
  turn before e after h := rfl

theorem Advances.trans {r r' : Inbox × List ClientEvent} {done done' : List ClientEvent}
    (h : Advances listing s waiting r done) (h' : Advances listing r.1 r.2 r' done') :
    Advances listing s waiting r' (done ++ done') where
  waiting := by rw [h.waiting, h'.waiting, List.append_assoc]
  committed := by rw [h'.committed, h.committed, List.append_assoc]
  passes before e after heq := by
    obtain ⟨l, rfl, hl⟩ | ⟨l, rfl, hl⟩ := List.append_eq_append_iff.mp heq
    · have haccepts := h'.passes l e after hl
      rw [accepts_iff_of_undated (h.turn l e (after ++ r'.2) _)] at haccepts
      · exact haccepts
      · rw [h'.waiting, hl, List.append_assoc, List.cons_append]
    · cases l with
      | nil =>
          rw [List.nil_append] at hl
          have haccepts := h'.passes [] e after hl.symm
          rw [accepts_iff_of_undated (h.turn [] e (after ++ r'.2) _)] at haccepts
          · simpa using haccepts
          · rw [h'.waiting, ← hl]
            rfl
      | cons f l =>
          rw [List.cons_append, List.cons.injEq] at hl
          obtain ⟨rfl, -⟩ := hl
          exact h.passes before e l rfl
  saved e he := by
    obtain he | he := List.mem_append.mp he
    · exact (h.saved e he).mono h'.saves
    · exact h'.saved e he
  saves := h.saves.trans h'.saves
  turn before e after heq := by
    rw [h'.turn before e after heq, h.turn (done' ++ before) e after _, List.append_assoc]
    rw [h'.waiting, heq, List.append_assoc]

end Rounds

section Sample

/-- A direct message to a member that this profile was before, and the welcome after it. -/
def stale : ClientEvent :=
  .channelDirectMessage "room" (Bytes.fill 32 2) (Bytes.fill 32 9) (Bytes.fill 16 4) 3 [104, 105]

end Sample

end Archive

end GChat
