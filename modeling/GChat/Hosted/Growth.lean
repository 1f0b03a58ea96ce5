import GChat.Hosted.Apply
import GChat.Foundation.StringMap

/-!
# Hosted conversations only grow

The events of a batch and a queued message add messages at the end of a conversation; none is
removed or gets another identifier. A batch may also create the archive of its channel.
-/

namespace GChat

namespace Hosted

open Foundation Api

/-- The identifiers of the messages, in their order. -/
def Archive.ids (room : Archive) : List String := room.messages.map (·.id)

/-- Every conversation is continued, and a new one is that of a channel. -/
structure Continues (rooms rooms' : StringMap Archive) : Prop where
  kept : ∀ (id : String) (room : Archive), rooms[id]? = some room →
    ∃ room', rooms'[id]? = some room' ∧ room.ids <+: room'.ids
  new : ∀ (id : String) (room : Archive), rooms[id]? = none → rooms'[id]? = some room →
    ∃ channel, id = key channel

namespace Continues

variable {rooms rooms' rooms'' : StringMap Archive}

theorem refl (rooms : StringMap Archive) : Continues rooms rooms where
  kept _ room h := ⟨room, h, List.prefix_refl _⟩
  new _ _ hnone hsome := by
    rw [hnone] at hsome
    cases hsome

theorem trans (h : Continues rooms rooms') (h' : Continues rooms' rooms'') :
    Continues rooms rooms'' where
  kept id room hroom := by
    obtain ⟨room', hroom', hpre⟩ := h.kept id room hroom
    obtain ⟨room'', hroom'', hpre'⟩ := h'.kept id room' hroom'
    exact ⟨room'', hroom'', hpre.trans hpre'⟩
  new id room hnone hsome := by
    cases hmid : rooms'[id]? with
    | none => exact h'.new id room hmid hsome
    | some room' => exact h.new id room' hnone hmid

/-- A conversation is replaced by one that continues it. -/
theorem insert {id : String} {room room' : Archive} (hroom : rooms[id]? = some room)
    (hpre : room.ids <+: room'.ids) : Continues rooms (rooms.insert id room') where
  kept k r hr := by
    by_cases hk : id = k
    · subst hk
      rw [hroom] at hr
      cases hr
      exact ⟨room', StringMap.get_insert_self _ _ _, hpre⟩
    · exact ⟨r, by rw [StringMap.get_insert_of_ne _ _ hk, hr], List.prefix_refl _⟩
  new k r hnone hsome := by
    have hk : id ≠ k := by
      intro heq
      rw [← heq, hroom] at hnone
      cases hnone
    rw [StringMap.get_insert_of_ne _ _ hk, hnone] at hsome
    cases hsome

/-- A conversation is created, or continued if it is there. -/
theorem insert_key {channel : Id} {room' : Archive}
    (hpre : ∀ room, rooms[key channel]? = some room → room.ids <+: room'.ids) :
    Continues rooms (rooms.insert (key channel) room') := by
  cases hroom : rooms[key channel]? with
  | some room => exact insert hroom (hpre room hroom)
  | none =>
      constructor
      · intro k r hr
        have hk : key channel ≠ k := by
          intro heq
          rw [heq, hr] at hroom
          cases hroom
        exact ⟨r, by rw [StringMap.get_insert_of_ne _ _ hk, hr], List.prefix_refl _⟩
      · intro k r hnone hsome
        by_cases hk : key channel = k
        · exact ⟨channel, hk.symm⟩
        · rw [StringMap.get_insert_of_ne _ _ hk, hnone] at hsome
          cases hsome

end Continues

/-! ### One event -/

theorem ids_pushMessage (room : Archive) (conversation : String) (kind : MessageKind)
    (id sender : Id) (body : String) (status : Status) (acceptedAt : ℕ) :
    room.ids <+: (room.pushMessage conversation kind id sender body status acceptedAt).ids := by
  unfold Archive.pushMessage
  dsimp only
  split
  · exact List.prefix_refl _
  · simp only [Archive.ids, List.map_append]
    exact List.prefix_append _ _

theorem map_id_setDelivery (id : String) (value : Delivery) (messages : List Message) :
    (setDelivery id value messages).map (·.id) = messages.map (·.id) := by
  induction messages with
  | nil => rfl
  | cons m messages ih =>
      unfold setDelivery
      split
      · rfl
      · rw [List.map_cons, ih, List.map_cons]

theorem ids_receive (completionType : String) (room : Archive) (conversation : String)
    (id sender : Id) (content : Content) (status : Status) (acceptedAt : ℕ) :
    room.ids <+:
      (room.receive completionType conversation id sender content status acceptedAt).1.ids := by
  cases content with
  | text body => exact ids_pushMessage room conversation .text id sender body status acceptedAt
  | action body => exact ids_pushMessage room conversation .action id sender body status acceptedAt
  | notice body => exact ids_pushMessage room conversation .notice id sender body status acceptedAt
  | file contentType body =>
      unfold Archive.receive
      dsimp only
      split
      · exact List.prefix_refl _
      · exact List.prefix_refl _
  | _ => exact List.prefix_refl _

/-- An event adds messages at the end, if any. -/
theorem ids_perform (completionType : String) (room : Archive) (conversation : String)
    (event : Event) : room.ids <+: (room.perform completionType conversation event).1.ids := by
  unfold Archive.perform
  cases event.kind with
  | message id sender content status =>
      exact ids_receive completionType room conversation id sender content status event.acceptedAt
  | delivery id status =>
      simp only [Archive.ids, map_id_setDelivery]
      exact List.prefix_refl _
  | _ => exact List.prefix_refl _

/-! ### Batches -/

section Batches

variable {completionType conversation : String} {state candidate : UiState} {channel : Channel}
  {events : List Event} {through : ℕ}

theorem ids_applyEvent {room room' : Archive} {activity activity' : List Activity} {event : Event}
    (h : applyEvent completionType conversation (room, activity) event = .ok (room', activity')) :
    room.ids <+: room'.ids := by
  unfold applyEvent at h
  dsimp only at h
  split at h
  · cases h
  · split at h
    · cases h
      exact List.prefix_refl _
    · split at h
      · cases h
      · cases h
        exact ids_perform completionType room conversation event

theorem ids_foldlM {room room' : Archive} {activity activity' : List Activity}
    (h : events.foldlM (applyEvent completionType conversation) (room, activity) =
      .ok (room', activity')) : room.ids <+: room'.ids := by
  induction events generalizing room activity with
  | nil =>
      rw [List.foldlM_nil] at h
      cases h
      exact List.prefix_refl _
  | cons event events ih =>
      rw [List.foldlM_cons, bind_eq_ok] at h
      obtain ⟨⟨room₁, activity₁⟩, hone, hrest⟩ := h
      exact (ids_applyEvent hone).trans (ih hrest)

theorem ids_fillOperations (room : Archive) : room.fillOperations.ids = room.ids := by
  unfold Archive.fillOperations Archive.ids
  rw [List.map_map]
  refine List.map_congr_left fun m _ => ?_
  unfold fill
  simp only [Function.comp_apply]
  split
  · rfl
  · rfl

theorem ids_seed (room : Archive) : room.seed.ids = room.ids := by
  unfold Archive.seed Archive.ids
  split
  · rfl
  · rfl

theorem continues_apply (h : apply completionType state channel events = .ok (candidate, through)) :
    Continues state.hosted candidate.hosted := by
  simp only [apply, bind_eq_ok, pure_eq_ok] at h
  obtain ⟨⟨room, activity⟩, hfold, heq⟩ := h
  cases heq
  apply Continues.insert_key
  intro old hold
  have hpre := ids_foldlM hfold
  rw [ids_fillOperations]
  have hentered : (state.enter channel).ids = old.ids := by
    unfold UiState.enter
    rw [hold, Option.getD_some]
    exact ids_seed old
  rw [← hentered]
  exact hpre

theorem continues_recovered (state : UiState) (channel : Channel) :
    Continues state.hosted (state.recovered channel).hosted := by
  unfold UiState.recovered
  cases hroom : state.hosted[key channel.id]? with
  | none => exact .refl _
  | some room => exact .insert hroom (List.prefix_refl _)

theorem ids_rememberQueued (room : Archive) (id : Id) (content : Content) (operation : String)
    (now : ℕ) : room.ids <+: (room.rememberQueued id content operation now).ids := by
  have hpush : ∀ (b : Bool) (m : Message), room.ids <+:
      (if b then { room with operations := room.operations.insert (hex id.toList) operation }
        else { room with
          operations := room.operations.insert (hex id.toList) operation
          messages := room.messages ++ [m] }).ids := by
    intro b m
    cases b with
    | true => exact List.prefix_refl _
    | false =>
        simp only [Archive.ids, Bool.false_eq_true, if_false, List.map_append]
        exact List.prefix_append _ _
  cases content with
  | text body => exact hpush _ _
  | action body => exact hpush _ _
  | notice body => exact hpush _ _
  | _ => exact List.prefix_refl _

end Batches

end Hosted

end GChat
