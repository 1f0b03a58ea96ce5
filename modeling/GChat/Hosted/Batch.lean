import GChat.Hosted.Names

/-!
# Two archives that are treated alike

`Alike named n r r'` relates archives that differ at most in operations not yet
filled in and in their names; where `named` holds, `n` more events show the same
names. Events keep the relation and leave the same activity, up to the texts if
the names may differ. A batch is the fold of `applyEvent`, so that what holds of
one event holds of batches by induction.
-/

namespace GChat

namespace Hosted

open Foundation Api

/-! ### Filling in operations -/

section Fill

variable {operations : StringMap String} {m : Message}

@[simp] theorem fill_id (operations : StringMap String) (m : Message) :
    (fill operations m).id = m.id := by
  unfold fill
  split <;> rfl

theorem fill_fill (operations : StringMap String) (m : Message) :
    fill operations (fill operations m) = fill operations m := by
  unfold fill
  cases h : m.operationId with
  | some operation => simp [h]
  | none => cases hop : operations[m.id]? <;> simp [hop]

theorem fill_setDelivery (operations : StringMap String) (value : Delivery) (m : Message) :
    fill operations { m with delivery := some value } =
      { fill operations m with delivery := some value } := by
  unfold fill
  cases h : m.operationId <;> simp [h]

end Fill

/-- A message, without its name where names do not count. -/
def view (named : Bool) (m : Message) : Message := if named then m else { m with nickname := "" }

/-- A kind and a text of activity, without the text where names do not count. -/
def hide (named : Bool) (entry : String × String) : String × String :=
  if named then entry else (entry.1, "")

def blank (named : Bool) (a : Activity) : Activity := if named then a else { a with text := "" }

section View

variable (named : Bool) (operations : StringMap String)

@[simp] theorem view_true : view true = id := rfl

@[simp] theorem blank_true : blank true = id := rfl

/-- What counts of a message once its operation is filled in. -/
def shown (m : Message) : Message := view named (fill operations m)

@[simp] theorem shown_id (m : Message) : (shown named operations m).id = m.id := by
  unfold shown view
  split <;> exact fill_id operations m

theorem shown_setDelivery (value : Delivery) (m : Message) :
    shown named operations { m with delivery := some value } =
      { shown named operations m with delivery := some value } := by
  unfold shown view
  rw [fill_setDelivery]
  split <;> rfl

theorem map_shown_setDelivery (id : String) (value : Delivery) (messages : List Message) :
    (setDelivery id value messages).map (shown named operations) =
      setDelivery id value (messages.map (shown named operations)) := by
  induction messages with
  | nil => rfl
  | cons m messages ih =>
      have hid := shown_id named operations m
      rw [List.map_cons, setDelivery, setDelivery]
      by_cases h : m.id == id
      · rw [if_pos h, if_pos (hid ▸ h), List.map_cons, shown_setDelivery]
      · rw [if_neg h, if_neg (hid ▸ h), List.map_cons, ih]

theorem any_id_map_shown (id : String) (messages : List Message) :
    (messages.map (shown named operations)).any (·.id == id) = messages.any (·.id == id) := by
  rw [List.any_map]
  congr 1
  funext m
  rw [Function.comp_apply, shown_id]

end View

/-- The archives are treated alike by `n` more events. -/
structure Alike (named : Bool) (n : ℕ) (r r' : Archive) : Prop where
  channel : r'.channel = r.channel
  cursor : r'.cursor = r.cursor
  files : r'.files = r.files
  operations : r'.operations = r.operations
  messages : r'.messages.map (shown named r.operations) =
    r.messages.map (shown named r.operations)
  names : named = true → NamesAlike r.channel n r.names r'.names

namespace Alike

variable {named : Bool} {n : ℕ} {r r' : Archive}

theorem weaken (h : Alike named (n + 1) r r') : Alike named n r r' :=
  ⟨h.channel, h.cursor, h.files, h.operations, h.messages, fun hn => (h.names hn).weaken⟩

theorem observedNickname (h : Alike true n r r') : r'.observedNickname = r.observedNickname := by
  funext member
  rw [Archive.observedNickname, Archive.observedNickname, h.channel, (h.names rfl).nameOf_eq]

theorem any_id (h : Alike named n r r') (id : String) :
    r'.messages.any (·.id == id) = r.messages.any (·.id == id) := by
  rw [← any_id_map_shown named r.operations, h.messages, any_id_map_shown]

theorem observeName (h : Alike named (n + 1) r r') (member : Id) (nickname : String) (at_ : ℕ) :
    Alike named n (r.observeName member nickname at_) (r'.observeName member nickname at_) :=
  ⟨h.channel, h.cursor, h.files, h.operations, h.messages,
    fun hn => (h.names hn).observe member nickname at_⟩

theorem setDelivery (h : Alike named n r r') (id : String) (value : Delivery) :
    Alike named n { r with messages := Hosted.setDelivery id value r.messages }
      { r' with messages := Hosted.setDelivery id value r'.messages } where
  channel := h.channel
  cursor := h.cursor
  files := h.files
  operations := h.operations
  names := h.names
  messages := by
    dsimp only
    rw [map_shown_setDelivery, map_shown_setDelivery, h.messages]

theorem insertFile (h : Alike named n r r') (id : String) (content : Content) :
    Alike named n { r with files := r.files.insert id content }
      { r' with files := r'.files.insert id content } :=
  ⟨h.channel, h.cursor, by rw [h.files], h.operations, h.messages, h.names⟩

theorem append (h : Alike named n r r') {m m' : Message}
    (hm : shown named r.operations m' = shown named r.operations m) :
    Alike named n { r with messages := r.messages ++ [m] }
      { r' with messages := r'.messages ++ [m'] } where
  channel := h.channel
  cursor := h.cursor
  files := h.files
  operations := h.operations
  names := h.names
  messages := by
    dsimp only
    rw [List.map_append, List.map_append, h.messages, List.map_singleton, List.map_singleton, hm]

theorem pushMessage (h : Alike named n r r') (conversation : String) (kind : MessageKind)
    (id sender : Id) (body : String) (status : Status) (acceptedAt : ℕ) :
    Alike named n (r.pushMessage conversation kind id sender body status acceptedAt)
      (r'.pushMessage conversation kind id sender body status acceptedAt) := by
  unfold Archive.pushMessage
  dsimp only
  rw [h.any_id]
  split
  · exact h
  · apply h.append
    rw [h.channel, h.operations]
    cases named with
    | true => rw [h.observedNickname]
    | false =>
        unfold shown fill view
        dsimp only
        cases r.operations[hex id.toList]? <;> rfl

theorem fillOperations (r : Archive) (named : Bool) (n : ℕ) :
    Alike named n r r.fillOperations := by
  refine ⟨rfl, rfl, rfl, rfl, ?_, fun _ => Or.inl rfl⟩
  rw [Archive.fillOperations, List.map_map]
  apply List.map_congr_left
  intro m _
  rw [Function.comp_apply, shown, fill_fill, shown]

/-- Alike archives show the same messages once their operations are filled in. -/
theorem filled (h : Alike named n r r') :
    r'.fillOperations.messages.map (view named) = r.fillOperations.messages.map (view named) := by
  have hmessages := h.messages
  unfold Archive.fillOperations
  rw [List.map_map, List.map_map, h.operations]
  exact hmessages

variable (completionType conversation : String)

/-- Events keep archives alike and leave the same activity, up to the texts if the names
may differ. -/
theorem perform (h : Alike named (n + 1) r r') (event : Event) :
    Alike named n (r.perform completionType conversation event).1
        (r'.perform completionType conversation event).1 ∧
      (r'.perform completionType conversation event).2.map (hide named) =
        (r.perform completionType conversation event).2.map (hide named) := by
  have htext : ∀ (kind : String) (text : (Id → String) → String),
      hide named (kind, text r'.observedNickname) = hide named (kind, text r.observedNickname) := by
    intro kind text
    cases named with
    | true => rw [h.observedNickname]
    | false => rfl
  unfold Archive.perform
  cases event.kind with
  | message id sender content status =>
      dsimp only
      unfold Archive.receive
      cases content with
      | text body => exact ⟨h.weaken.pushMessage .., rfl⟩
      | action body => exact ⟨h.weaken.pushMessage .., rfl⟩
      | notice body => exact ⟨h.weaken.pushMessage .., rfl⟩
      | file contentType body =>
          dsimp only
          split
          · exact ⟨h.weaken, rfl⟩
          · exact ⟨h.weaken.insertFile .., rfl⟩
      | topic topic =>
          exact ⟨h.weaken, congrArg some (htext "topic" fun f => f sender ++ " set the topic: " ++ topic)⟩
      | nickname name =>
          exact ⟨h.observeName .., congrArg some (htext "nickname" fun f => f sender ++ " is now " ++ name)⟩
      | presence | topicState => exact ⟨h.weaken, rfl⟩
  | delivery id status => exact ⟨h.weaken.setDelivery .., rfl⟩
  | activity actor change reason =>
      cases reason with
      | none =>
          exact ⟨h.weaken, congrArg some (htext "policy" fun f => f actor ++ " (" ++
            hex actor.toList ++ ") " ++ describeChange change f ++ "")⟩
      | some reason =>
          exact ⟨h.weaken, congrArg some (htext "policy" fun f => f actor ++ " (" ++
            hex actor.toList ++ ") " ++ describeChange change f ++ (": " ++ reason))⟩
  | joined member nickname => exact ⟨h.observeName .., rfl⟩
  | unavailable sender reason =>
      exact ⟨h.weaken, congrArg some (htext "unavailable" fun f =>
        "Message from " ++ f sender ++ " unavailable: " ++ reason)⟩
  | removed | operationFailed => exact ⟨h.weaken, rfl⟩

end Alike

/-! ### Batches -/

theorem pushMessage_channel (r : Archive) (conversation : String) (kind : MessageKind)
    (id sender : Id) (body : String) (status : Status) (acceptedAt : ℕ) :
    (r.pushMessage conversation kind id sender body status acceptedAt).channel = r.channel := by
  unfold Archive.pushMessage
  dsimp only
  split <;> rfl

theorem perform_channel (r : Archive) (completionType conversation : String) (event : Event) :
    (r.perform completionType conversation event).1.channel = r.channel := by
  unfold Archive.perform
  cases event.kind with
  | message id sender content status =>
      dsimp only
      unfold Archive.receive
      cases content with
      | text body => exact pushMessage_channel ..
      | action body => exact pushMessage_channel ..
      | notice body => exact pushMessage_channel ..
      | file contentType body =>
          dsimp only
          split <;> rfl
      | topic | nickname | presence | topicState => rfl
  | delivery | activity | joined | removed | unavailable | operationFailed => rfl

section Batches

variable {completionType conversation : String} {events : List Event} {event : Event}
  {r r' next : Archive} {activity done : List Activity} {named : Bool} {n : ℕ}

/-- What one accepted event does. -/
theorem applyEvent_cases
    (h : applyEvent completionType conversation (r, activity) event = .ok (next, done)) :
    event.channel = r.channel.id ∧
      ((event.sequence ≤ r.cursor ∧ next = r ∧ done = activity) ∨
        (event.sequence = r.cursor + 1 ∧
          next = { (r.perform completionType conversation event).1 with
            cursor := event.sequence } ∧
          done = activity ++ ((r.perform completionType conversation event).2.map
            (activityOf conversation event)).toList)) := by
  unfold applyEvent at h
  dsimp only at h
  split at h
  · cases h
  case isFalse hchannel =>
    refine ⟨by simpa using hchannel, ?_⟩
    split at h
    case isTrue hle =>
      cases h
      exact Or.inl ⟨hle, rfl, rfl⟩
    case isFalse =>
      split at h
      · cases h
      case isFalse hnext =>
        cases h
        exact Or.inr ⟨by simpa using hnext, rfl, rfl⟩

theorem applyEvent_channel
    (h : applyEvent completionType conversation (r, activity) event = .ok (next, done)) :
    next.channel = r.channel := by
  obtain ⟨-, ⟨-, rfl, -⟩ | ⟨-, rfl, -⟩⟩ := applyEvent_cases h
  · rfl
  · exact perform_channel r completionType conversation event

/-- Each event that is new moves the cursor by one. -/
theorem applyEvent_cursor
    (h : applyEvent completionType conversation (r, activity) event = .ok (next, done)) :
    next.cursor = max r.cursor event.sequence ∧ event.sequence ≤ r.cursor + 1 := by
  obtain ⟨-, ⟨hle, rfl, -⟩ | ⟨hnext, rfl, -⟩⟩ := applyEvent_cases h
  · exact ⟨(Nat.max_eq_left hle).symm, by omega⟩
  · dsimp only
    omega

/-- Every event of an accepted batch is of the channel, and the cursor is past it. -/
theorem foldlM_past
    (h : events.foldlM (applyEvent completionType conversation) (r, activity) =
      .ok (next, done)) :
    r.cursor ≤ next.cursor ∧
      ∀ event ∈ events, event.channel = r.channel.id ∧ event.sequence ≤ next.cursor := by
  induction events generalizing r activity with
  | nil =>
      rw [List.foldlM_nil] at h
      cases h
      exact ⟨le_refl _, List.forall_mem_nil _⟩
  | cons event events ih =>
      rw [List.foldlM_cons, bind_eq_ok] at h
      obtain ⟨⟨mid, acts⟩, hevent, hrest⟩ := h
      obtain ⟨hle, hpast⟩ := ih hrest
      have hcursor := (applyEvent_cursor hevent).1
      have hchannel := applyEvent_channel hevent
      refine ⟨by omega, ?_⟩
      intro other hother
      obtain rfl | hother := List.mem_cons.mp hother
      · exact ⟨(applyEvent_cases hevent).1, by omega⟩
      · rw [← hchannel]
        exact hpast other hother

end Batches

end Hosted

end GChat
