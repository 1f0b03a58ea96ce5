import GChat.Hosted.Projection

/-!
# A message that is queued while events of it come in

The service accepts a message and the local copy is stored afterwards, so that batches with
events of the message may be stored before it. What a run leaves of the message depends on
the order in which it was queued, events told of it, and batches ended; `View` follows that.
-/

namespace GChat

namespace Hosted

open Foundation Api

/-- What may happen to a message. A batch that ends fills in the operations that are known. -/
inductive Item where
  | queued
  | message (status : Status)
  | delivery (status : Status)
  | settled
deriving DecidableEq

/-- The status an event reports. -/
def Item.status : Item → Option Status
  | .message status => some status
  | .delivery status => some status
  | _ => none

/-- After this the message is there. -/
def Item.starts : Item → Bool
  | .queued => true
  | .message _ => true
  | _ => false

def Content.isShown : Content → Bool
  | .text _ => true
  | .action _ => true
  | .notice _ => true
  | _ => false

/-- What an event is for the message. -/
def Event.item (id : Id) (event : Event) : Option Item :=
  match event.kind with
  | .message id' _ _ status => if id' = id then some (.message status) else none
  | .delivery id' status => if id' = id then some (.delivery status) else none
  | _ => none

/-- The events of a batch that are not passed over. -/
def news (cursor : ℕ) : List Event → List Event
  | [] => []
  | event :: events =>
      if event.sequence ≤ cursor then news cursor events
      else event :: news event.sequence events

/-- A message is queued, or a batch of the channel is stored. -/
inductive Turn where
  | queue (id : Id) (content : Content) (operation : String) (now : ℕ)
  | batch (channel : Channel) (recovered : Bool) (events : List Event)

section Runs

variable (completionType : String) (room : Id)

/-- A turn that succeeds. -/
def turn (s : UiState) : Turn → Option UiState
  | .queue id content operation now =>
      s.hosted[key room]?.map fun r =>
        { s with hosted := s.hosted.insert (key room) (r.rememberQueued id content operation now) }
  | .batch channel recovered events =>
      match apply completionType s channel events with
      | .error _ => none
      | .ok (t, _) => some (if recovered then t.recovered channel else t)

/-- What a turn is for a message. -/
def Turn.items (id : Id) (s : UiState) : Turn → List Item
  | .queue id' _ _ _ => if id' = id then [.queued] else []
  | .batch channel _ events =>
      (news (s.enter channel).cursor events).filterMap (Event.item id) ++ [.settled]

/-- What a run is for a message. -/
def itemsOf (id : Id) (s : UiState) : List Turn → List Item
  | [] => []
  | t :: turns =>
      t.items id s ++
        match turn completionType room s t with
        | none => []
        | some s => itemsOf id s turns

end Runs

/-- A turn is about the channel, in which the message is an own text. -/
def Turn.Fits (room id : Id) (operation : String) : Turn → Prop
  | .queue id' content operation' _ =>
      id' = id → content.isShown = true ∧ operation' = operation
  | .batch channel _ events =>
      channel.id = room ∧ ∀ event ∈ events, ∀ sender content status,
        event.kind = .message id sender content status →
          sender = channel.selfMember ∧ content.isShown = true

/-- Nothing is known of the message. -/
def UiState.Unknown (s : UiState) (room id : Id) : Prop :=
  ∀ r, s.hosted[key room]? = some r →
    (∀ m ∈ r.messages, m.id ≠ hex id.toList) ∧ r.operations[hex id.toList]? = none

/-- There is one message of this identifier, with the operation and the reported status. -/
def UiState.Settled (s : UiState) (room id : Id) (operation : String) (status : Status) : Prop :=
  ∃ r m, s.hosted[key room]? = some r ∧ r.messages.filter (·.id == hex id.toList) = [m] ∧
    m.operationId = some operation ∧ m.delivery = some (delivery status)

/-! ### The order of the items -/

/-- A batch ends after the message was queued, or no message event came before that. -/
def Recorded (items : List Item) : Prop :=
  ∃ before after, items = before ++ .queued :: after ∧
    (.settled ∈ after ∨ ∀ status, .message status ∉ before)

/-- The delivery events of a message that is there; the last one counts. -/
def standing (d : Delivery) (items : List Item) : Delivery :=
  items.foldl
    (fun d x =>
      match x with
      | .delivery status => delivery status
      | _ => d) d

/-- The delivery a message starts with. -/
def Item.first : Item → Delivery
  | .message status => Hosted.delivery status
  | _ => .localAccepted

/-- The delivery events since the message is there end in this status, or there were none and
it started with it. -/
def Repeats (before : List Item) (status : Status) : Prop :=
  ∃ older x newer, before = older ++ x :: newer ∧ x.starts = true ∧
    (∀ y ∈ older, y.starts = false) ∧ standing x.first newer = delivery status

/-- The last report finds the message if it is a delivery event, and is the first sign of it
if it is a message event; or it reports nothing new. -/
def InTime (before : List Item) : Item → Prop
  | .delivery status => (∃ x ∈ before, x.starts = true) ∨ delivery status = .localAccepted
  | .message status => (∀ x ∈ before, x.starts = false) ∨ Repeats before status
  | _ => True

/-! ### What is shown of the message -/

/-- The operation that is known, and the operation and delivery that are shown. -/
structure View where
  known : Option String
  shown : Option (Option String × Delivery)

def View.step (operation : String) (v : View) : Item → View
  | .queued => ⟨some operation, some (v.shown.getD (some operation, .localAccepted))⟩
  | .message status => { v with shown := some (v.shown.getD (v.known, delivery status)) }
  | .delivery status => { v with shown := v.shown.map fun x => (x.1, delivery status) }
  | .settled => { v with shown := v.shown.map fun x => (x.1.or v.known, x.2) }

def View.run (operation : String) (v : View) (items : List Item) : View :=
  items.foldl (View.step operation) v

section Order

variable {operation : String} {items before after : List Item}

theorem run_append (v : View) (l l' : List Item) :
    v.run operation (l ++ l') = (v.run operation l).run operation l' := List.foldl_append

theorem run_cons (v : View) (x : Item) (l : List Item) :
    v.run operation (x :: l) = (v.step operation x).run operation l := rfl

/-- Until the message is there nothing happens. -/
theorem run_of_not_starts {l : List Item} (h : ∀ x ∈ l, x.starts = false) :
    View.run operation ⟨none, none⟩ l = ⟨none, none⟩ := by
  induction l with
  | nil => rfl
  | cons x l ih =>
      obtain ⟨hx, hl⟩ := List.forall_mem_cons.mp h
      rw [run_cons]
      cases x with
      | queued => cases hx
      | message status => cases hx
      | delivery status => exact ih hl
      | settled => exact ih hl

/-- Once the message is there its delivery is that of the last delivery event. -/
theorem run_delivery (v : View) (o : Option String) (d : Delivery) (l : List Item)
    (h : v.shown = some (o, d)) :
    ∃ o', (v.run operation l).shown = some (o', standing d l) := by
  induction l generalizing v o d with
  | nil => exact ⟨o, h⟩
  | cons x l ih =>
      rw [run_cons]
      cases x with
      | queued =>
          refine ih _ o d ?_
          rw [View.step, h, Option.getD_some]
      | message status =>
          refine ih _ o d ?_
          rw [View.step, h, Option.getD_some]
      | delivery status =>
          refine ih _ o (delivery status) ?_
          rw [View.step, h, Option.map_some]
      | settled =>
          refine ih _ (o.or v.known) d ?_
          rw [View.step, h, Option.map_some]

/-- From the first sign of the message on. -/
theorem run_from_start (operation : String) {older : List Item} (newer : List Item) {x : Item}
    (hx : x.starts = true)
    (holder : ∀ y ∈ older, y.starts = false) :
    ∃ o, (View.run operation ⟨none, none⟩ (older ++ x :: newer)).shown =
      some (o, standing x.first newer) := by
  rw [run_append, run_of_not_starts holder, run_cons]
  cases x with
  | queued => exact run_delivery _ _ _ newer rfl
  | message status => exact run_delivery _ _ _ newer rfl
  | delivery status => cases hx
  | settled => cases hx

/-- The first sign of the message. -/
theorem exists_first_start {l : List Item} (h : ∃ x ∈ l, x.starts = true) :
    ∃ older x newer, l = older ++ x :: newer ∧ x.starts = true ∧
      ∀ y ∈ older, y.starts = false := by
  induction l with
  | nil =>
      obtain ⟨x, hx, -⟩ := h
      exact absurd hx List.not_mem_nil
  | cons y l ih =>
      cases hy : y.starts with
      | true => exact ⟨[], y, l, rfl, hy, fun _ hx => absurd hx List.not_mem_nil⟩
      | false =>
          have hrest : ∃ x ∈ l, x.starts = true := by
            obtain ⟨x, hx, hstarts⟩ := h
            obtain rfl | hx := List.mem_cons.mp hx
            · rw [hy] at hstarts
              cases hstarts
            · exact ⟨x, hx, hstarts⟩
          obtain ⟨older, x, newer, rfl, hx, holder⟩ := ih hrest
          exact ⟨y :: older, x, newer, rfl, hx, List.forall_mem_cons.mpr ⟨hy, holder⟩⟩

theorem standing_append (d : Delivery) (l l' : List Item) :
    standing d (l ++ l') = standing (standing d l) l' := List.foldl_append

/-- Without a report the delivery stands. -/
theorem standing_of_silent (d : Delivery) {l : List Item} (h : ∀ x ∈ l, x.status = none) :
    standing d l = d := by
  induction l with
  | nil => rfl
  | cons x l ih =>
      obtain ⟨hx, hl⟩ := List.forall_mem_cons.mp h
      cases x with
      | queued => exact ih hl
      | message status => cases hx
      | delivery status => cases hx
      | settled => exact ih hl

/-- What is shown at the end, from the first sign of the message on. -/
theorem run_split (operation : String) {x y : Item} {older newer : List Item}
    (hitems : items = before ++ x :: after)
    (hlast : ∀ z ∈ after, z.status = none) (hbefore : before = older ++ y :: newer)
    (hy : y.starts = true) (holder : ∀ z ∈ older, z.starts = false) :
    ∃ o, (View.run operation ⟨none, none⟩ items).shown =
      some (o, standing (standing y.first newer) [x]) := by
  have hsplit : items = older ++ y :: (newer ++ ([x] ++ after)) := by
    rw [hitems, hbefore, List.append_assoc, List.cons_append]
    rfl
  have hrun := run_from_start operation (newer ++ ([x] ++ after)) hy holder
  rw [← hsplit, standing_append, standing_append, standing_of_silent _ hlast] at hrun
  exact hrun

/-- The delivery that is shown at the end is the one reported last exactly if that report was
in time. -/
theorem delivery_iff_inTime (operation : String) {x : Item} {status : Status}
    (hitems : items = before ++ x :: after) (hx : x.status = some status)
    (hlast : ∀ y ∈ after, y.status = none) (hqueued : .queued ∈ items) :
    (∃ o, (View.run operation ⟨none, none⟩ items).shown = some (o, delivery status)) ↔
      InTime before x := by
  by_cases hstarts : ∃ y ∈ before, y.starts = true
  · obtain ⟨older, y, newer, hbefore, hy, holder⟩ := exists_first_start hstarts
    have hrun := run_split operation hitems hlast hbefore hy holder
    cases x with
    | queued => cases hx
    | settled => cases hx
    | delivery status' =>
        cases hx
        exact iff_of_true hrun (Or.inl hstarts)
    | message status' =>
        cases hx
        constructor
        · rintro ⟨o, ho⟩
          obtain ⟨o', ho'⟩ := hrun
          rw [ho] at ho'
          have hstands := congrArg Prod.snd (Option.some.inj ho')
          exact Or.inr ⟨older, y, newer, hbefore, hy, holder, hstands.symm⟩
        · rintro (hnone | ⟨older', y', newer', hbefore', hy', holder', hstands⟩)
          · obtain ⟨z, hz, hzstarts⟩ := hstarts
            rw [hnone z hz] at hzstarts
            cases hzstarts
          · rw [← hstands]
            exact run_split operation hitems hlast hbefore' hy' holder'
  · have hnone : ∀ y ∈ before, y.starts = false := by
      intro y hy
      exact Bool.eq_false_iff.mpr fun hstarts' => hstarts ⟨y, hy, hstarts'⟩
    cases x with
    | queued => cases hx
    | settled => cases hx
    | delivery status' =>
        cases hx
        -- the report is lost, and the message is queued later
        have hqueued' : .queued ∈ after := by
          rw [hitems] at hqueued
          obtain hmem | hmem := List.mem_append.mp hqueued
          · exact absurd (hnone _ hmem) (by decide)
          · obtain heq | hmem := List.mem_cons.mp hmem
            · cases heq
            · exact hmem
        obtain ⟨older, y, newer, hafter, hy, holder⟩ := exists_first_start ⟨_, hqueued', rfl⟩
        have hyqueued : y = .queued := by
          have hsilent := hlast y (by rw [hafter]; simp)
          cases y with
          | queued => rfl
          | message status => cases hsilent
          | delivery status => cases hy
          | settled => cases hy
        subst hyqueued
        have hsplit : items = (before ++ .delivery status :: older) ++ .queued :: newer := by
          rw [hitems, hafter, List.append_assoc, List.cons_append]
        have hsilent : ∀ z ∈ before ++ .delivery status :: older, z.starts = false := by
          intro z hz
          obtain hz | hz := List.mem_append.mp hz
          · exact hnone z hz
          · obtain rfl | hz := List.mem_cons.mp hz
            · rfl
            · exact holder z hz
        have hrun := run_from_start operation newer hy hsilent
        rw [← hsplit, standing_of_silent _ fun z hz => hlast z (by rw [hafter]; simp [hz])] at hrun
        obtain ⟨o, ho⟩ := hrun
        constructor
        · rintro ⟨o', ho'⟩
          rw [ho] at ho'
          exact Or.inr (congrArg Prod.snd (Option.some.inj ho')).symm
        · rintro (⟨y, hy, hystarts⟩ | hsame)
          · rw [hnone y hy] at hystarts
            cases hystarts
          · rw [hsame]
            exact ⟨o, ho⟩
    | message status' =>
        cases hx
        refine iff_of_true ?_ (Or.inl hnone)
        have hrun := run_from_start operation (x := .message status) after rfl hnone
        rwa [← hitems, standing_of_silent _ hlast] at hrun

/-! ### The operation of the message -/

/-- Once the operation is shown it stays. -/
theorem run_recorded (v : View) (d : Delivery) (l : List Item)
    (h : v.shown = some (some operation, d)) :
    ∃ d', (v.run operation l).shown = some (some operation, d') := by
  induction l generalizing v d with
  | nil => exact ⟨d, h⟩
  | cons x l ih =>
      rw [run_cons]
      cases x with
      | queued =>
          refine ih _ d ?_
          rw [View.step, h, Option.getD_some]
      | message status =>
          refine ih _ d ?_
          rw [View.step, h, Option.getD_some]
      | delivery status =>
          refine ih _ (delivery status) ?_
          rw [View.step, h, Option.map_some]
      | settled =>
          refine ih _ d ?_
          rw [View.step, h, Option.map_some]
          rfl

/-- An operation that is known but not shown is shown once a batch ends. -/
theorem run_unrecorded (v : View) (d : Delivery) (l : List Item)
    (hknown : v.known = some operation) (h : v.shown = some (none, d)) :
    (∃ d', (v.run operation l).shown = some (some operation, d')) ↔ .settled ∈ l := by
  induction l generalizing v d with
  | nil =>
      refine iff_of_false ?_ List.not_mem_nil
      rintro ⟨d', hd'⟩
      have hd' : v.shown = some (some operation, d') := hd'
      rw [h] at hd'
      cases hd'
  | cons x l ih =>
      rw [run_cons, List.mem_cons]
      cases x with
      | queued =>
          refine (ih (v.step operation .queued) d rfl (by simp [View.step, h])).trans ?_
          simp
      | message status =>
          refine (ih (v.step operation (.message status)) d hknown (by simp [View.step, h])).trans ?_
          simp
      | delivery status =>
          refine (ih (v.step operation (.delivery status)) (Hosted.delivery status) hknown
            (by simp [View.step, h])).trans ?_
          simp
      | settled =>
          refine iff_of_true ?_ (Or.inl rfl)
          apply run_recorded _ d
          rw [View.step, h, Option.map_some, hknown]
          rfl

/-- Before the message is queued its operation is not known. -/
theorem run_unqueued (operation : String) {l : List Item} (v : View) (h : .queued ∉ l)
    (hknown : v.known = none)
    (hshown : ∀ o d, v.shown = some (o, d) → o = none) :
    (v.run operation l).known = none ∧
      (∀ o d, (v.run operation l).shown = some (o, d) → o = none) ∧
      ((v.run operation l).shown = none ↔ v.shown = none ∧ ∀ status, .message status ∉ l) := by
  induction l generalizing v with
  | nil => exact ⟨hknown, hshown, by simp [View.run]⟩
  | cons x l ih =>
      rw [run_cons]
      obtain ⟨hx, hl⟩ := List.ne_and_not_mem_of_not_mem_cons h
      cases x with
      | queued => exact absurd rfl hx
      | message status =>
          have hnext := ih (v.step operation (.message status)) hl hknown (by
            intro o d hod
            cases hv : v.shown with
            | none =>
                rw [View.step, hv] at hod
                cases hod
                exact hknown
            | some y =>
                rw [View.step, hv] at hod
                cases hod
                exact hshown _ _ hv)
          refine ⟨hnext.1, hnext.2.1, hnext.2.2.trans (iff_of_false ?_ ?_)⟩
          · exact fun h => nomatch h.1
          · exact fun h => h.2 status List.mem_cons_self
      | delivery status =>
          have hnext := ih (v.step operation (.delivery status)) hl hknown (by
            intro o d hod
            cases hv : v.shown with
            | none =>
                rw [View.step, hv] at hod
                cases hod
            | some y =>
                rw [View.step, hv] at hod
                cases hod
                exact hshown _ _ hv)
          refine ⟨hnext.1, hnext.2.1, hnext.2.2.trans ?_⟩
          simp [View.step]
      | settled =>
          have hnext := ih (v.step operation .settled) hl hknown (by
            intro o d hod
            cases hv : v.shown with
            | none =>
                rw [View.step, hv] at hod
                cases hod
            | some y =>
                rw [View.step, hv, hknown] at hod
                cases hod
                rw [Option.or_none]
                exact hshown _ _ hv)
          refine ⟨hnext.1, hnext.2.1, hnext.2.2.trans ?_⟩
          simp [View.step]

/-- The operation is shown at the end exactly if a batch ended after the message was queued,
or no message event came before. -/
theorem operation_iff_recorded (operation : String) (hone : items.count .queued = 1) :
    (∃ d, (View.run operation ⟨none, none⟩ items).shown = some (some operation, d)) ↔
      Recorded items := by
  have hsplit : ∀ before after, items = before ++ .queued :: after →
      ((∃ d, (View.run operation ⟨none, none⟩ items).shown = some (some operation, d)) ↔
        .settled ∈ after ∨ ∀ status, .message status ∉ before) := by
    rintro before after rfl
    have hbefore : .queued ∉ before := by
      intro hmem
      have hcount := List.count_pos_iff.mpr hmem
      simp only [List.count_append, List.count_cons_self] at hone
      omega
    obtain ⟨hknown, hshown, hnone⟩ := run_unqueued operation ⟨none, none⟩ hbefore rfl
      (fun _ _ h => nomatch h)
    rw [run_append, run_cons]
    cases hv : (View.run operation ⟨none, none⟩ before).shown with
    | none =>
        rw [hv] at hnone
        refine iff_of_true ?_ (Or.inr (hnone.mp rfl).2)
        apply run_recorded _ .localAccepted
        rw [View.step, hv]
        rfl
    | some y =>
        obtain ⟨o, d⟩ := y
        obtain rfl := hshown o d hv
        have hmessage : ¬ ∀ status, .message status ∉ before := by
          intro hmessage
          rw [hnone.mpr ⟨rfl, hmessage⟩] at hv
          cases hv
        rw [run_unrecorded _ d after rfl (by rw [View.step, hv]; rfl)]
        constructor
        · exact Or.inl
        · rintro (hsettled | hno)
          · exact hsettled
          · exact absurd hno hmessage
  constructor
  · intro h
    have hqueued : .queued ∈ items := List.count_pos_iff.mp (by omega)
    obtain ⟨before, after, hitems⟩ := List.append_of_mem hqueued
    exact ⟨before, after, hitems, (hsplit before after hitems).mp h⟩
  · rintro ⟨before, after, hitems, h⟩
    exact (hsplit before after hitems).mpr h

end Order

/-! ### The archive follows the view -/

/-- The operations and deliveries of the messages of an identifier. -/
def pairs (id : Id) (messages : List Message) : List (Option String × Option Delivery) :=
  (messages.filter (·.id == hex id.toList)).map fun m => (m.operationId, m.delivery)

/-- The archive shows of the message what the view does. -/
structure Archive.Stands (r : Archive) (id : Id) (v : View) : Prop where
  known : r.operations[hex id.toList]? = v.known
  shown : pairs id r.messages = v.shown.toList.map fun x => (x.1, some x.2)

section Archives

variable {id : Id} {v : View} {r : Archive} {operation : String}

theorem hex_beq (id id' : Id) : (hex id'.toList == hex id.toList) = decide (id' = id) := by
  by_cases h : id' = id
  · simp [h]
  · have hne : hex id'.toList ≠ hex id.toList :=
      fun heq => h (Bytes.toList_injective (hex_injective heq))
    simp [h, hne]

theorem pairs_cons (m : Message) (messages : List Message) :
    pairs id (m :: messages) =
      if m.id == hex id.toList then (m.operationId, m.delivery) :: pairs id messages
      else pairs id messages := by
  unfold pairs
  rw [List.filter_cons]
  split
  · rfl
  · rfl

theorem pairs_append (messages : List Message) (m : Message) :
    pairs id (messages ++ [m]) = pairs id messages ++
      if m.id == hex id.toList then [(m.operationId, m.delivery)] else [] := by
  simp only [pairs, List.filter_append, List.map_append]
  cases h : m.id == hex id.toList with
  | true => simp [h]
  | false => simp [h]

theorem pairs_eq_nil (messages : List Message) :
    pairs id messages = [] ↔ messages.any (·.id == hex id.toList) = false := by
  simp [pairs]

/-- A delivery event changes the first message of its identifier. -/
theorem pairs_setDelivery (id' : Id) (value : Delivery) (messages : List Message) :
    pairs id (setDelivery (hex id'.toList) value messages) =
      if id' = id then
        match pairs id messages with
        | [] => []
        | x :: rest => (x.1, some value) :: rest
      else pairs id messages := by
  induction messages with
  | nil =>
      split
      · rfl
      · rfl
  | cons m messages ih =>
      unfold setDelivery
      rw [pairs_cons]
      cases hm : m.id == hex id'.toList with
      | true =>
          rw [if_pos rfl, pairs_cons]
          simp only [beq_iff_eq.mp hm, hex_beq]
          by_cases hid : id' = id
          · simp [hid]
          · simp [hid]
      | false =>
          rw [if_neg Bool.false_ne_true, pairs_cons, ih]
          by_cases hid : id' = id
          · subst hid
            simp [hm]
          · simp [hid]

/-- The same messages and operations show the same. -/
theorem Archive.Stands.of_eq {r' : Archive} (h : r.Stands id v)
    (hoperations : r'.operations = r.operations) (hmessages : r'.messages = r.messages) :
    r'.Stands id v := by
  constructor
  · rw [hoperations]
    exact h.known
  · rw [hmessages]
    exact h.shown

/-- A message is shown unless there is one of its identifier. -/
theorem Archive.Stands.pushMessage (operation : String) (h : r.Stands id v) (conversation : String)
    (kind : MessageKind) (id' sender : Id) (body : String) (status : Status) (acceptedAt : ℕ)
    (hsender : id' = id → sender = r.channel.selfMember) :
    (r.pushMessage conversation kind id' sender body status acceptedAt).Stands id
      (if id' = id then v.step operation (.message status) else v) := by
  unfold Archive.pushMessage
  dsimp only
  by_cases hid : id' = id
  · subst hid
    rw [if_pos rfl]
    cases hshown : v.shown with
    | none =>
        have hnil : pairs id' r.messages = [] := by
          rw [h.shown, hshown]
          rfl
        rw [if_neg (by simp [(pairs_eq_nil r.messages).mp hnil])]
        constructor
        · exact h.known
        · simp only [pairs_append, hnil]
          simp [View.step, hshown, hsender rfl, h.known]
    | some x =>
        have hany : r.messages.any (·.id == hex id'.toList) = true := by
          rw [← Bool.not_eq_false]
          intro hnone
          have hnil := (pairs_eq_nil r.messages).mpr hnone
          rw [h.shown, hshown] at hnil
          cases hnil
        rw [if_pos hany]
        constructor
        · exact h.known
        · rw [h.shown]
          simp [View.step, hshown]
  · rw [if_neg hid]
    split
    · exact h
    · constructor
      · exact h.known
      · simp only [pairs_append, hex_beq, hid, h.shown]
        simp

/-- What one event does to the message. -/
theorem Archive.Stands.perform (completionType operation : String) (h : r.Stands id v)
    (conversation : String) {event : Event}
    (hfits : ∀ sender content status, event.kind = .message id sender content status →
      sender = r.channel.selfMember ∧ content.isShown = true) :
    (r.perform completionType conversation event).1.Stands id
      ((event.item id).toList.foldl (View.step operation) v) := by
  unfold Archive.perform Event.item
  cases hkind : event.kind with
  | message id' sender content status =>
      have hsender : id' = id → sender = r.channel.selfMember := by
        rintro rfl
        exact (hfits sender content status hkind).1
      have hpush : ∀ kind body, (r.pushMessage conversation kind id' sender body status
          event.acceptedAt).Stands id ((if id' = id then some (Item.message status)
            else none).toList.foldl (View.step operation) v) := by
        intro kind body
        have hstands := h.pushMessage operation conversation kind id' sender body
          status event.acceptedAt hsender
        split
        next hid =>
          rw [if_pos hid] at hstands
          exact hstands
        next hid =>
          rw [if_neg hid] at hstands
          exact hstands
      have hother : content.isShown = false → id' ≠ id := by
        rintro hshown rfl
        have htrue := (hfits sender content status hkind).2
        rw [hshown] at htrue
        cases htrue
      cases content with
      | text body => exact hpush .text body
      | action body => exact hpush .action body
      | notice body => exact hpush .notice body
      | file contentType body =>
          simp only [Archive.receive, if_neg (hother rfl)]
          split
          · exact h
          · exact h.of_eq rfl rfl
      | topic s =>
          simp only [Archive.receive, if_neg (hother rfl)]
          exact h
      | nickname s =>
          simp only [Archive.receive, if_neg (hother rfl)]
          exact h.of_eq rfl rfl
      | presence =>
          simp only [Archive.receive, if_neg (hother rfl)]
          exact h
      | topicState =>
          simp only [Archive.receive, if_neg (hother rfl)]
          exact h
  | delivery id' status =>
      constructor
      · simp only []
        split
        · exact h.known
        · exact h.known
      · simp only [pairs_setDelivery, h.shown]
        split
        · cases hshown : v.shown with
          | none => simp [View.step, hshown]
          | some x => simp [View.step, hshown]
        · rfl
  | activity => exact h
  | joined => exact h.of_eq rfl rfl
  | removed => exact h
  | unavailable => exact h
  | operationFailed => exact h

/-- The end of a batch fills in the operation that is known. -/
theorem Archive.Stands.fillOperations (operation : String) (h : r.Stands id v) :
    r.fillOperations.Stands id (v.step operation .settled) := by
  constructor
  · exact h.known
  · have hpairs : pairs id r.fillOperations.messages =
        (pairs id r.messages).map fun x => (x.1.or v.known, x.2) := by
      simp only [pairs, Archive.fillOperations, List.filter_map, List.map_map]
      have hsame : (fun m : Message => m.id == hex id.toList) ∘ fill r.operations =
          fun m => m.id == hex id.toList := by
        funext m
        simp
      rw [hsame]
      apply List.map_congr_left
      intro m hm
      have hid := (List.mem_filter.mp hm).2
      rw [beq_iff_eq] at hid
      simp only [Function.comp_apply, fill]
      cases hoperation : m.operationId with
      | none => simp [hid, h.known]
      | some operation => simp [hoperation]
    rw [hpairs, h.shown]
    cases hshown : v.shown with
    | none => simp [View.step, hshown]
    | some x => simp [View.step, hshown]

/-- The message is queued, or another one is. -/
theorem Archive.Stands.rememberQueued (h : r.Stands id v) (id' : Id) (content : Content)
    (operation' : String) (now : ℕ)
    (hfits : id' = id → content.isShown = true ∧ operation' = operation) :
    (r.rememberQueued id' content operation' now).Stands id
      (if id' = id then v.step operation .queued else v) := by
  have hrest : content.isShown = false → id' ≠ id := by
    rintro hshown rfl
    have htrue := (hfits rfl).1
    rw [hshown] at htrue
    cases htrue
  have hother : id' ≠ id → ({ r with
      operations := r.operations.insert (hex id'.toList) operation' } : Archive).Stands id v := by
    intro hid
    constructor
    · have hne : hex id'.toList ≠ hex id.toList :=
        fun heq => hid (Bytes.toList_injective (hex_injective heq))
      rw [← h.known]
      exact StringMap.get_insert_of_ne _ _ hne
    · exact h.shown
  have hpush : ∀ kind body, (id' = id → operation' = operation) →
      (if r.messages.any (·.id == hex id'.toList) then ({ r with
        operations := r.operations.insert (hex id'.toList) operation' } : Archive)
      else { r with
        operations := r.operations.insert (hex id'.toList) operation'
        messages := r.messages ++
          [{ messageKind := some kind
             id := hex id'.toList
             conversationId := key r.channel.id
             memberId := some (hex r.channel.selfMember.toList)
             nickname := r.observedNickname r.channel.selfMember
             body := body
             timestamp := now
             mine := true
             operationId := some operation'
             delivery := some .localAccepted }] }).Stands id
        (if id' = id then v.step operation .queued else v) := by
    intro kind body hoperation
    by_cases hid : id' = id
    · subst hid
      obtain rfl := hoperation rfl
      rw [if_pos rfl]
      cases hshown : v.shown with
      | none =>
          have hnil : pairs id' r.messages = [] := by
            rw [h.shown, hshown]
            rfl
          rw [if_neg (by simp [(pairs_eq_nil r.messages).mp hnil])]
          constructor
          · exact StringMap.get_insert_self _ _ _
          · simp only [pairs_append, hnil]
            simp [View.step, hshown]
      | some x =>
          have hany : r.messages.any (·.id == hex id'.toList) = true := by
            rw [← Bool.not_eq_false]
            intro hnone
            have hnil := (pairs_eq_nil r.messages).mpr hnone
            rw [h.shown, hshown] at hnil
            cases hnil
          rw [if_pos hany]
          constructor
          · exact StringMap.get_insert_self _ _ _
          · rw [h.shown]
            simp [View.step, hshown]
    · rw [if_neg hid]
      split
      · exact hother hid
      · constructor
        · exact (hother hid).known
        · simp only [pairs_append, hex_beq, hid, h.shown]
          simp
  cases content with
  | text body => exact hpush .text body fun hid => (hfits hid).2
  | action body => exact hpush .action body fun hid => (hfits hid).2
  | notice body => exact hpush .notice body fun hid => (hfits hid).2
  | file contentType body =>
      rw [if_neg (hrest rfl)]
      exact hother (hrest rfl)
  | topic s =>
      rw [if_neg (hrest rfl)]
      exact hother (hrest rfl)
  | nickname s =>
      rw [if_neg (hrest rfl)]
      exact hother (hrest rfl)
  | presence =>
      rw [if_neg (hrest rfl)]
      exact hother (hrest rfl)
  | topicState =>
      rw [if_neg (hrest rfl)]
      exact hother (hrest rfl)

end Archives

/-! ### Runs -/

section States

variable {completionType operation : String} {room id : Id} {s t : UiState}

/-- The channel shows of the message what the view does. -/
def UiState.Stands (s : UiState) (room id : Id) (v : View) : Prop :=
  match s.hosted[key room]? with
  | none => v = ⟨none, none⟩
  | some r => r.Stands id v

theorem stands_of_get {r : Archive} {v : View} (hget : s.hosted[key room]? = some r) :
    s.Stands room id v ↔ r.Stands id v := by
  rw [UiState.Stands, hget]

theorem stands_enter {v : View} (h : s.Stands room id v) {channel : Channel}
    (hchannel : channel.id = room) : (s.enter channel).Stands id v := by
  subst hchannel
  unfold UiState.enter
  unfold UiState.Stands at h
  cases hget : s.hosted[key channel.id]? with
  | none =>
      rw [hget] at h
      subst h
      constructor
      · rw [seed_eq]
        exact Std.ExtTreeMap.getElem?_empty
      · rw [seed_eq]
        rfl
  | some r =>
      rw [hget] at h
      apply Archive.Stands.of_eq h
      · rw [Option.getD_some, seed_eq]
      · rw [Option.getD_some, seed_eq]

/-- The events of a batch, as far as they are not passed over. -/
theorem stands_foldl (operation : String) {self : Id} {conversation : String} {events : List Event} {r r' : Archive}
    {activity activity' : List Activity} {v : View} (h : r.Stands id v)
    (hself : r.channel.selfMember = self)
    (hfits : ∀ event ∈ events, ∀ sender content status,
      event.kind = .message id sender content status → sender = self ∧ content.isShown = true)
    (hfold : events.foldlM (applyEvent completionType conversation) (r, activity) =
      .ok (r', activity')) :
    r'.Stands id (v.run operation ((news r.cursor events).filterMap (Event.item id))) := by
  induction events generalizing r activity v with
  | nil =>
      cases hfold
      exact h
  | cons event events ih =>
      rw [List.foldlM_cons] at hfold
      obtain ⟨⟨next, done⟩, hevent, hrest⟩ := bind_eq_ok.mp hfold
      obtain ⟨hevents, hfits⟩ := List.forall_mem_cons.mp hfits
      obtain ⟨-, ⟨hle, rfl, rfl⟩ | ⟨hsequence, rfl, rfl⟩⟩ := applyEvent_cases hevent
      · rw [news, if_pos hle]
        exact ih h hself hfits hrest
      · rw [news, if_neg (by omega)]
        have hperform := h.perform completionType operation conversation
          (hself ▸ hevents)
        have hchannel := perform_channel r completionType conversation event
        have hnext := ih (r := { (r.perform completionType conversation event).1 with
          cursor := event.sequence }) (hperform.of_eq rfl rfl) (by
            simp only [hchannel]
            exact hself) hfits hrest
        simp only [List.filterMap_cons]
        cases hitem : event.item id with
        | none =>
            rw [hitem] at hnext
            exact hnext
        | some x =>
            rw [hitem] at hnext
            exact hnext

theorem recovered_get (s : UiState) (channel : Channel) {r : Archive}
    (h : s.hosted[key channel.id]? = some r) :
    ∃ r', (s.recovered channel).hosted[key channel.id]? = some r' ∧
      r'.operations = r.operations ∧ r'.messages = r.messages := by
  unfold UiState.recovered
  rw [h]
  exact ⟨_, StringMap.get_insert_self _ _ _, rfl, rfl⟩

theorem stands_turn {v : View} (h : s.Stands room id v) {x : Turn}
    (hfits : x.Fits room id operation) (hturn : turn completionType room s x = some t) :
    t.Stands room id (v.run operation (x.items id s)) := by
  cases x with
  | queue id' content operation' now =>
      obtain ⟨r, hget, rfl⟩ := Option.map_eq_some_iff.mp hturn
      rw [stands_of_get hget] at h
      have hqueued := h.rememberQueued id' content operation' now hfits
      rw [stands_of_get (StringMap.get_insert_self _ _ _)]
      simp only [Turn.items]
      by_cases hid : id' = id
      · rw [if_pos hid] at hqueued ⊢
        exact hqueued
      · rw [if_neg hid] at hqueued ⊢
        exact hqueued
  | batch channel recovered events =>
      obtain ⟨hchannel, hevents⟩ := hfits
      simp only [turn] at hturn
      split at hturn
      · cases hturn
      next after through happly =>
        obtain ⟨r, activity, hfold, rfl, rfl⟩ := apply_eq_ok.mp happly
        have hstands : r.fillOperations.Stands id (v.run operation (Turn.items id s
            (.batch channel recovered events))) := by
          have hfolded := stands_foldl operation (stands_enter h hchannel) rfl hevents
            hfold
          rw [Turn.items, run_append]
          exact hfolded.fillOperations operation
        subst hchannel
        cases hturn
        have hleave := leave_get s channel r activity
        cases recovered with
        | false =>
            rw [if_neg Bool.false_ne_true, stands_of_get hleave]
            exact hstands
        | true =>
            obtain ⟨r', hget, hoperations, hmessages⟩ := recovered_get _ channel hleave
            rw [if_pos rfl, stands_of_get hget]
            exact hstands.of_eq hoperations hmessages

/-- A run leaves of the message what its items say. -/
theorem stands_run {turns : List Turn} {v : View} (h : s.Stands room id v)
    (hfits : ∀ x ∈ turns, x.Fits room id operation)
    (hrun : turns.foldlM (turn completionType room) s = some t) :
    t.Stands room id (v.run operation (itemsOf completionType room id s turns)) := by
  induction turns generalizing s v with
  | nil =>
      cases hrun
      exact h
  | cons x turns ih =>
      rw [List.foldlM_cons, Option.bind_eq_bind, Option.bind_eq_some_iff] at hrun
      obtain ⟨u, hturn, hrest⟩ := hrun
      obtain ⟨hx, hfits⟩ := List.forall_mem_cons.mp hfits
      rw [itemsOf, hturn, run_append]
      exact ih (stands_turn h hx hturn) hfits hrest

theorem stands_unknown (h : s.Unknown room id) : s.Stands room id ⟨none, none⟩ := by
  unfold UiState.Stands
  split
  · rfl
  next r hget =>
    obtain ⟨hmessages, hoperations⟩ := h r hget
    refine ⟨hoperations, (pairs_eq_nil _).mpr ?_⟩
    rw [List.any_eq_false]
    intro m hm
    simpa using hmessages m hm

/-- A message with this operation and delivery is what the view shows. -/
theorem settled_iff {v : View} (h : s.Stands room id v) (status : Status) :
    s.Settled room id operation status ↔
      v.shown = some (some operation, Hosted.delivery status) := by
  constructor
  · rintro ⟨r, m, hget, hfilter, hoperation, hdelivery⟩
    rw [stands_of_get hget] at h
    have hshown := h.shown
    rw [pairs, hfilter, List.map_singleton, hoperation, hdelivery] at hshown
    cases hv : v.shown with
    | none =>
        rw [hv] at hshown
        cases hshown
    | some x =>
        rw [hv] at hshown
        obtain ⟨o, d⟩ := x
        simp only [Option.toList_some, List.map_singleton, List.cons.injEq, Prod.mk.injEq,
          Option.some.injEq, and_true] at hshown
        rw [← hshown.1, ← hshown.2]
  · intro hv
    unfold UiState.Stands at h
    split at h
    · rw [h] at hv
      cases hv
    next r hget =>
      have hshown := h.shown
      rw [hv] at hshown
      obtain ⟨m, hfilter, hm⟩ := List.map_eq_singleton_iff.mp hshown
      exact ⟨r, m, hget, hfilter, congrArg Prod.fst hm, congrArg Prod.snd hm⟩

/-- A run in which the message is queued once, and some event reports of it, leaves it once,
with its operation and with the status reported last, exactly if a batch ended after it was
queued or no message event came before, and the last report was in time. -/
theorem settled_iff_recorded_inTime {turns : List Turn} {before after : List Item} {x : Item}
    {status : Status} (hs : s.Unknown room id)
    (hfits : ∀ y ∈ turns, y.Fits room id operation)
    (hrun : turns.foldlM (turn completionType room) s = some t)
    (hone : (itemsOf completionType room id s turns).count .queued = 1)
    (hitems : itemsOf completionType room id s turns = before ++ x :: after)
    (hx : x.status = some status) (hlast : ∀ y ∈ after, y.status = none) :
    t.Settled room id operation status ↔
      Recorded (itemsOf completionType room id s turns) ∧ InTime before x := by
  have hstands := stands_run (stands_unknown hs) hfits hrun
  have hqueued : .queued ∈ itemsOf completionType room id s turns :=
    List.count_pos_iff.mp (by omega)
  have hoperation := operation_iff_recorded operation hone
  have hdelivery := delivery_iff_inTime operation hitems hx hlast hqueued
  rw [settled_iff hstands, ← hoperation, ← hdelivery]
  constructor
  · intro hshown
    exact ⟨⟨_, hshown⟩, ⟨_, hshown⟩⟩
  · rintro ⟨⟨d, hd⟩, o, ho⟩
    rw [hd] at ho
    obtain rfl : d = Hosted.delivery status := congrArg Prod.snd (Option.some.inj ho)
    exact hd

end States

namespace Sample

def own : Id := Bytes.fill 32 9

def channel : Channel := room [⟨self, "alice"⟩]

/-- An event of the own message. -/
def told (sequence : ℕ) (status : Status) : Event :=
  ⟨sequence, Bytes.fill 32 1, 100, .message own self (.text "hello") status⟩

/-- A later report of its delivery. -/
def reported (sequence : ℕ) (status : Status) : Event :=
  ⟨sequence, Bytes.fill 32 1, 101, .delivery own status⟩

/-- The message is queued. -/
def queue : Turn := .queue own (.text "hello") "op-1" 99

/-- The operation and the delivery of each message at the end of a run. -/
def pairsAfter (turns : List Turn) : Option (List (Option String × Option Delivery)) :=
  (turns.foldlM (turn "" (Bytes.fill 32 1)) ⟨∅, []⟩).map fun s =>
    (messages s).map fun m => (m.operationId, m.delivery)

/-- A run with the channel stored before. -/
def opened (turns : List Turn) : List Turn := .batch channel false [] :: turns

def won : List Turn :=
  opened [queue, .batch channel false [told 1 .pending, reported 2 (.serviceAccepted 7)]]

end Sample

open Sample in
/-- A message event that comes after the message was queued does not change its delivery, and
a message that is queued after its events were stored stays without its operation. -/
theorem own_message_depends_on_race :
    pairsAfter (opened [queue, .batch channel false [told 1 .delivered]]) =
        some [(some "op-1", some Delivery.localAccepted)] ∧
      pairsAfter (opened [.batch channel false [told 1 .delivered], queue]) =
        some [(none, some Delivery.delivered)] := by
  decide +kernel

open Sample in
/-- A run in which the race is won on both sides. -/
theorem sample_settled : ∃ t,
    won.foldlM (turn "" (Bytes.fill 32 1)) ⟨∅, []⟩ = some t ∧
      t.Settled (Bytes.fill 32 1) own "op-1" (.serviceAccepted 7) := by
  obtain ⟨t, hrun⟩ : ∃ t, won.foldlM (turn "" (Bytes.fill 32 1)) ⟨∅, []⟩ = some t :=
    Option.isSome_iff_exists.mp (by decide +kernel)
  have hitems : itemsOf "" (Bytes.fill 32 1) own ⟨∅, []⟩ won =
      [.settled, .queued, .message .pending] ++ .delivery (.serviceAccepted 7) :: [.settled] := by
    decide +kernel
  have hunknown : (⟨∅, []⟩ : UiState).Unknown (Bytes.fill 32 1) own := by
    intro r hget
    rw [show (⟨∅, []⟩ : UiState).hosted = ∅ from rfl, Std.ExtTreeMap.getElem?_empty] at hget
    cases hget
  have hfits : ∀ y ∈ won, y.Fits (Bytes.fill 32 1) own "op-1" := by
    simp only [won, opened, List.forall_mem_cons, Turn.Fits, queue]
    refine ⟨⟨rfl, nofun⟩, fun _ => ⟨rfl, trivial⟩, ⟨rfl, ?_, ?_, nofun⟩, nofun⟩
    · rintro sender content status ⟨⟩
      exact ⟨rfl, rfl⟩
    · rintro sender content status ⟨⟩
  have hone : (itemsOf "" (Bytes.fill 32 1) own ⟨∅, []⟩ won).count .queued = 1 := by
    rw [hitems]
    decide
  have hlast : ∀ y ∈ [Item.settled], y.status = none := by
    simp [Item.status]
  refine ⟨t, hrun, (settled_iff_recorded_inTime hunknown hfits hrun hone hitems rfl hlast).mpr
    ⟨?_, ?_⟩⟩
  · rw [hitems]
    exact ⟨[.settled], _, rfl, Or.inr (by simp)⟩
  · exact Or.inl ⟨.queued, by simp, rfl⟩

end Hosted

end GChat
