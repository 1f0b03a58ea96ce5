import GChat.Badges.Model

/-!
# Replies that no longer count

The stamps are those of the latest snapshot. Only a reply sets a badge, and only while the latest
snapshot has the stamp that the reply was requested for and nothing was cleared since.
-/

namespace GChat

namespace Badges

open Foundation

/-- The stamp a snapshot gives a conversation, if it is unread there and not muted. -/
def stampIn (snapshot : Snapshot) (id : String) : Option Stamp :=
  (snapshot.conversations.filter fun c => c.id == id).getLast?.bind fun c =>
    if c.unread = 0 ∨ c.muted then none else some (stampOf snapshot.instance' c)

/-- The tracker with the latest snapshot of a profile that is not locked. -/
structure Tracked (Transport : Type) where
  highlights : Highlights Transport
  latest : Option Snapshot

section Model

variable {Transport : Type} (lowercase : List ℕ → List ℕ)

def follow (t : Tracked Transport) (e : Event Transport) : Tracked Transport where
  highlights := t.highlights.step lowercase e
  latest :=
    match e with
    | .update snapshot _ => if snapshot.instance'.locked then none else some snapshot
    | .clear => none
    | .reply _ => t.latest

def tracker : Machine (Tracked Transport) (Event Transport) :=
  .ofFun ⟨.empty, none⟩ (follow lowercase)

end Model

variable {Transport : Type} {lowercase : List ℕ → List ℕ} {s : Highlights Transport}
  {t : Tracked Transport} {scan : Scan Transport} {id : String}

/-! ### What a step leaves alone -/

namespace Highlights

@[simp] theorem stamps_settle (s : Highlights Transport) (scan : Scan Transport) (found : Bool) :
    (s.settle scan found).stamps = s.stamps := by
  rw [settle]
  split
  · rfl
  · rfl

@[simp] theorem generation_settle (s : Highlights Transport) (scan : Scan Transport)
    (found : Bool) : (s.settle scan found).generation = s.generation := by
  rw [settle]
  split
  · rfl
  · rfl

@[simp] theorem queue_settle (s : Highlights Transport) (scan : Scan Transport) (found : Bool) :
    (s.settle scan found).queue = s.queue := by
  rw [settle]
  split
  · rfl
  · rfl

@[simp] theorem scan_settle (s : Highlights Transport) (scan : Scan Transport) (found : Bool) :
    (s.settle scan found).scan = s.scan := by
  rw [settle]
  split
  · rfl
  · rfl

theorem settle_of_not_current (h : s.current scan = false) (found : Bool) :
    s.settle scan found = s := by
  rw [settle, h, if_neg Bool.false_ne_true]

theorem badges_settle (h : s.current scan = true) (found : Bool) :
    (s.settle scan found).badges = Function.update s.badges scan.id found := by
  rw [settle, if_pos h]

@[simp] theorem stamps_drainFrom (queue : List (String × Job Transport))
    (s : Highlights Transport) : (drainFrom queue s).stamps = s.stamps := by
  induction queue generalizing s with
  | nil => rfl
  | cons entry queue ih =>
      rw [drainFrom]
      dsimp only
      split
      · rfl
      · rw [ih, stamps_settle]

@[simp] theorem generation_drainFrom (queue : List (String × Job Transport))
    (s : Highlights Transport) : (drainFrom queue s).generation = s.generation := by
  induction queue generalizing s with
  | nil => rfl
  | cons entry queue ih =>
      rw [drainFrom]
      dsimp only
      split
      · rfl
      · rw [ih, generation_settle]

@[simp] theorem stamps_drain (s : Highlights Transport) : s.drain.stamps = s.stamps := by
  rw [drain]
  split
  · rfl
  · exact stamps_drainFrom _ _

@[simp] theorem generation_drain (s : Highlights Transport) :
    s.drain.generation = s.generation := by
  rw [drain]
  split
  · rfl
  · exact generation_drainFrom _ _

theorem stamps_read (s : Highlights Transport) (scan : Scan Transport) (page : Page Message) :
    (s.read lowercase scan page).stamps = s.stamps := by
  rw [read]
  dsimp only
  split
  · exact stamps_settle _ _ _
  · split
    · exact stamps_settle _ _ _
    · split
      · exact stamps_settle _ _ _
      · split
        · rfl
        · exact stamps_settle _ _ _

theorem generation_read (s : Highlights Transport) (scan : Scan Transport) (page : Page Message) :
    (s.read lowercase scan page).generation = s.generation := by
  rw [read]
  dsimp only
  split
  · exact generation_settle _ _ _
  · split
    · exact generation_settle _ _ _
    · split
      · exact generation_settle _ _ _
      · split
        · rfl
        · exact generation_settle _ _ _

theorem stamps_receive (s : Highlights Transport) (reply : Reply) :
    (s.receive lowercase reply).stamps = s.stamps := by
  rw [receive]
  split
  · rfl
  · dsimp only
    split
    · rw [stamps_drain]
      split
      · exact stamps_read _ _ _
      · rfl
    · exact stamps_drain _

/-! ### The stamps of a snapshot -/

theorem stamps_observe (instance' : Instance) (transport : Transport) (s : Highlights Transport)
    (c : Conversation) (id : String) : (observe instance' transport s c).stamps id =
      if c.id = id then (if c.unread = 0 ∨ c.muted then none else some (stampOf instance' c))
      else s.stamps id := by
  rw [observe]
  dsimp only
  by_cases hread : c.unread = 0 ∨ c.muted = true
  · rw [if_pos hread, if_pos hread, forget]
    dsimp only
    by_cases hid : c.id = id
    · rw [if_pos hid, ← hid, Function.update_self]
    · rw [if_neg hid, Function.update_of_ne (Ne.symm hid)]
  · rw [if_neg hread, if_neg hread]
    by_cases hid : c.id = id
    · rw [if_pos hid, ← hid]
      split
      next hsame => exact hsame
      · exact Function.update_self _ _ _
    · rw [if_neg hid]
      split
      · rfl
      · exact Function.update_of_ne (Ne.symm hid) _ _

theorem stamps_foldl_observe (instance' : Instance) (transport : Transport)
    (conversations : List Conversation) (s : Highlights Transport) (id : String) :
    (conversations.foldl (observe instance' transport) s).stamps id =
      match (conversations.filter fun c => c.id == id).getLast? with
      | none => s.stamps id
      | some c => if c.unread = 0 ∨ c.muted then none else some (stampOf instance' c) := by
  induction conversations using List.reverseRecOn with
  | nil => rfl
  | append_singleton conversations c ih =>
      rw [List.foldl_append, List.foldl_cons, List.foldl_nil, stamps_observe, List.filter_append,
        List.filter_singleton]
      by_cases hid : c.id = id
      · rw [if_pos hid, beq_iff_eq.mpr hid, cond_true, List.getLast?_concat]
      · rw [if_neg hid, beq_eq_false_iff_ne.mpr hid, cond_false, List.append_nil, ih]

/-- A snapshot that is not locked gives every conversation its stamp. -/
theorem stamps_update {snapshot : Snapshot} (h : snapshot.instance'.locked = false)
    (transport : Transport) (id : String) :
    (s.update snapshot transport).stamps id = stampIn snapshot id := by
  rw [update, h, if_neg Bool.false_ne_true]
  dsimp only
  rw [stamps_drain, stamps_foldl_observe, stampIn]
  cases hlast : (snapshot.conversations.filter fun c => c.id == id).getLast? with
  | some c => rfl
  | none =>
      have hnone : (snapshot.conversations.any fun c => c.id == id) = false := by
        rw [List.getLast?_eq_none_iff, List.filter_eq_nil_iff] at hlast
        rw [List.any_eq_false]
        exact hlast
      dsimp only [prune, Option.bind]
      simp only [hnone, Bool.or_false]
      cases s.stamps id with
      | none => rfl
      | some stamp => rfl

end Highlights

/-! ### The latest snapshot -/

theorem stamps_of_reachable (h : (tracker lowercase).Reachable t) (id : String) :
    t.highlights.stamps id = t.latest.bind fun snapshot => stampIn snapshot id := by
  refine h.invariant (I := fun t => ∀ id, t.highlights.stamps id =
    t.latest.bind fun snapshot => stampIn snapshot id) ?_ ?_ id
  · rintro t rfl id
    rfl
  · rintro t e u - ht hu id
    rw [hu]
    cases e with
    | clear => rfl
    | update snapshot transport =>
        cases hlocked : snapshot.instance'.locked with
        | true =>
            simp only [follow, Highlights.step, Highlights.update, hlocked, if_true]
            rfl
        | false =>
            simp only [follow, Highlights.step, hlocked, Bool.false_eq_true, if_false]
            exact Highlights.stamps_update hlocked transport id
    | reply reply =>
        have hstamps : (t.highlights.receive lowercase reply).stamps = t.highlights.stamps :=
          Highlights.stamps_receive t.highlights reply
        exact (congrFun hstamps id).trans (ht id)

end Badges

end GChat
