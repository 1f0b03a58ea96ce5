import GChat.Badges.Tracking

/-!
# The jobs of the tracker

A job is the one of a conversation that its snapshot has unread messages of. A scan starts with all
of them to read, and nothing but a reply sets a badge.
-/

namespace GChat

namespace Badges

open Foundation

variable {Transport : Type} {lowercase : List ℕ → List ℕ} {s : Highlights Transport}
  {t : Tracked Transport} {scan : Scan Transport} {id : String}

/-! ### Jobs -/

/-- The job of a conversation with unread messages and the stamp of these. -/
def Described (id : String) (job : Job Transport) : Prop :=
  job.conversation.id = id ∧ 0 < job.conversation.unread ∧
    ∃ instance', job.stamp = stampOf instance' job.conversation

structure WellFormed (s : Highlights Transport) : Prop where
  queued : ∀ entry ∈ s.queue, Described entry.1 entry.2
  scanning : ∀ scan, s.scan = some scan → Described scan.id scan.job
  started : ∀ scan, s.scan = some scan → scan.generation ≤ s.generation

theorem mem_upsert {α : Type} {p : α → Bool} {new y : α} {l : List α}
    (h : y ∈ upsert p (fun _ => new) new l) : y ∈ l ∨ y = new := by
  rw [upsert] at h
  split at h
  · rcases mem_modifyFirst h with h | ⟨x, -, rfl⟩
    · exact Or.inl h
    · exact Or.inr rfl
  · rcases List.mem_append.mp h with h | h
    · exact Or.inl h
    · exact Or.inr (List.mem_singleton.mp h)

namespace Highlights

/-- A scan that starts. -/
def Fresh (scan : Scan Transport) : Prop :=
  scan.cursors = [] ∧ scan.before = none ∧ scan.remaining = scan.job.conversation.unread

/-- Where the next job starts, the badges are left alone. -/
theorem drainFrom_spec {queue : List (String × Job Transport)}
    (h : ∀ entry ∈ queue, Described entry.1 entry.2) (s : Highlights Transport) :
    (drainFrom queue s).badges = s.badges ∧ WellFormed (drainFrom queue s) ∧
      ∀ scan, (drainFrom queue s).scan = some scan → Fresh scan := by
  induction queue generalizing s with
  | nil => exact ⟨rfl, ⟨nofun, nofun, nofun⟩, nofun⟩
  | cons entry queue ih =>
      have hentry := h entry List.mem_cons_self
      have hqueue : ∀ e ∈ queue, Described e.1 e.2 := fun e he =>
        h e (List.mem_cons_of_mem entry he)
      rw [drainFrom]
      dsimp only
      split
      · refine ⟨rfl, ⟨hqueue, ?_, ?_⟩, ?_⟩
        · rintro scan hscan
          cases hscan
          exact hentry
        · rintro scan hscan
          cases hscan
          exact Nat.le_refl _
        · rintro scan hscan
          cases hscan
          exact ⟨rfl, rfl, rfl⟩
      next hskip =>
        rw [not_and_or, Bool.not_eq_true] at hskip
        have hstale := hskip.resolve_left (not_not.mpr hentry.2.1)
        rw [settle_of_not_current hstale]
        exact ih hqueue s

theorem drain_spec (h : WellFormed s) : s.drain.badges = s.badges ∧ WellFormed s.drain ∧
    ∀ scan, s.drain.scan = some scan → s.scan = some scan ∨ Fresh scan := by
  rw [drain]
  split
  · exact ⟨rfl, h, fun scan hscan => Or.inl hscan⟩
  · obtain ⟨hbadges, hwell, hfresh⟩ := drainFrom_spec h.queued s
    exact ⟨hbadges, hwell, fun scan hscan => Or.inr (hfresh scan hscan)⟩

theorem wellFormed_settle (h : WellFormed s) (scan : Scan Transport) (found : Bool) :
    WellFormed (s.settle scan found) where
  queued := by
    rw [queue_settle]
    exact h.queued
  scanning := by
    rw [scan_settle]
    exact h.scanning
  started := by
    rw [scan_settle, generation_settle]
    exact h.started

theorem wellFormed_idle (h : WellFormed s) : WellFormed { s with scan := none } where
  queued := h.queued
  scanning := by
    intro scan hscan
    cases hscan
  started := by
    intro scan hscan
    cases hscan

theorem wellFormed_clear (h : WellFormed s) : WellFormed s.clear :=
  ⟨nofun, h.scanning, fun scan hscan => Nat.le_succ_of_le (h.started scan hscan)⟩

theorem wellFormed_observe (h : WellFormed s) (instance' : Instance) (transport : Transport)
    (c : Conversation) : WellFormed (observe instance' transport s c) := by
  rw [observe]
  dsimp only
  split
  · exact ⟨fun entry hentry => h.queued entry (List.mem_of_mem_filter hentry), h.scanning,
      h.started⟩
  next hunread =>
    split
    · exact h
    · refine ⟨?_, h.scanning, h.started⟩
      intro entry hentry
      rcases mem_upsert hentry with hentry | rfl
      · exact h.queued entry hentry
      · exact ⟨rfl, Nat.pos_of_ne_zero fun hzero => hunread (Or.inl hzero), instance', rfl⟩

/-- The tracker behind the stamps of a snapshot, where the next job is to start. -/
theorem wellFormed_observed (h : WellFormed s) (snapshot : Snapshot) (transport : Transport) :
    WellFormed (snapshot.conversations.foldl (observe snapshot.instance' transport)
      (s.prune fun id => snapshot.conversations.any fun c => c.id == id)) := by
  have hprune : WellFormed (s.prune fun id => snapshot.conversations.any fun c => c.id == id) :=
    ⟨fun entry hentry => h.queued entry (List.mem_of_mem_filter hentry), h.scanning, h.started⟩
  generalize s.prune (fun id => snapshot.conversations.any fun c => c.id == id) = pruned
    at hprune
  induction snapshot.conversations generalizing pruned with
  | nil => exact hprune
  | cons c conversations ih => exact ih _ (wellFormed_observe hprune _ _ c)

theorem wellFormed_update (h : WellFormed s) (snapshot : Snapshot) (transport : Transport) :
    WellFormed (s.update snapshot transport) := by
  rw [update]
  split
  · exact wellFormed_clear h
  · exact (drain_spec (wellFormed_observed h snapshot transport)).2.1

theorem wellFormed_read (h : WellFormed s) (hscan : Described scan.id scan.job)
    (hstarted : scan.generation ≤ s.generation) (page : Page Message) :
    WellFormed (s.read lowercase scan page) := by
  rw [read]
  dsimp only
  split
  · exact wellFormed_settle h _ _
  · split
    · exact wellFormed_settle h _ _
    · split
      · exact wellFormed_settle h _ _
      · split
        · refine ⟨h.queued, ?_, ?_⟩
          · rintro following hfollowing
            cases hfollowing
            exact hscan
          · rintro following hfollowing
            cases hfollowing
            exact hstarted
        · exact wellFormed_settle h _ _

theorem wellFormed_receive (h : WellFormed s) (reply : Reply) :
    WellFormed (s.receive lowercase reply) := by
  rw [receive]
  split
  · exact h
  next scan hscan =>
    have hidle := wellFormed_idle h
    dsimp only
    split
    · refine (drain_spec ?_).2.1
      split
      · exact wellFormed_read hidle (h.scanning scan hscan) (h.started scan hscan) _
      · exact hidle
    · exact (drain_spec hidle).2.1

theorem wellFormed_step (h : WellFormed s) (e : Event Transport) :
    WellFormed (s.step lowercase e) := by
  cases e with
  | update snapshot transport => exact wellFormed_update h snapshot transport
  | clear => exact wellFormed_clear h
  | reply reply => exact wellFormed_receive h reply

end Highlights

theorem wellFormed_of_reachable (h : (tracker lowercase).Reachable t) :
    WellFormed t.highlights := by
  refine h.invariant (I := fun t => WellFormed t.highlights) ?_ ?_
  · rintro t rfl
    exact ⟨nofun, nofun, nofun⟩
  · rintro t e u - ht hu
    rw [hu]
    exact Highlights.wellFormed_step ht e

/-! ### Nothing but a reply sets a badge -/

namespace Highlights

theorem badges_observe (instance' : Instance) (transport : Transport) (s : Highlights Transport)
    (c : Conversation) (h : (observe instance' transport s c).badges id = true) :
    s.badges id = true := by
  rw [observe] at h
  dsimp only at h
  split at h
  · rw [forget] at h
    dsimp only at h
    by_cases hid : id = c.id
    · rw [hid, Function.update_self] at h
      cases h
    · rwa [Function.update_of_ne hid] at h
  · split at h
    · exact h
    · exact h

theorem badges_foldl_observe (instance' : Instance) (transport : Transport)
    (conversations : List Conversation) (s : Highlights Transport)
    (h : (conversations.foldl (observe instance' transport) s).badges id = true) :
    s.badges id = true := by
  induction conversations generalizing s with
  | nil => exact h
  | cons c conversations ih => exact badges_observe instance' transport s c (ih _ h)

@[simp] theorem scan_observe (instance' : Instance) (transport : Transport)
    (s : Highlights Transport) (c : Conversation) :
    (observe instance' transport s c).scan = s.scan := by
  rw [observe]
  dsimp only
  split
  · rfl
  · split
    · rfl
    · rfl

theorem scan_foldl_observe (instance' : Instance) (transport : Transport)
    (conversations : List Conversation) (s : Highlights Transport) :
    (conversations.foldl (observe instance' transport) s).scan = s.scan := by
  induction conversations generalizing s with
  | nil => rfl
  | cons c conversations ih => rw [List.foldl_cons, ih, scan_observe]

@[simp] theorem generation_observe (instance' : Instance) (transport : Transport)
    (s : Highlights Transport) (c : Conversation) :
    (observe instance' transport s c).generation = s.generation := by
  rw [observe]
  dsimp only
  split
  · rfl
  · split
    · rfl
    · rfl

theorem generation_foldl_observe (instance' : Instance) (transport : Transport)
    (conversations : List Conversation) (s : Highlights Transport) :
    (conversations.foldl (observe instance' transport) s).generation = s.generation := by
  induction conversations generalizing s with
  | nil => rfl
  | cons c conversations ih => rw [List.foldl_cons, ih, generation_observe]

theorem generation_update (s : Highlights Transport) (snapshot : Snapshot)
    (transport : Transport) : (s.update snapshot transport).generation =
      s.generation + if snapshot.instance'.locked then 1 else 0 := by
  rw [update]
  split
  · rfl
  · dsimp only
    rw [generation_drain, generation_foldl_observe]
    rfl

theorem badges_update (h : WellFormed s) (snapshot : Snapshot) (transport : Transport)
    (hset : (s.update snapshot transport).badges id = true) : s.badges id = true := by
  rw [update] at hset
  split at hset
  · cases hset
  · dsimp only at hset
    rw [(drain_spec (wellFormed_observed h snapshot transport)).1] at hset
    have hpruned := badges_foldl_observe _ _ _ _ hset
    exact (Bool.and_eq_true_iff.mp hpruned).2

/-- A scan that runs is not replaced by an update. -/
theorem scan_update (h : WellFormed s) (snapshot : Snapshot) (transport : Transport)
    (hscan : (s.update snapshot transport).scan = some scan) :
    s.scan = some scan ∨ Fresh scan := by
  rw [update] at hscan
  split at hscan
  · exact Or.inl hscan
  · dsimp only at hscan
    have hdrain := (drain_spec (wellFormed_observed h snapshot transport)).2.2 scan hscan
    rwa [scan_foldl_observe] at hdrain

theorem scan_update_of_some (hscan : s.scan = some scan) (snapshot : Snapshot)
    (transport : Transport) : (s.update snapshot transport).scan = some scan := by
  rw [update]
  split
  · exact hscan
  · dsimp only
    rw [drain, scan_foldl_observe]
    dsimp only [prune]
    rw [hscan]
    dsimp only
    rw [scan_foldl_observe]

end Highlights

end Badges

end GChat
