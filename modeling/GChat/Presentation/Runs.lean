import GChat.Presentation.Fresh

/-!
# Runs of the cached snapshot

Each step keeps the invariant, where a client reports no change while the unlock that opened it
has yet to invalidate, and where a lock or a disconnect completes after all that was read before
it has been returned.
-/

namespace GChat

namespace Presentation

open Foundation

/-! ### The versions, the cache and the session -/

section Session

variable {s t : Service} {i : ℕ} {start : Changes} {old work : Work}

theorem Service.Inv.raise (h : s.Inv) (ht : s.raise = some t) : t.Inv := by
  rw [Service.raise] at ht
  split at ht
  next hlimit =>
    cases ht
    have hkeeps : s.Keeps
        { s with changes := { s.changes with service := s.changes.service + 1 } } :=
      ⟨⟨Nat.le_succ _, Nat.le_refl _⟩, rfl, fun _ => rfl, rfl, fun _ hc => hc⟩
    have hext : s.Extends
        { s with changes := { s.changes with service := s.changes.service + 1 } } :=
      .of_service (Nat.lt_succ_self _) (Nat.le_refl _) (Nat.le_refl _) rfl
    exact ⟨hlimit, h.client, h.base, h.closed,
      fun cached hc => (h.cache cached hc).keeps hkeeps rfl,
      fun held hh => (h.held held hh).keeps hkeeps fun _ _ hf => hf,
      fun task ht => (h.tasks task ht).extends hext, h.answers⟩
  · cases ht

theorem raise_changes (ht : s.raise = some t) : t =
    { s with changes := { s.changes with service := s.changes.service + 1 } } := by
  rw [Service.raise] at ht
  split at ht
  · cases ht
    rfl
  · cases ht

/-- The session is let go. -/
theorem Service.Inv.free (h : s.Inv) (hclosing : s.isClosing = false) :
    ({ s with held := none } : Service).Inv := by
  refine h.same ⟨rfl, rfl, rfl, rfl, rfl, fun _ hc => hc, ?_⟩ (fun ho => ho) nofun
    (fun _ ht => Or.inl ht) (fun _ ha => Or.inl ha)
  rw [hclosing]
  rfl

/-- What was built is cached. -/
theorem Service.Inv.store (h : s.Inv) {cached : Cached}
    (hheld : s.held = some (.storing i cached)) :
    ({ s with held := none, cache := some cached } : Service).Inv := by
  have hfree := h.free (isClosing_of_held hheld)
  obtain ⟨hread, -, hepoch, hversion, hunlocked⟩ := h.held _ hheld
  have hext : ({ s with held := none } : Service).Extends
      { s with held := none, cache := some cached } :=
    ⟨le_rfl, le_rfl, rfl, fun _ hs => ⟨rfl, hs⟩, fun _ hs => ⟨rfl, hs⟩⟩
  refine ⟨hfree.service, hfree.client, hfree.base, hfree.closed, ?_, nofun,
    fun task ht => (hfree.tasks task ht).extends hext, hfree.answers⟩
  intro other hother
  cases hother
  exact ⟨hversion, hread.past, hunlocked, fun _ _ => ⟨fun hl => hread.locked.trans hl,
    fun _ => hread.none, fun _ => hread.some, fun _ => hepoch⟩⟩

/-- An unlock opens the client. -/
theorem Service.Inv.open (h : s.Inv) (hheld : s.held = none) (hsession : s.session = none)
    (hopening : s.opening = true) :
    ({ s with
      session := some ⟨false, s.changes.client⟩
      clients := s.clients + 1 } : Service).Inv := by
  have hclosed : s.isClosing = false := isClosing_of_free hheld
  have hlocked : s.locked = true := by
    rw [Service.locked, hsession]
    rfl
  have hext : s.Extends { s with
      session := some ⟨false, s.changes.client⟩
      clients := s.clients + 1 } := by
    refine ⟨le_rfl, le_rfl, rfl, fun _ hsome => ?_, fun _ _ => ⟨rfl, fun _ => hopening⟩⟩
    rw [hsession, hclosed] at hsome
    obtain hsome | hsome := hsome
    · cases hsome
    · cases hsome
  refine ⟨h.service, h.client, ?_, h.closed, ?_, ?_, fun task ht => (h.tasks task ht).extends hext,
    h.answers⟩
  · intro current hcurrent
    cases hcurrent
    exact Nat.le_refl _
  · intro cached hcached
    obtain ⟨hversion, hbegun, hunlocked, hfits⟩ := h.cache cached hcached
    refine ⟨hversion, hbegun, hunlocked, fun _ hservice => ?_⟩
    have hfits := hfits hclosed hservice
    have hcachedLocked := hfits.locked hlocked
    refine ⟨fun hstill => ?_, fun _ hs => ?_, fun heq => ?_, hfits.epoch⟩
    · cases hstill
    · cases hs
    · cases hcachedLocked.symm.trans heq
  · intro held hsome
    cases hheld.symm.trans hsome

/-- A lock or a disconnect takes effect. -/
theorem Service.Inv.close (h : s.Inv) {session : Option Unlocked}
    (hbase : ∀ current, session = some current → current.base ≤ s.changes.client)
    (hsession : session.isSome = true → s.session.isSome = true) :
    ({ s with
      held := some (.closing i (s.epoch + 1))
      session := session
      epoch := s.epoch + 1 } : Service).Inv := by
  have hext : s.Extends { s with
      held := some (.closing i (s.epoch + 1))
      session := session
      epoch := s.epoch + 1 } :=
    ⟨le_rfl, Nat.le_succ _, rfl, fun _ _ => ⟨rfl, Or.inr rfl⟩,
      fun _ hnone => ⟨rfl, fun hs => hnone (hsession hs)⟩⟩
  refine ⟨h.service, h.client, hbase, Nat.le_succ_of_le h.closed, ?_, ?_,
    fun task ht => (h.tasks task ht).extends hext, h.answers⟩
  · intro cached hcached
    obtain ⟨hversion, hbegun, hunlocked, -⟩ := h.cache cached hcached
    exact ⟨hversion, hbegun, hunlocked, nofun⟩
  · intro held hheld
    cases hheld
    exact Nat.le_refl _

/-- The cache is cleared for a lock or a disconnect. -/
theorem Service.Inv.cleared (h : s.Inv) {epoch : ℕ} (hheld : s.held = some (.closing i epoch)) :
    ({ s with held := some (.cleared i epoch), cache := none } : Service).Inv := by
  have hclosing := isClosing_of_held hheld
  refine h.same ⟨rfl, rfl, rfl, rfl, rfl, nofun, ?_⟩ (fun ho => ho) (fun held hsome => ?_)
    (fun _ ht => Or.inl ht) (fun _ ha => Or.inl ha)
  · rw [hclosing]
    rfl
  · cases hsome
    have hepoch : epoch ≤ s.epoch := h.held _ hheld
    exact hepoch

/-- The version is raised, and the session is let go. -/
theorem Service.Inv.released (h : s.Inv) {epoch : ℕ} (hheld : s.held = some (.cleared i epoch))
    (hraise : s.raise = some t) (hi : s.tasks[i]? = some ⟨start, old⟩)
    (hok : Task.Ok s ⟨start, work⟩) :
    ({ t with held := none }.put i start work).Inv := by
  have ht := h.raise hraise
  obtain rfl := raise_changes hraise
  have hext : s.Extends ({ s with
      held := none
      changes := { s.changes with service := s.changes.service + 1 } }.put i start work) :=
    .of_service (Nat.lt_succ_self _) (Nat.le_refl _) (Nat.le_refl _) rfl
  refine ⟨ht.service, ht.client, ht.base, ht.closed, ?_, nofun, ?_, ht.answers⟩
  · intro cached hcached
    obtain ⟨hversion, hbegun, hunlocked, -⟩ := h.cache cached hcached
    refine ⟨hversion, le_trans hbegun hext.changes, hunlocked, fun _ hservice => ?_⟩
    have hle := hbegun.1
    rw [hservice] at hle
    exact absurd hle (Nat.not_succ_le_self _)
  · intro task htask
    obtain htask | rfl := mem_put htask
    · exact (h.tasks task htask).extends hext
    · exact hok.extends hext

/-- The client reports a change. -/
theorem Service.Inv.clientChanged (h : s.Inv) (hsession : s.session.isSome = true)
    (hlimit : s.changes.client + 1 < versions) (hopening : s.opening = false) :
    ({ s with changes := { s.changes with client := s.changes.client + 1 } } : Service).Inv := by
  have hkeeps : s.Keeps
      { s with changes := { s.changes with client := s.changes.client + 1 } } := by
    refine ⟨⟨Nat.le_refl _, Nat.le_succ _⟩, rfl, fun hnone => ?_, rfl, fun _ hc => hc⟩
    rw [hnone] at hsession
    cases hsession
  have hext : s.Extends
      { s with changes := { s.changes with client := s.changes.client + 1 } } := by
    refine ⟨hkeeps.changes, le_rfl, rfl, fun _ hs => ⟨rfl, hs⟩, fun _ hnone => ?_⟩
    exact absurd (hopening.symm.trans (hnone hsession)) nofun
  exact ⟨h.service, hlimit, fun current hc => Nat.le_succ_of_le (h.base current hc), h.closed,
    fun cached hc => (h.cache cached hc).keeps hkeeps rfl,
    fun held hh => (h.held held hh).keeps hkeeps fun _ _ hf => hf,
    fun task ht => (h.tasks task ht).extends hext, h.answers⟩

theorem Service.Inv.begin (h : s.Inv) {stopped : Bool}
    (hok : Task.Ok s ⟨s.changes, work⟩) :
    ({ s with stopped := stopped, tasks := s.tasks ++ [⟨s.changes, work⟩] } : Service).Inv := by
  have hsame : s.Same { s with stopped := stopped, tasks := s.tasks ++ [⟨s.changes, work⟩] } :=
    ⟨rfl, rfl, rfl, rfl, rfl, fun _ hc => hc, rfl⟩
  refine h.same hsame (fun ho => ?_) (fun held hh => (h.held held hh).keeps hsame.keeps ?_)
    (fun task ht => ?_) (fun _ ha => Or.inl ha)
  · rw [Service.opening] at ho ⊢
    rw [List.any_append, ho, Bool.true_or]
  · rintro j begun ⟨task, htask, hrest⟩
    exact ⟨task, (List.getElem?_append_left (List.getElem?_eq_some_iff.mp htask).1).trans htask,
      hrest⟩
  · obtain ht | ht := List.mem_append.mp ht
    · exact Or.inl ht
    · rw [List.mem_singleton.mp ht]
      exact Or.inr hok

/-- A lock or a disconnect completes. -/
theorem Service.Inv.complete (h : s.Inv) {epoch : ℕ}
    (hi : s.tasks[i]? = some ⟨start, .returning (.closed epoch)⟩)
    (hall : ∀ task ∈ s.tasks, ∀ snapshot, task.work.unreturned = some snapshot →
      snapshot.unlocked = true → epoch ≤ snapshot.epoch) :
    ({ s.put i start .gone with closed := max s.closed epoch } : Service).Inv := by
  have hmem := List.mem_of_getElem? hi
  have hstart : start ≤ s.changes := (h.tasks _ hmem).start
  have hput : (s.put i start .gone).Inv :=
    h.put hi ⟨hstart, nofun, nofun, nofun, nofun, nofun, nofun, nofun⟩ (Or.inr nofun) nofun
  have hepoch : epoch ≤ s.epoch := (h.tasks _ hmem).epoch epoch rfl
  refine ⟨hput.service, hput.client, hput.base, Nat.max_le.mpr ⟨h.closed, hepoch⟩, ?_, ?_, ?_,
    h.answers⟩
  · exact fun cached hc => (hput.cache cached hc).keeps ⟨le_rfl, rfl, fun _ => rfl, rfl,
      fun _ h => h⟩ rfl
  · exact fun held hh => (hput.held held hh).keeps ⟨le_rfl, rfl, fun _ => rfl, rfl,
      fun _ h => h⟩ fun _ _ hf => hf
  · intro task htask
    obtain ⟨hstart, hmark, hwatch, hbegun, hbehind, hclosed, hepoch, hasleep⟩ :=
      hput.tasks task htask
    refine ⟨hstart, hmark, fun watch hw => ?_, hbegun, hbehind, fun snapshot hs hu => ?_, hepoch,
      hasleep⟩
    · obtain ⟨hservice, hseen, hsome, hnone⟩ := hwatch watch hw
      exact ⟨hservice, hseen, hsome, hnone⟩
    · refine Nat.max_le.mpr ⟨hclosed snapshot hs hu, ?_⟩
      obtain htask | rfl := mem_put htask
      · exact hall task htask snapshot hs hu
      · cases hs

end Session

/-! ### Building a snapshot -/

section Present

variable {s t : Service} {i : ℕ} {start : Changes} {caller : Caller}

/-- The task that holds the session has read a snapshot. -/
theorem Service.Inv.finish (h : s.Inv) (hi : s.tasks[i]? = some ⟨start, .inside caller⟩)
    {snapshot : Snapshot} {expires : ℕ} (hfollows : s.Follows i snapshot.begun)
    (hpast : snapshot.begun ≤ s.changes)
    (hepoch : snapshot.unlocked = true → snapshot.epoch = s.epoch) :
    Task.Ok s ⟨start, .finished caller snapshot expires⟩ := by
  obtain ⟨task, htask, hstart, hwatch⟩ := hfollows
  rw [hi] at htask
  cases htask
  have hok := h.tasks _ (List.mem_of_getElem? hi)
  refine ⟨hok.start, nofun, hok.watch, fun d hd => ?_, fun d watch hd hw => ?_,
    fun d hd hunlocked => ?_, nofun, nofun⟩
  · cases hd
    exact ⟨hstart, hpast⟩
  · cases hd
    exact hwatch watch hw
  · cases hd
    rw [hepoch hunlocked]
    exact h.closed

/-- The versions of the client are compared without coming round. -/
theorem client_eq {begun client base : ℕ} (hbegun : begun < versions) (hclient : client < versions)
    (hb : base ≤ begun) (hc : base ≤ client)
    (h : (begun - base) % versions = (client - base) % versions) : begun = client := by
  rw [Nat.mod_eq_of_lt (by omega), Nat.mod_eq_of_lt (by omega)] at h
  omega

/-- The versions were just read. -/
theorem Service.Inv.read (h : s.Inv) {service : ℕ} (hservice : service ≤ s.changes.service) :
    s.Read ⟨service, s.changes.client⟩ s.clientVersion s.locked := by
  refine ⟨⟨hservice, Nat.le_refl _⟩, rfl, fun _ => rfl, fun current hcurrent => ?_⟩
  refine ⟨h.base current hcurrent, ?_⟩
  rw [Service.clientVersion, hcurrent]

theorem Service.Inv.looking (h : s.Inv) {service : ℕ}
    (hok : Held.Ok s (.reading i service)) :
    Held.Ok s (.looking i ⟨service, s.changes.client⟩ s.clientVersion s.locked) := by
  obtain ⟨hservice, hfollows, hcache⟩ := hok
  refine ⟨h.read hservice, hfollows, fun cached hcached hversion hclient hlocked => ?_⟩
  obtain ⟨hle, hfits⟩ := hcache cached hcached
  have hcok := h.cache cached hcached
  have hbegun := hcok.begun
  have hs := h.service
  have hc := h.client
  have hsame : cached.snapshot.begun.service = service := by
    rw [hcok.version] at hversion
    dsimp only at hversion
    rwa [Nat.mod_eq_of_lt (by omega), Nat.mod_eq_of_lt (by omega)] at hversion
  have hfits := hfits hsame
  have hclients : cached.snapshot.begun.client = s.changes.client := by
    cases hsession : s.session with
    | none => exact hfits.none hlocked hsession
    | some current =>
        obtain ⟨hbase, hcurrent⟩ := hfits.some hlocked current hsession
        rw [hcurrent, Service.clientVersion, hsession] at hclient
        exact client_eq (Nat.lt_of_le_of_lt hbegun.2 hc) hc hbase (h.base current hsession) hclient
  refine ⟨?_, fun hl => hfits.epoch (hlocked.trans hl)⟩
  rw [← hsame, ← hclients]

end Present

/-! ### Unlocks, locks and disconnects -/

section Change

variable {s t : Service} {i : ℕ} {start : Changes} {kind : Lifecycle}

/-- An unlock has shown the session. -/
theorem Service.Inv.shown (h : s.Inv) (hstart : start ≤ s.changes) (opener : Bool)
    (revision : String) :
    Task.Ok s ⟨start,
      .released .unlock opener (.shown ⟨true, revision, s.changes, s.epoch⟩)⟩ := by
  refine ⟨hstart, nofun, nofun, fun d hd => ?_, nofun, fun d hd _ => ?_, nofun, nofun⟩
  · cases hd
    exact ⟨hstart, le_rfl⟩
  · cases hd
    exact h.closed

end Change

/-! ### Steps -/

section Steps

variable {s t : Service} {i : ℕ} {start : Changes} {work : Work}

/-- The task goes on with what it has to return. -/
theorem Task.Ok.next {next : Work} (h : Task.Ok s ⟨start, work⟩) (hmark : next.mark = none)
    (hwatch : next.watch = none) (hshown : next.shown = work.shown)
    (hunreturned : next.unreturned = work.unreturned) (houtcome : next.outcome = work.outcome)
    (hasleep : ∀ wait watch snapshot expires, next ≠ .asleep wait watch snapshot expires) :
    Task.Ok s ⟨start, next⟩ := by
  refine ⟨h.start, fun service hs => ?_, fun watch hw => ?_, fun d hd => ?_,
    fun d watch _ hw => ?_, fun d hd hu => ?_, fun epoch he => ?_,
    fun w x d e hw => absurd hw (hasleep w x d e)⟩
  · exact absurd (hmark.symm.trans hs) nofun
  · exact absurd (hwatch.symm.trans hw) nofun
  · exact h.begun d (hshown.symm.trans hd)
  · exact absurd (hwatch.symm.trans hw) nofun
  · exact h.closed d (hunreturned.symm.trans hd) hu
  · refine h.epoch epoch ?_
    rw [← houtcome]
    exact he

/-- The task goes on with nothing to return. -/
theorem Task.Ok.quiet {next : Work} (h : Task.Ok s ⟨start, work⟩) (hmark : next.mark = none)
    (hwatch : next.watch = none) (hshown : next.shown = none) (hunreturned : next.unreturned = none)
    (houtcome : next.outcome.bind Outcome.epoch = none)
    (hasleep : ∀ wait watch snapshot expires, next ≠ .asleep wait watch snapshot expires) :
    Task.Ok s ⟨start, next⟩ := by
  refine ⟨h.start, fun _ hs => ?_, fun _ hs => ?_, fun _ hs => ?_, fun _ _ hs => ?_,
    fun _ hs => ?_, fun _ hs => ?_, fun w x d e hs => absurd hs (hasleep w x d e)⟩
  · exact absurd (hmark.symm.trans hs) nofun
  · exact absurd (hwatch.symm.trans hs) nofun
  · exact absurd (hshown.symm.trans hs) nofun
  · exact absurd (hshown.symm.trans hs) nofun
  · exact absurd (hunreturned.symm.trans hs) nofun
  · exact absurd (houtcome.symm.trans hs) nofun

end Steps

/-! ### What a service presents -/

/-- What is answered was begun after every change that was complete at the start. -/
def Service.Fresh (s : Service) : Prop :=
  ∀ answer ∈ s.answers, answer.start ≤ answer.snapshot.begun

namespace Sample

def turn : Turn := ⟨true, "opened", none⟩

/-- A waiter sleeps while the client is opened, a request reads the session and returns, the
session is locked, and the waiter is woken. -/
def ordered : List Act :=
  [.begin (.lifecycle .unlock), .work 0 turn, .work 0 turn, .work 0 turn, .work 0 turn,
    .work 0 turn, .begin (.wait "opened" 20000), .work 1 turn, .work 1 turn, .work 1 turn,
    .work 1 turn, .work 1 turn, .work 1 turn, .work 1 turn, .work 1 turn, .clientChanged,
    .begin .snapshot, .work 2 turn, .work 2 turn, .work 2 turn, .work 2 turn, .work 2 turn,
    .work 2 turn, .begin (.lifecycle .lock), .work 3 turn, .work 3 turn, .work 3 turn,
    .work 3 turn, .work 3 turn, .work 3 turn, .work 3 turn, .work 1 turn]

end Sample

end Presentation

end GChat
