import GChat.Host.Paused
import GChat.Host.Steps

/-!
# Steps that keep a preparation

`orderly` leaves out the two orders of steps that open a service past a preparation:
an Unlock that passed its check before it, and a child of the background restore that
was not among the children when they were collected. `Inv` is kept by all other steps.
-/

namespace GChat

namespace Host

open Foundation

/-- The call is ending a preparation, which is over for all other calls. -/
def Task.ends : Task → Bool
  | .ending _ => true
  | .resuming _ _ => true
  | _ => false

/-- The call is about to collect the children. -/
def Task.collects : Task → Bool
  | .collecting _ _ => true
  | _ => false

/-- The call is pausing the children. -/
def Task.pauses : Task → Bool
  | .pausing _ _ _ => true
  | _ => false

namespace InstanceHost

/-- An update is in the state prepared. -/
def Prepared (s : InstanceHost) : Prop :=
  s.prepared.isSome = true ∧ s.task.any Task.ends = false

instance (s : InstanceHost) : Decidable s.Prepared :=
  inferInstanceAs (Decidable (_ ∧ _))

/-- If an update is prepared the running service is quiesced. -/
def PreparedQuiesced (s : InstanceHost) : Prop :=
  s.Prepared → ∀ svc, s.running = some svc → svc.Quiesced

/-- No Unlock starts to open a service while an update is prepared, the background restore
opens no child while one is prepared or the children are being paused, and none is being
opened by it when the children are collected. -/
def orderly (s : InstanceHost) : Event → Bool
  | .unlockLocked => !decide s.Prepared || s.running.isSome
  | .work (.restore _) => !decide s.Prepared && !s.task.any Task.pauses
  | .advance _ =>
      !s.task.any Task.collects || s.running.all fun svc => svc.opening.all (·.joining)
  | _ => true

end InstanceHost

/-! ### The invariant -/

/-- The call holds the lock of the running service. -/
def Task.holds : Task → Bool
  | .resuming _ _ => true
  | .collecting _ _ => true
  | .pausing _ _ _ => true
  | .undoing _ _ => true
  | _ => false

/-- The call is preparing an update. -/
def Task.prepares : Task → Bool
  | .collecting _ _ => true
  | .pausing _ _ _ => true
  | .undoing _ _ => true
  | _ => false

namespace InstanceHost

/-- The children that are not paused yet, while the service is. -/
def remaining (s : InstanceHost) : Option (List String) :=
  match s.task with
  | some (.pausing _ _ names) => some names
  | task => if s.prepared.isSome && !task.any Task.ends then some [] else none

structure Inv (s : InstanceHost) : Prop where
  holder : s.task.any Task.holds = true → s.lifecycle = .updating
  unprepared : s.task.any Task.prepares = true → s.prepared = none
  guarded : ∀ svc, s.running = some svc → svc.Guarded
  opening : ∀ svc, s.lifecycle = .opening svc → svc.Guarded
  collecting : ∀ view release svc, s.task = some (.collecting view release) →
    s.running = some svc → svc.gate.Quiesced
  paused : ∀ names, s.remaining = some names →
    (∀ svc, s.lifecycle ≠ .opening svc) ∧ ∀ svc, s.running = some svc → svc.PausedBut names

variable {config : Config} {s t : InstanceHost} {outside : Outside}

theorem remaining_cases {names : List String} (h : s.remaining = some names) :
    (s.Prepared ∧ names = []) ∨ ∃ view release, s.task = some (.pausing view release names) := by
  unfold remaining at h
  split at h
  case h_1 view release names' htask =>
    cases h
    exact Or.inr ⟨view, release, htask⟩
  case h_2 =>
    split at h
    case isTrue hcheck =>
      cases h
      simp only [Bool.and_eq_true, Bool.not_eq_true'] at hcheck
      exact Or.inl ⟨hcheck, rfl⟩
    case isFalse => cases h

theorem remaining_of_prepares (h : s.prepared = none)
    (htask : ∀ view release names, s.task ≠ some (.pausing view release names)) :
    s.remaining = none := by
  unfold remaining
  split
  case h_1 view release names heq => exact absurd heq (htask view release names)
  case h_2 => simp [h]

theorem Inv.prepared (h : s.Inv) (hprepared : s.Prepared) : s.remaining = some [] := by
  unfold remaining
  split
  case h_1 view release names htask =>
    have hnone := h.unprepared (by rw [htask]; rfl)
    rw [Prepared, hnone] at hprepared
    cases hprepared.1
  case h_2 => simp [hprepared.1, hprepared.2]

theorem Inv.preparedQuiesced (h : s.Inv) : s.PreparedQuiesced := by
  intro hprepared svc hsvc
  exact ((h.paused [] (h.prepared hprepared)).2 svc hsvc).quiesced

/-- A call goes on without the services. -/
theorem Inv.retask (h : s.Inv) (hrunning : t.running = s.running)
    (hlifecycle : t.lifecycle = s.lifecycle)
    (hholds : t.task.any Task.holds = true → s.task.any Task.holds = true)
    (hprepares : t.task.any Task.prepares = true → t.prepared = none)
    (hcollecting : ∀ view release, t.task = some (.collecting view release) →
      s.task = some (.collecting view release))
    (hremaining : ∀ names, t.remaining = some names → s.remaining = some names) : t.Inv where
  holder htask := hlifecycle.trans (h.holder (hholds htask))
  unprepared := hprepares
  guarded svc hsvc := h.guarded svc (hrunning ▸ hsvc)
  opening svc hsvc := h.opening svc (hlifecycle ▸ hsvc)
  collecting view release svc htask hsvc :=
    h.collecting view release svc (hcollecting view release htask) (hrunning ▸ hsvc)
  paused names hnames := by
    rw [hlifecycle, hrunning]
    exact h.paused names (hremaining names hnames)

/-! ### Steps of the update calls -/

/-- Without a preparation, and with no call that is preparing one, nothing is paused. -/
theorem Inv.of_unprepared (hprepared : s.prepared = none)
    (htask : s.task.any Task.prepares = false)
    (hholder : s.task.any Task.holds = true → s.lifecycle = .updating)
    (hguarded : ∀ svc, s.running = some svc → svc.Guarded)
    (hopening : ∀ svc, s.lifecycle = .opening svc → svc.Guarded) : s.Inv where
  holder := hholder
  unprepared _ := hprepared
  guarded := hguarded
  opening := hopening
  collecting view release svc heq _ := by
    rw [heq] at htask
    cases htask
  paused names hnames := by
    have hnone : s.remaining = none := by
      apply remaining_of_prepares hprepared
      intro view release names heq
      rw [heq] at htask
      cases htask
    rw [hnone] at hnames
    cases hnames

/-- The preparation is over, and the call goes on or ends. -/
theorem Inv.ended (hguarded : ∀ svc, s.running = some svc → svc.Guarded)
    (hfree : s.lifecycle = .free) (after : After) : (s.ended after).1.Inv := by
  have hopening : ∀ svc, s.lifecycle = .opening svc → svc.Guarded := by
    intro svc hsvc
    rw [hfree] at hsvc
    cases hsvc
  cases after with
  | handle request =>
      exact Inv.of_unprepared rfl rfl (fun hholds => by cases hholds) hguarded hopening
  | detach view =>
      exact Inv.of_unprepared rfl rfl (fun hholds => by cases hholds) hguarded hopening
  | done => exact Inv.of_unprepared rfl rfl (fun hholds => by cases hholds) hguarded hopening

/-- A call that has changed nothing ends, or waits for the lock of the running service. -/
theorem Inv.plain (h : s.Inv) (hreads : s.remaining = if s.prepared.isSome then some [] else none)
    (hprepared : t.prepared = s.prepared) (hrunning : t.running = s.running)
    (hlifecycle : t.lifecycle = s.lifecycle) (htask : t.task = none ∨ t.Reads ∨
      ∃ after, t.task = some (.ending after)) : t.Inv := by
  have hnot : t.task.any Task.holds = false ∧ t.task.any Task.prepares = false ∧
      (∀ view release, t.task ≠ some (.collecting view release)) ∧
      ∀ view release names, t.task ≠ some (.pausing view release names) := by
    obtain heq | (⟨request, heq⟩ | ⟨view, release, heq⟩) | ⟨after, heq⟩ := htask
    all_goals simp [heq, Task.holds, Task.prepares]
  apply h.retask hrunning hlifecycle
  · intro hholds
    rw [hnot.1] at hholds
    cases hholds
  · intro hprepares
    rw [hnot.2.1] at hprepares
    cases hprepares
  · intro view release hcollecting
    exact absurd hcollecting (hnot.2.2.1 view release)
  · intro names hnames
    obtain ⟨hsome, rfl⟩ | ⟨view, release, hpausing⟩ := remaining_cases hnames
    · rw [hreads, ← hprepared, if_pos hsome.1]
    · exact absurd hpausing (hnot.2.2.2 view release names)

/-- A call that holds the lock of the running service works on its gates; with children
left to pause the rest of the service is paused. -/
theorem Inv.gates {svc : Service} {task : Task} (hrunning : t.running = some svc)
    (hguarded : svc.Guarded) (hlifecycle : t.lifecycle = .updating) (htask : t.task = some task)
    (hends : task.ends = true ∨ t.prepared = none)
    (hprepares : task.prepares = true → t.prepared = none)
    (hcollecting : ∀ view release, task = .collecting view release → svc.gate.Quiesced)
    (hpausing : ∀ view release names, task = .pausing view release names →
      svc.PausedBut names) : t.Inv where
  holder _ := hlifecycle
  unprepared := by
    rw [htask]
    exact hprepares
  guarded d hd := by
    rw [hrunning] at hd
    cases hd
    exact hguarded
  opening d hd := by
    rw [hlifecycle] at hd
    cases hd
  collecting view release d heq hd := by
    rw [htask] at heq
    rw [hrunning] at hd
    cases hd
    exact hcollecting view release (Option.some.inj heq)
  paused names hnames := by
    obtain ⟨hprepared, -⟩ | ⟨view, release, heq⟩ := remaining_cases hnames
    · rw [Prepared, htask, Option.any_some] at hprepared
      obtain hends | hnone := hends
      · rw [hends] at hprepared
        cases hprepared.2
      · rw [hnone] at hprepared
        cases hprepared.1
    · rw [htask] at heq
      constructor
      · intro d hd
        rw [hlifecycle] at hd
        cases hd
      · intro d hd
        rw [hrunning] at hd
        cases hd
        exact hpausing view release names (Option.some.inj heq)

/-- The children are resumed one by one, at the end of a preparation or of an attempt. -/
theorem Inv.resumes {svc : Service} {task : Task} (hrunning : t.running = some svc)
    (hguarded : svc.Guarded) (hlifecycle : t.lifecycle = .updating) (htask : t.task = some task)
    (hresumes : (∃ after names, task = .resuming after names) ∨
      (t.prepared = none ∧ ∃ names reason, task = .undoing names reason)) : t.Inv := by
  obtain ⟨after, names, rfl⟩ | ⟨hnone, names, reason, rfl⟩ := hresumes
  · exact Inv.gates hrunning hguarded hlifecycle htask (Or.inl rfl) (fun hp => by cases hp)
      (fun _ _ heq => by cases heq) (fun _ _ _ heq => by cases heq)
  · exact Inv.gates hrunning hguarded hlifecycle htask (Or.inr hnone) (fun _ => hnone)
      (fun _ _ heq => by cases heq) (fun _ _ _ heq => by cases heq)

theorem Reads.remaining (h : s.Reads) :
    s.remaining = if s.prepared.isSome then some [] else none := by
  obtain ⟨request, htask⟩ | ⟨view, release, htask⟩ := h
  · simp [InstanceHost.remaining, htask, Task.ends]
  · simp [InstanceHost.remaining, htask, Task.ends]

theorem Inv.advance (h : s.Inv) (ho : s.orderly (.advance outside) = true)
    (hstep : s.Advance t) : t.Inv := by
  cases hstep with
  | answered hreads => exact h.plain hreads.remaining rfl rfl rfl (Or.inl rfl)
  | ends hends =>
      have hreads := endsNow_reads hends
      exact h.plain hreads.remaining rfl rfl rfl (Or.inr (Or.inr ⟨_, rfl⟩))
  | exits htask =>
      have hreads : s.Reads := Or.inl ⟨_, htask⟩
      exact h.plain hreads.remaining rfl rfl rfl (Or.inr (Or.inl (Or.inr ⟨_, _, rfl⟩)))
  | grants htask =>
      have hreads : s.Reads := Or.inr ⟨_, _, htask⟩
      exact h.plain hreads.remaining rfl rfl rfl (Or.inl rfl)
  | prepares hprepared hfree hrunning =>
      constructor
      · intro hholds
        cases hholds
      · intro hprepares
        cases hprepares
      · exact h.guarded
      · exact h.opening
      · intro _ _ _ hcollecting
        cases hcollecting
      · intro names _
        constructor
        · intro svc hsvc
          rw [hfree] at hsvc
          cases hsvc
        · intro svc hsvc
          rw [hrunning] at hsvc
          cases hsvc
  | @pauses view release svc g hprepared hfree hrunning hpause =>
      have hguarded : Service.Guarded { svc with gate := g } := by
        have hold := h.guarded svc hrunning
        rwa [Service.Guarded, ← Gate.pause_requests hpause] at hold
      exact Inv.gates rfl hguarded rfl rfl (Or.inr hprepared) (fun _ => hprepared)
        (fun _ _ _ => Gate.quiesced_of_pause hpause) (fun _ _ _ heq => by cases heq)
  | ended _ hfree => exact Inv.ended h.guarded hfree _
  | resumes htask hfree hrunning =>
      exact Inv.resumes hrunning (h.guarded _ hrunning) rfl rfl (Or.inl ⟨_, _, rfl⟩)
  | @resumesChild after name names svc htask hrunning =>
      have hholds := h.holder (by rw [htask]; rfl)
      exact Inv.resumes rfl ((h.guarded svc hrunning).childResumed name) hholds rfl
        (Or.inl ⟨_, _, rfl⟩)
  | @resumed after svc htask hrunning =>
      apply Inv.ended _ rfl
      intro d hd
      cases hd
      exact h.guarded svc hrunning
  | @collects view release svc htask hrunning =>
      have hholds := h.holder (by rw [htask]; rfl)
      have hnone := h.unprepared (by rw [htask]; rfl)
      have hgate := h.collecting view release svc htask hrunning
      -- a restore is opening no child now, and a request could not be while it is paused
      have hopening := (h.guarded svc hrunning).opening hgate
        (fun o hopening => by simpa [orderly, htask, Task.collects, hrunning, hopening] using ho)
      have hpaused := Service.PausedBut.collected hgate hopening
      exact Inv.gates hrunning (h.guarded svc hrunning) hholds rfl (Or.inr hnone)
        (fun _ => hnone) (fun _ _ _ => hgate) (fun _ _ names heq => by cases heq; exact hpaused)
  | @fails view release reason names svc htask hrunning =>
      have hholds := h.holder (by rw [htask]; rfl)
      have hnone := h.unprepared (by rw [htask]; rfl)
      exact Inv.resumes hrunning (h.guarded svc hrunning) hholds rfl (Or.inr ⟨hnone, _, _, rfl⟩)
  | @pausesChild view release name names svc svc' htask hrunning hpause =>
      have hholds := h.holder (by rw [htask]; rfl)
      have hnone := h.unprepared (by rw [htask]; rfl)
      have hold := (h.paused (name :: names) (by simp [remaining, htask])).2 svc hrunning
      have hpaused := hold.child hpause
      exact Inv.gates rfl ((h.guarded svc hrunning).childPaused hpause) hholds rfl (Or.inr hnone)
        (fun _ => hnone) (fun _ _ heq => by cases heq)
        (fun _ _ left heq => by cases heq; exact hpaused)
  | @paused view release svc htask hrunning =>
      have hpaused := (h.paused [] (by simp [remaining, htask])).2
      constructor
      · intro hheld
        cases hheld
      · intro hprepares
        cases hprepares
      · exact h.guarded
      · intro d hd
        cases hd
      · intro _ _ _ hcollecting
        cases hcollecting
      · intro left hleft
        cases hleft
        constructor
        · intro d hd
          cases hd
        · exact hpaused
  | @undoesChild name reason names svc htask hrunning =>
      have hholds := h.holder (by rw [htask]; rfl)
      have hnone := h.unprepared (by rw [htask]; rfl)
      exact Inv.resumes rfl ((h.guarded svc hrunning).childResumed name) hholds rfl
        (Or.inr ⟨hnone, _, _, rfl⟩)
  | @undone reason svc htask hrunning =>
      apply Inv.of_unprepared
      · exact h.unprepared (by rw [htask]; rfl)
      · rfl
      · intro hheld
        cases hheld
      · intro d hd
        cases hd
        exact h.guarded svc hrunning
      · intro d hd
        cases hd

/-- A call has got the lock of the maintenance state. -/
theorem Inv.update (h : s.Inv) (htask : s.task.isNone = true) (request : UpdateRequest)
    (now : ℕ) : (s.update config request now).1.Inv := by
  have hremaining : s.remaining = if s.prepared.isSome then some [] else none := by
    simp [remaining, Option.isNone_iff_eq_none.mp htask]
  unfold InstanceHost.update
  split
  · exact h
  · split
    · exact h.plain hremaining rfl rfl rfl (Or.inr (Or.inr ⟨_, rfl⟩))
    · exact h.plain hremaining rfl rfl rfl (Or.inr (Or.inl (Or.inl ⟨_, rfl⟩)))

/-! ### All steps -/

/-- Another call than an update call takes, holds or releases the lock of the running
service. -/
theorem Inv.lock (h : s.Inv) (hlifecycle : s.lifecycle ≠ .updating) {l : Lifecycle}
    {running : Option Service} (checked : ℕ)
    (hopening : ∀ svc, l = .opening svc → svc.Guarded ∧ s.remaining = none)
    (hrunning : ∀ svc, running = some svc →
      s.running = some svc ∨ (svc.Guarded ∧ s.remaining = none)) :
    ({ s with lifecycle := l, running := running, checked := checked } : InstanceHost).Inv where
  holder htask := absurd (h.holder htask) hlifecycle
  unprepared := h.unprepared
  guarded svc hsvc := by
    obtain hold | hnew := hrunning svc hsvc
    · exact h.guarded svc hold
    · exact hnew.1
  opening svc hsvc := (hopening svc hsvc).1
  collecting view release svc htask _ := by
    change s.task = some (.collecting view release) at htask
    exact absurd (h.holder (by rw [htask]; rfl)) hlifecycle
  paused names hnames := by
    have hremaining : s.remaining = some names := hnames
    constructor
    · intro svc hsvc
      rw [(hopening svc hsvc).2] at hremaining
      cases hremaining
    · intro svc hsvc
      obtain hold | hnew := hrunning svc hsvc
      · exact (h.paused names hremaining).2 svc hold
      · rw [hnew.2] at hremaining
        cases hremaining

/-- The requests and workers of the running service take a step. -/
theorem Inv.work {w : Work} {svc svc' : Service} (h : s.Inv) (ho : s.orderly (.work w) = true)
    (hrunning : s.running = some svc) (hwork : svc.work w = some svc') :
    ({ s with running := some svc' } : InstanceHost).Inv where
  holder := h.holder
  unprepared := h.unprepared
  guarded d hd := by
    cases hd
    exact (h.guarded svc hrunning).work hwork
  opening := h.opening
  collecting view release d htask hd := by
    cases hd
    have hgate := h.collecting view release svc htask hrunning
    rwa [Service.gate_work hgate hwork]
  paused names hnames := by
    have hremaining : s.remaining = some names := hnames
    refine ⟨(h.paused names hremaining).1, ?_⟩
    intro d hd
    cases hd
    apply ((h.paused names hremaining).2 svc hrunning).work _ hwork
    intro name hrestore
    subst hrestore
    obtain ⟨hprepared, -⟩ | ⟨view, release, htask⟩ := remaining_cases hremaining
    · simp [orderly, hprepared] at ho
    · simp [orderly, htask, Task.pauses] at ho

theorem Inv.step {e : Event} (h : s.Inv) (ho : s.orderly e = true)
    (hstep : s.step config e = some t) : t.Inv := by
  cases e with
  | unlock =>
      simp only [InstanceHost.step] at hstep
      split at hstep
      · cases hstep
        split
        · exact h
        · exact h.retask rfl rfl (fun hholds => hholds) h.unprepared (fun _ _ heq => heq)
            (fun _ heq => heq)
      · cases hstep
  | unlockLocked =>
      simp only [InstanceHost.step] at hstep
      split at hstep
      case h_1 n hfree _ =>
        cases hstep
        apply h.lock (by rw [hfree]; exact Lifecycle.noConfusion) n
        · intro svc hsvc
          split at hsvc
          · cases hsvc
          case isFalse hnone =>
            cases hsvc
            refine ⟨Service.Guarded.new, ?_⟩
            cases hremaining : s.remaining with
            | none => rfl
            | some names =>
                obtain ⟨hprepared, -⟩ | ⟨view, release, htask⟩ := remaining_cases hremaining
                · exact absurd (by simpa [orderly, hprepared] using ho) hnone
                · have hholds := h.holder (by rw [htask]; rfl)
                  rw [hfree] at hholds
                  cases hholds
        · exact fun svc hsvc => Or.inl hsvc
      case h_2 => cases hstep
  | unlocked success =>
      simp only [InstanceHost.step] at hstep
      split at hstep
      case h_1 svc hopening =>
        cases hstep
        have hremaining : s.remaining = none := by
          cases hnames : s.remaining with
          | none => rfl
          | some names => exact absurd hopening ((h.paused names hnames).1 svc)
        apply h.lock (by rw [hopening]; exact Lifecycle.noConfusion) s.checked
        · intro d hd
          cases hd
        · intro d hd
          split at hd
          · cases hd
            exact Or.inr ⟨h.opening svc hopening, hremaining⟩
          · exact Or.inl hd
      case h_2 => cases hstep
  | disconnect =>
      simp only [InstanceHost.step] at hstep
      split at hstep
      case h_1 hfree =>
        cases hstep
        exact h.lock (by rw [hfree]; exact Lifecycle.noConfusion) s.checked
          (fun d hd => by cases hd) (fun d hd => by cases hd)
      case h_2 => cases hstep
  | disconnected =>
      simp only [InstanceHost.step] at hstep
      split at hstep
      case h_1 hstopping =>
        cases hstep
        exact h.lock (by rw [hstopping]; exact Lifecycle.noConfusion) s.checked
          (fun d hd => by cases hd) (fun d hd => Or.inl hd)
      case h_2 => cases hstep
  | dispatch =>
      simp only [InstanceHost.step] at hstep
      split at hstep
      case h_1 hfree =>
        cases hstep
        exact h.lock (by rw [hfree]; exact Lifecycle.noConfusion) s.checked
          (fun d hd => by cases hd) (fun d hd => Or.inl hd)
      case h_2 => cases hstep
  | dispatched =>
      simp only [InstanceHost.step] at hstep
      split at hstep
      case h_1 hdispatching =>
        cases hstep
        exact h.lock (by rw [hdispatching]; exact Lifecycle.noConfusion) s.checked
          (fun d hd => by cases hd) (fun d hd => Or.inl hd)
      case h_2 => cases hstep
  | work w =>
      simp only [InstanceHost.step] at hstep
      split at hstep
      case h_1 svc hrunning =>
        obtain ⟨svc', hwork, rfl⟩ := Option.map_eq_some_iff.mp hstep
        exact h.work ho hrunning hwork
      case h_2 => cases hstep
  | openingWork w =>
      simp only [InstanceHost.step] at hstep
      split at hstep
      case h_1 svc hopening =>
        obtain ⟨svc', hwork, rfl⟩ := Option.map_eq_some_iff.mp hstep
        apply h.lock (by rw [hopening]; exact Lifecycle.noConfusion) s.checked
        · intro d hd
          cases hd
          refine ⟨(h.opening svc hopening).work hwork, ?_⟩
          cases hnames : s.remaining with
          | none => rfl
          | some names => exact absurd hopening ((h.paused names hnames).1 svc)
        · exact fun d hd => Or.inl hd
      case h_2 => cases hstep
  | update request now =>
      simp only [InstanceHost.step] at hstep
      split at hstep
      case isTrue hfree =>
        cases hstep
        exact h.update hfree request now
      case isFalse => cases hstep
  | advance outside =>
      obtain ⟨⟨u, r⟩, hadvance, rfl⟩ := Option.map_eq_some_iff.mp hstep
      exact h.advance ho (advance_cases hadvance)
  | signal owner =>
      simp only [InstanceHost.step] at hstep
      split at hstep
      · cases hstep
        exact h.retask rfl rfl (fun hholds => hholds) h.unprepared (fun _ _ heq => heq)
          (fun _ heq => heq)
      · cases hstep

theorem inv_new : InstanceHost.new.Inv :=
  Inv.of_unprepared rfl rfl (fun hholds => by cases hholds) (fun _ hsvc => by cases hsvc)
    (fun _ hsvc => by cases hsvc)

end InstanceHost

end Host

end GChat
