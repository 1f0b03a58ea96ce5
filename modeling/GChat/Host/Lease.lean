import GChat.Host.Quiesced

/-!
# Leases that have expired

A view that prepares an update holds a lease of 45 seconds, which its heartbeats renew.
That the lease of a preparation has expired is noticed by the next update call, which
resumes the service and forgets the preparation. The check of an Unlock and the gates of
the services do not look at the time: they refuse as long as no update call comes.
-/

namespace GChat

namespace Host

open Foundation

/-! ### Gates that are not paused -/

theorem Gate.work_paused {g g' : Gate} {held : ℕ} {w : GateWork}
    (hwork : g.work held w = some g') : g'.paused = g.paused := by
  cases w with
  | enter =>
      have henter := toOption_eq_some.mp hwork
      simp only [Gate.enter, bind_eq_ok, pure_eq_ok] at henter
      obtain ⟨_, -, rfl⟩ := henter
      rfl
  | leave =>
      simp only [Gate.work] at hwork
      split at hwork
      · cases hwork
        rfl
      · cases hwork
  | admitted id =>
      simp only [Gate.work] at hwork
      split at hwork
      · cases hwork
        rfl
      · cases hwork
  | completed id =>
      cases hwork
      rfl

theorem Gate.enter_of_not_paused {g : Gate} (h : g.paused = false) :
    ∃ g', g.enter = .ok g' := by
  simp [Gate.enter, refuse, h, bind, Except.bind, pure, Except.pure]

namespace Service

variable {svc svc' : Service} {w : Work} {names : List String} {name : String}

/-- No child is paused but for some. -/
structure OpenBut (names : List String) (svc : Service) : Prop where
  opening : ∀ o, svc.opening = some o → o.gate.paused = false
  networks : ∀ (name : String) (g : Gate), svc.networks[name]? = some g →
    name ∈ names ∨ g.paused = false

/-- No gate of the service is paused. -/
structure Open (svc : Service) : Prop where
  gate : svc.gate.paused = false
  children : svc.OpenBut []

theorem OpenBut.weaken (h : svc.OpenBut []) : svc.OpenBut names where
  opening := h.opening
  networks name g hg := Or.inr ((h.networks name g hg).resolve_left List.not_mem_nil)

theorem Open.new : Service.new.Open where
  gate := rfl
  children :=
    { opening := fun o ho => by cases ho
      networks := fun _ _ hg => by
        rw [Service.new, Std.ExtTreeMap.getElem?_empty] at hg
        cases hg }

/-- All children may be paused. -/
theorem OpenBut.keys (h : ∀ o, svc.opening = some o → o.gate.paused = false) :
    svc.OpenBut svc.networks.keys where
  opening := h
  networks _ _ hg := Or.inl (Std.ExtTreeMap.mem_keys.mpr (StringMap.mem_of_get hg))

theorem OpenBut.childResumed (h : svc.OpenBut (name :: names)) :
    (svc.childResumed name).OpenBut names := by
  unfold Service.childResumed
  split
  case h_1 g hg =>
    refine ⟨h.opening, ?_⟩
    intro a b hb
    simp only [StringMap.get_insert] at hb
    split at hb
    case isTrue =>
      cases hb
      exact Or.inr rfl
    case isFalse hne =>
      obtain hmem | hopen := h.networks a b hb
      · exact Or.inl ((List.mem_cons.mp hmem).resolve_left fun heq => hne heq.symm)
      · exact Or.inr hopen
  case h_2 hnone =>
    refine ⟨h.opening, ?_⟩
    intro a b hb
    obtain hmem | hopen := h.networks a b hb
    · obtain rfl | hmem := List.mem_cons.mp hmem
      · rw [hnone] at hb
        cases hb
      · exact Or.inl hmem
    · exact Or.inr hopen

theorem childResumed_opening (svc : Service) (name : String) :
    (svc.childResumed name).opening = svc.opening := by
  unfold Service.childResumed
  split
  · rfl
  · rfl

theorem childResumed_gate (svc : Service) (name : String) :
    (svc.childResumed name).gate = svc.gate := by
  unfold Service.childResumed
  split
  · rfl
  · rfl

theorem childPaused_opening (hpause : svc.childPaused name = .ok svc') :
    svc'.opening = svc.opening := by
  unfold Service.childPaused at hpause
  split at hpause
  · obtain ⟨g, -, rfl⟩ := map_eq_ok.mp hpause
    rfl
  · cases hpause
    rfl

theorem Open.childResumed (h : svc.Open) (name : String) : (svc.childResumed name).Open where
  gate := by rw [childResumed_gate, h.gate]
  children := by
    have hbut : svc.OpenBut [name] := h.children.weaken
    exact hbut.childResumed

theorem OpenBut.work (h : svc.OpenBut names) (hwork : svc.work w = some svc') :
    svc'.OpenBut names := by
  cases w with
  | own w =>
      obtain ⟨g, -, rfl⟩ := Option.map_eq_some_iff.mp hwork
      exact ⟨h.opening, h.networks⟩
  | child name w =>
      simp only [Service.work] at hwork
      split at hwork
      case h_1 g hg =>
        obtain ⟨g', hg', rfl⟩ := Option.map_eq_some_iff.mp hwork
        refine ⟨h.opening, ?_⟩
        intro a b hb
        simp only [StringMap.get_insert] at hb
        split at hb
        case isTrue heq =>
          cases hb
          subst heq
          rw [Gate.work_paused hg']
          exact h.networks name g hg
        case isFalse => exact h.networks a b hb
      case h_2 => cases hwork
  | opened w =>
      simp only [Service.work] at hwork
      split at hwork
      case h_1 o ho =>
        obtain ⟨g, hg, rfl⟩ := Option.map_eq_some_iff.mp hwork
        refine ⟨?_, h.networks⟩
        intro d hd
        cases hd
        exact (Gate.work_paused hg).trans (h.opening o ho)
      case h_2 => cases hwork
  | restore name =>
      simp only [Service.work] at hwork
      split at hwork
      · cases hwork
        refine ⟨?_, h.networks⟩
        intro o ho
        cases ho
        rfl
      · cases hwork
  | join name =>
      simp only [Service.work] at hwork
      split at hwork
      · cases hwork
        refine ⟨?_, h.networks⟩
        intro o ho
        cases ho
        rfl
      · cases hwork
  | publish =>
      obtain ⟨o, ho, rfl⟩ := Option.map_eq_some_iff.mp hwork
      refine ⟨?_, ?_⟩
      · intro d hd
        cases hd
      intro a b hb
      simp only [StringMap.get_insert] at hb
      split at hb
      · cases hb
        exact Or.inr (h.opening o ho)
      · exact h.networks a b hb
  | abandon =>
      obtain ⟨o, -, rfl⟩ := Option.map_eq_some_iff.mp hwork
      refine ⟨?_, h.networks⟩
      intro d hd
      cases hd

theorem work_gate_paused (hwork : svc.work w = some svc') :
    svc'.gate.paused = svc.gate.paused := by
  cases w with
  | own w =>
      obtain ⟨g, hg, rfl⟩ := Option.map_eq_some_iff.mp hwork
      exact Gate.work_paused hg
  | child name w =>
      simp only [Service.work] at hwork
      split at hwork
      · obtain ⟨g, -, rfl⟩ := Option.map_eq_some_iff.mp hwork
        rfl
      · cases hwork
  | opened w =>
      simp only [Service.work] at hwork
      split at hwork
      · obtain ⟨g, -, rfl⟩ := Option.map_eq_some_iff.mp hwork
        rfl
      · cases hwork
  | restore name =>
      simp only [Service.work] at hwork
      split at hwork
      · cases hwork
        rfl
      · cases hwork
  | join name =>
      simp only [Service.work] at hwork
      split at hwork
      · cases hwork
        rfl
      · cases hwork
  | publish =>
      obtain ⟨o, -, rfl⟩ := Option.map_eq_some_iff.mp hwork
      rfl
  | abandon =>
      obtain ⟨o, -, rfl⟩ := Option.map_eq_some_iff.mp hwork
      rfl

theorem Open.work (h : svc.Open) (hwork : svc.work w = some svc') : svc'.Open where
  gate := (work_gate_paused hwork).trans h.gate
  children := h.children.work hwork

end Service

/-! ### What update calls leave paused -/

namespace InstanceHost

variable {config : Config} {s t : InstanceHost} {outside : Outside}

/-- The children a call has still to resume, where it is resuming them. -/
def unresumed (s : InstanceHost) : Option (List String) :=
  match s.task with
  | some (.resuming _ names) => some names
  | some (.undoing names _) => some names
  | _ => none

/-- No preparation is recorded, and no call is preparing one. -/
structure Cleared (s : InstanceHost) : Prop where
  prepared : s.prepared = none
  task : s.task.any Task.prepares = false

/-- Without a preparation nothing is paused, whatever the steps before. -/
structure Resumed (s : InstanceHost) : Prop where
  holder : s.task.any Task.holds = true → s.lifecycle = .updating
  starting : ∀ svc, s.lifecycle = .opening svc → svc.Open
  opening : ∀ svc, s.running = some svc → ∀ o, svc.opening = some o → o.gate.paused = false
  unresumed : ∀ names svc, s.unresumed = some names → s.running = some svc → svc.OpenBut names
  cleared : s.Cleared → ∀ svc, s.running = some svc → svc.Open

/-- A call goes on, or ends, without touching the services. -/
theorem Resumed.plain (h : s.Resumed) (htask : s.task.any Task.prepares = false)
    (hrunning : t.running = s.running) (hlifecycle : t.lifecycle = s.lifecycle)
    (hprepared : t.prepared = none → s.prepared = none)
    (hholds : t.task.any Task.holds = false) (hunresumed : t.unresumed = none) : t.Resumed where
  holder heq := by
    rw [hholds] at heq
    cases heq
  starting svc hsvc := h.starting svc (hlifecycle ▸ hsvc)
  opening svc hsvc := h.opening svc (hrunning ▸ hsvc)
  unresumed names svc hnames _ := by
    rw [hunresumed] at hnames
    cases hnames
  cleared hcleared svc hsvc :=
    h.cleared ⟨hprepared hcleared.prepared, htask⟩ svc (hrunning ▸ hsvc)

/-- A call that holds the lock of the running service works on its gates. -/
theorem Resumed.gates {svc : Service} {task : Task} (hrunning : t.running = some svc)
    (hlifecycle : t.lifecycle = .updating) (htask : t.task = some task)
    (hopening : ∀ o, svc.opening = some o → o.gate.paused = false)
    (hunresumed : ∀ names, t.unresumed = some names → svc.OpenBut names)
    (hcleared : task.prepares = false → t.prepared = none → svc.Open) : t.Resumed where
  holder _ := hlifecycle
  starting d hd := by
    rw [hlifecycle] at hd
    cases hd
  opening d hd := by
    rw [hrunning] at hd
    cases hd
    exact hopening
  unresumed names d hnames hd := by
    rw [hrunning] at hd
    cases hd
    exact hunresumed names hnames
  cleared hc d hd := by
    rw [hrunning] at hd
    cases hd
    have hprepares := hc.task
    rw [htask, Option.any_some] at hprepares
    exact hcleared hprepares hc.prepared

/-- A call has released the lock of the running service. -/
theorem Resumed.released (hfree : t.lifecycle = .free) (hholds : t.task.any Task.holds = false)
    (hunresumed : t.unresumed = none)
    (hopening : ∀ svc, t.running = some svc → ∀ o, svc.opening = some o → o.gate.paused = false)
    (hcleared : t.prepared = none → ∀ svc, t.running = some svc → svc.Open) : t.Resumed where
  holder heq := by
    rw [hholds] at heq
    cases heq
  starting d hd := by
    rw [hfree] at hd
    cases hd
  opening := hopening
  unresumed names d hnames _ := by
    rw [hunresumed] at hnames
    cases hnames
  cleared hc := hcleared hc.prepared

theorem Resumed.ended (hfree : s.lifecycle = .free)
    (hopen : ∀ svc, s.running = some svc → svc.Open) (after : After) :
    (s.ended after).1.Resumed := by
  have hopening : ∀ svc, s.running = some svc → ∀ o, svc.opening = some o →
      o.gate.paused = false := fun svc hsvc => (hopen svc hsvc).children.opening
  cases after with
  | handle request => exact Resumed.released hfree rfl rfl hopening fun _ => hopen
  | detach view => exact Resumed.released hfree rfl rfl hopening fun _ => hopen
  | done => exact Resumed.released hfree rfl rfl hopening fun _ => hopen

theorem Reads.not_prepares (h : s.Reads) : s.task.any Task.prepares = false := by
  obtain ⟨request, htask⟩ | ⟨view, release, htask⟩ := h
  · simp [htask, Task.prepares]
  · simp [htask, Task.prepares]

theorem Resumed.advance (h : s.Resumed) (hstep : s.Advance t) : t.Resumed := by
  cases hstep with
  | answered hreads => exact h.plain hreads.not_prepares rfl rfl id rfl rfl
  | ends hends => exact h.plain (endsNow_reads hends).not_prepares rfl rfl id rfl rfl
  | exits htask =>
      have hreads : s.Reads := Or.inl ⟨_, htask⟩
      exact h.plain hreads.not_prepares rfl rfl id rfl rfl
  | grants htask =>
      have hreads : s.Reads := Or.inr ⟨_, _, htask⟩
      exact h.plain hreads.not_prepares rfl rfl id rfl rfl
  | prepares hprepared hfree hrunning =>
      exact Resumed.released hfree rfl rfl h.opening fun hnone => by cases hnone
  | @pauses view release svc g hprepared hfree hrunning hpause =>
      exact Resumed.gates rfl rfl rfl (h.opening svc hrunning) (fun _ hnames => by cases hnames)
        (fun hprepares => by cases hprepares)
  | ended _ hfree hrunning =>
      apply Resumed.ended hfree
      intro svc hsvc
      rw [hrunning] at hsvc
      cases hsvc
  | @resumes after svc htask hfree hrunning =>
      have hopening := h.opening svc hrunning
      refine Resumed.gates (t := { s with lifecycle := .updating, task := some _ })
        hrunning rfl rfl hopening ?_ ?_
      · intro names hnames
        cases hnames
        exact Service.OpenBut.keys hopening
      · intro _ hprepared
        exact h.cleared ⟨hprepared, by simp [htask, Task.prepares]⟩ svc hrunning
  | @resumesChild after name names svc htask hrunning =>
      have hholds := h.holder (by rw [htask]; rfl)
      have hbut := h.unresumed (name :: names) svc (by simp [InstanceHost.unresumed, htask])
        hrunning
      refine Resumed.gates (t := { s with running := some _, task := some _ }) rfl hholds rfl
        ?_ ?_ ?_
      · rw [Service.childResumed_opening]
        exact h.opening svc hrunning
      · intro left hleft
        cases hleft
        exact hbut.childResumed
      · intro _ hprepared
        have hopen := h.cleared ⟨hprepared, by simp [htask, Task.prepares]⟩ svc hrunning
        exact hopen.childResumed name
  | @resumed after svc htask hrunning =>
      have hbut := h.unresumed [] svc (by simp [InstanceHost.unresumed, htask]) hrunning
      apply Resumed.ended rfl
      intro d hd
      cases hd
      exact ⟨rfl, ⟨hbut.opening, hbut.networks⟩⟩
  | @collects view release svc htask hrunning =>
      have hholds := h.holder (by rw [htask]; rfl)
      exact Resumed.gates hrunning hholds rfl (h.opening svc hrunning)
        (fun _ hnames => by cases hnames) (fun hprepares => by cases hprepares)
  | @fails view release reason names svc htask hrunning =>
      have hholds := h.holder (by rw [htask]; rfl)
      have hopening := h.opening svc hrunning
      refine Resumed.gates (t := { s with task := some _ }) hrunning hholds rfl hopening ?_ ?_
      · intro left hleft
        cases hleft
        exact Service.OpenBut.keys hopening
      · intro hprepares
        cases hprepares
  | @pausesChild view release name names svc svc' htask hrunning hpause =>
      have hholds := h.holder (by rw [htask]; rfl)
      refine Resumed.gates (t := { s with running := some _, task := some _ }) rfl hholds rfl
        ?_ ?_ ?_
      · rw [Service.childPaused_opening hpause]
        exact h.opening svc hrunning
      · intro left hleft
        cases hleft
      · intro hprepares
        cases hprepares
  | @paused view release svc htask hrunning =>
      exact Resumed.released rfl rfl rfl h.opening fun hnone => by cases hnone
  | @undoesChild name reason names svc htask hrunning =>
      have hholds := h.holder (by rw [htask]; rfl)
      have hbut := h.unresumed (name :: names) svc (by simp [InstanceHost.unresumed, htask])
        hrunning
      refine Resumed.gates (t := { s with running := some _, task := some _ }) rfl hholds rfl
        ?_ ?_ ?_
      · rw [Service.childResumed_opening]
        exact h.opening svc hrunning
      · intro left hleft
        cases hleft
        exact hbut.childResumed
      · intro hprepares
        cases hprepares
  | @undone reason svc htask hrunning =>
      have hbut := h.unresumed [] svc (by simp [InstanceHost.unresumed, htask]) hrunning
      apply Resumed.released rfl rfl rfl
      · intro d hd
        cases hd
        exact hbut.opening
      · intro _ d hd
        cases hd
        exact ⟨rfl, ⟨hbut.opening, hbut.networks⟩⟩

/-- A call has got the lock of the maintenance state. -/
theorem Resumed.update (h : s.Resumed) (htask : s.task.isNone = true) (request : UpdateRequest)
    (now : ℕ) : (s.update config request now).1.Resumed := by
  have hprepares : s.task.any Task.prepares = false := by
    simp [Option.isNone_iff_eq_none.mp htask]
  unfold InstanceHost.update
  split
  · exact h
  · split
    · exact h.plain hprepares rfl rfl id rfl rfl
    · exact h.plain hprepares rfl rfl id rfl rfl

/-- Another call than an update call takes, holds or releases the lock of the running
service. -/
theorem Resumed.lock (h : s.Resumed) (hlifecycle : s.lifecycle ≠ .updating) {l : Lifecycle}
    {running : Option Service} (checked : ℕ) (hstarting : ∀ svc, l = .opening svc → svc.Open)
    (hrunning : ∀ svc, running = some svc → s.running = some svc ∨ svc.Open) :
    ({ s with lifecycle := l, running := running, checked := checked } :
      InstanceHost).Resumed where
  holder htask := absurd (h.holder htask) hlifecycle
  starting := hstarting
  opening svc hsvc := by
    obtain hold | hopen := hrunning svc hsvc
    · exact h.opening svc hold
    · exact hopen.children.opening
  unresumed names svc hnames _ := by
    have hheld : s.task.any Task.holds = true := by
      simp only [InstanceHost.unresumed] at hnames
      split at hnames
      case h_1 heq =>
        change s.task = _ at heq
        simp [heq, Task.holds]
      case h_2 heq =>
        change s.task = _ at heq
        simp [heq, Task.holds]
      case h_3 => cases hnames
    exact absurd (h.holder hheld) hlifecycle
  cleared hcleared svc hsvc := by
    obtain hold | hopen := hrunning svc hsvc
    · exact h.cleared ⟨hcleared.prepared, hcleared.task⟩ svc hold
    · exact hopen

/-- The requests and workers of the running service take a step. -/
theorem Resumed.work {w : Work} {svc svc' : Service} (h : s.Resumed)
    (hrunning : s.running = some svc) (hwork : svc.work w = some svc') :
    ({ s with running := some svc' } : InstanceHost).Resumed where
  holder := h.holder
  starting := h.starting
  opening d hd := by
    cases hd
    have hbut := Service.OpenBut.keys (h.opening svc hrunning)
    exact (hbut.work hwork).opening
  unresumed names d hnames hd := by
    cases hd
    exact (h.unresumed names svc hnames hrunning).work hwork
  cleared hcleared d hd := by
    cases hd
    exact (h.cleared ⟨hcleared.prepared, hcleared.task⟩ svc hrunning).work hwork

theorem Resumed.step {e : Event} (h : s.Resumed) (hstep : s.step config e = some t) :
    t.Resumed := by
  cases e with
  | unlock =>
      simp only [InstanceHost.step] at hstep
      split at hstep
      case isTrue hfree =>
        cases hstep
        split
        · exact h
        · have hnone := Option.isNone_iff_eq_none.mp hfree
          exact h.plain (by simp [hnone]) rfl rfl id (by simp [hnone])
            (by simp [InstanceHost.unresumed, hnone])
      case isFalse => cases hstep
  | unlockLocked =>
      simp only [InstanceHost.step] at hstep
      split at hstep
      case h_1 n hfree _ =>
        cases hstep
        apply h.lock (by rw [hfree]; exact Lifecycle.noConfusion) n
        · intro svc hsvc
          split at hsvc
          · cases hsvc
          · cases hsvc
            exact Service.Open.new
        · exact fun svc hsvc => Or.inl hsvc
      case h_2 => cases hstep
  | unlocked success =>
      simp only [InstanceHost.step] at hstep
      split at hstep
      case h_1 svc hopening =>
        cases hstep
        apply h.lock (by rw [hopening]; exact Lifecycle.noConfusion) s.checked
        · intro d hd
          cases hd
        · intro d hd
          split at hd
          · cases hd
            exact Or.inr (h.starting svc hopening)
          · exact Or.inl hd
      case h_2 => cases hstep
  | disconnect =>
      simp only [InstanceHost.step] at hstep
      split at hstep
      case h_1 hfree =>
        cases hstep
        exact h.lock (by rw [hfree]; exact Lifecycle.noConfusion) s.checked
          (fun d hd => by cases hd) (fun d hd => by cases hd)
      case h_2 => cases hstep
  | disconnected =>
      simp only [InstanceHost.step] at hstep
      split at hstep
      case h_1 hstopping =>
        cases hstep
        exact h.lock (by rw [hstopping]; exact Lifecycle.noConfusion) s.checked
          (fun d hd => by cases hd) (fun d hd => Or.inl hd)
      case h_2 => cases hstep
  | dispatch =>
      simp only [InstanceHost.step] at hstep
      split at hstep
      case h_1 hfree =>
        cases hstep
        exact h.lock (by rw [hfree]; exact Lifecycle.noConfusion) s.checked
          (fun d hd => by cases hd) (fun d hd => Or.inl hd)
      case h_2 => cases hstep
  | dispatched =>
      simp only [InstanceHost.step] at hstep
      split at hstep
      case h_1 hdispatching =>
        cases hstep
        exact h.lock (by rw [hdispatching]; exact Lifecycle.noConfusion) s.checked
          (fun d hd => by cases hd) (fun d hd => Or.inl hd)
      case h_2 => cases hstep
  | work w =>
      simp only [InstanceHost.step] at hstep
      split at hstep
      case h_1 svc hrunning =>
        obtain ⟨svc', hwork, rfl⟩ := Option.map_eq_some_iff.mp hstep
        exact h.work hrunning hwork
      case h_2 => cases hstep
  | openingWork w =>
      simp only [InstanceHost.step] at hstep
      split at hstep
      case h_1 svc hopening =>
        obtain ⟨svc', hwork, rfl⟩ := Option.map_eq_some_iff.mp hstep
        apply h.lock (by rw [hopening]; exact Lifecycle.noConfusion) s.checked
        · intro d hd
          cases hd
          exact (h.starting svc hopening).work hwork
        · exact fun d hd => Or.inl hd
      case h_2 => cases hstep
  | update request now =>
      simp only [InstanceHost.step] at hstep
      split at hstep
      case isTrue hfree =>
        cases hstep
        exact h.update hfree request now
      case isFalse => cases hstep
  | advance outside =>
      obtain ⟨⟨u, r⟩, hadvance, rfl⟩ := Option.map_eq_some_iff.mp hstep
      exact h.advance (advance_cases hadvance)
  | signal owner =>
      simp only [InstanceHost.step] at hstep
      split at hstep
      · cases hstep
        exact ⟨h.holder, h.starting, h.opening, h.unresumed,
          fun hcleared => h.cleared ⟨hcleared.prepared, hcleared.task⟩⟩
      · cases hstep

theorem resumed_new : InstanceHost.new.Resumed where
  holder hholds := by cases hholds
  starting _ hsvc := by cases hsvc
  opening _ hsvc := by cases hsvc
  unresumed _ _ _ hsvc := by cases hsvc
  cleared _ _ hsvc := by cases hsvc

theorem resumed_of_reachable (h : (InstanceHost.machine config).Reachable s) : s.Resumed := by
  apply h.invariant
  · intro s hs
    cases hs
    exact resumed_new
  · intro s e t _ hs hstep
    exact hs.step hstep

/-! ### Who is blocked -/

/-- The last heartbeat of every view is at least 45 seconds old. -/
def Expired (s : InstanceHost) (now : ℕ) : Prop :=
  ∀ (view : String) (seen : ℕ), s.views[view]? = some seen → 45 ≤ now - seen

/-- No Unlock is refused because of a preparation, and no request by a paused gate. -/
structure BlocksNobody (config : Config) (s : InstanceHost) : Prop where
  unlock : s.step config .unlock ≠ some s
  own : ∀ svc, s.running = some svc → ∃ g, svc.gate.enter = .ok g
  child : ∀ svc (name : String) (g : Gate), s.running = some svc →
    svc.networks[name]? = some g → ∃ g', g.enter = .ok g'

theorem unlock_refused (htask : s.task = none) (hprepared : s.prepared ≠ none) :
    s.step config .unlock = some s := by
  have hsome := Option.isSome_iff_ne_none.mpr hprepared
  simp [InstanceHost.step, htask, hsome]

theorem unlock_checked (hprepared : s.prepared = none) : s.step config .unlock ≠ some s := by
  intro hstep
  simp only [InstanceHost.step] at hstep
  split at hstep
  · rw [if_neg (by simp [hprepared])] at hstep
    have hchecked := congrArg (·.map InstanceHost.checked) hstep
    simp at hchecked
  · cases hstep

theorem Resumed.blocksNobody (h : s.Resumed) (hcleared : s.Cleared) : s.BlocksNobody config where
  unlock := unlock_checked hcleared.prepared
  own svc hsvc := Gate.enter_of_not_paused (h.cleared hcleared svc hsvc).gate
  child svc name g hsvc hg := by
    have hchildren := (h.cleared hcleared svc hsvc).children.networks name g hg
    exact Gate.enter_of_not_paused (hchildren.resolve_left List.not_mem_nil)

/-! ### The next update call -/

theorem ownerGone_of_expired {now : ℕ} (hexpired : s.Expired now)
    (hprepared : s.prepared ≠ none) : s.ownerGone now = true := by
  obtain ⟨owner, howner⟩ := Option.ne_none_iff_exists'.mp hprepared
  have hgone : (s.attached now)[owner.1]? = none := by
    rw [attached, StringMap.get_filter]
    cases hseen : s.views[owner.1]? with
    | none => rfl
    | some seen =>
        have hold := hexpired owner.1 seen hseen
        simp only [Option.filter]
        rw [if_neg]
        simp only [decide_eq_true_eq]
        omega
  have hcontains : (s.attached now).contains owner.1 = false := by
    rw [StringMap.contains_eq_isSome, hgone]
    rfl
  simp [ownerGone, howner, hcontains]

/-- The call that holds the lock of the maintenance state goes on. -/
def goesOn (config : Config) (outside : Outside) (n : ℕ) (s : InstanceHost) :
    Option InstanceHost :=
  (List.replicate n (Event.advance outside)).foldlM (InstanceHost.step config) s

theorem goesOn_succ {n : ℕ} (hstep : s.step config (.advance outside) = some t) :
    s.goesOn config outside (n + 1) = t.goesOn config outside n := by
  simp [goesOn, List.replicate_succ, hstep]

theorem Resumed.goesOn {n : ℕ} (h : s.Resumed) (hrun : s.goesOn config outside n = some t) :
    t.Resumed := by
  induction n generalizing s with
  | zero =>
      cases hrun
      exact h
  | succ n ih =>
      rw [InstanceHost.goesOn, List.replicate_succ, List.foldlM_cons, Option.bind_eq_bind,
        Option.bind_eq_some_iff] at hrun
      obtain ⟨u, hstep, hrest⟩ := hrun
      exact ih (h.step hstep) hrest

/-- A call that resumes the children gets to the end of the preparation. -/
theorem resuming_ends (config : Config) (outside : Outside) {after : After} {names : List String}
    {svc : Service}
    (htask : s.task = some (.resuming after names)) (hrunning : s.running = some svc) :
    ∃ n u, s.goesOn config outside n = some (InstanceHost.ended u after).1 := by
  induction names generalizing s svc with
  | nil =>
      have hstep : s.step config (.advance outside) = some (InstanceHost.ended { s with
          running := some { svc with gate := svc.gate.resume }, lifecycle := .free } after).1 := by
        simp [InstanceHost.step, InstanceHost.advance, htask, hrunning]
      exact ⟨1, _, goesOn_succ hstep⟩
  | cons name names ih =>
      have hstep : s.step config (.advance outside) = some { s with
          running := some (svc.childResumed name), task := some (.resuming after names) } := by
        simp [InstanceHost.step, InstanceHost.advance, htask, hrunning, wait]
      obtain ⟨n, u, hn⟩ := ih (s := { s with
        running := some (svc.childResumed name), task := some (.resuming after names) }) rfl rfl
      exact ⟨n + 1, u, (goesOn_succ hstep).trans hn⟩

/-- A call that has found no owner gets there too, where the lock of the running service
is free. -/
theorem ending_ends (config : Config) (outside : Outside) {after : After}
    (htask : s.task = some (.ending after)) (hfree : s.lifecycle = .free) :
    ∃ n u, s.goesOn config outside n = some (InstanceHost.ended u after).1 := by
  cases hrunning : s.running with
  | none =>
      have hstep : s.step config (.advance outside) = some (s.ended after).1 := by
        simp [InstanceHost.step, InstanceHost.advance, htask, hfree, hrunning]
      exact ⟨1, s, goesOn_succ hstep⟩
  | some svc =>
      have hstep : s.step config (.advance outside) = some { s with
          lifecycle := .updating, task := some (.resuming after svc.networks.keys) } := by
        simp [InstanceHost.step, InstanceHost.advance, htask, hfree, hrunning, wait]
      obtain ⟨n, u, hn⟩ := resuming_ends config outside (s := { s with
        lifecycle := .updating, task := some (.resuming after svc.networks.keys) }) rfl hrunning
      exact ⟨n + 1, u, (goesOn_succ hstep).trans hn⟩

/-- Where the lock of the running service is free, an update call that finds all leases
expired goes on to a state that blocks nobody. -/
theorem Resumed.update_unblocks {request : UpdateRequest} {now : ℕ} (h : s.Resumed)
    (htask : s.task = none) (hfree : s.lifecycle = .free) (hexpired : s.Expired now)
    (hcheck : request.check config = .ok ()) :
    ∃ n t, (s.update config request now).1.goesOn config outside n = some t ∧
      t.task = some (.handling request) ∧ t.BlocksNobody config := by
  have hupdate : (s.update config request now).1.Resumed :=
    h.update (by rw [htask]; rfl) request now
  by_cases hprepared : s.prepared = none
  case pos =>
    have hgone : s.ownerGone now = false := by simp [ownerGone, hprepared]
    have hhandling : (s.update config request now).1 =
        { s with views := s.attached now, task := some (.handling request) } := by
      simp [InstanceHost.update, hcheck, hgone, wait]
    refine ⟨0, _, rfl, by rw [hhandling], ?_⟩
    apply hupdate.blocksNobody
    rw [hhandling]
    exact ⟨hprepared, rfl⟩
  case neg =>
    have hgone := ownerGone_of_expired hexpired hprepared
    have hending : (s.update config request now).1 =
        { s with views := s.attached now, task := some (.ending (.handle request)) } := by
      simp [InstanceHost.update, hcheck, hgone, wait]
    obtain ⟨n, u, hn⟩ := ending_ends config outside
      (s := (s.update config request now).1)
      (by rw [hending]) (by rw [hending]; exact hfree)
    refine ⟨n, _, hn, rfl, ?_⟩
    exact (hupdate.goesOn hn).blocksNobody ⟨rfl, rfl⟩

end InstanceHost

/-- In every state that can be reached, with all leases expired, nobody is blocked where no
preparation is recorded and no call is preparing one. While no update call is under way
this is the only case: the preparation of a view that is gone blocks until the next update
call, which ends it. -/
theorem expired_blocks_nobody_iff (config : Config) (s : InstanceHost) (now : ℕ)
    (hs : (InstanceHost.machine config).Reachable s) (hexpired : s.Expired now) :
    (s.Cleared → s.BlocksNobody config) ∧
      (s.task = none → (s.BlocksNobody config ↔ s.prepared = none)) ∧
      ∀ (request : UpdateRequest) (outside : Outside), s.task = none → s.lifecycle = .free →
        request.check config = .ok () →
          ∃ n t, (s.update config request now).1.goesOn config outside n = some t ∧
            t.task = some (.handling request) ∧ t.BlocksNobody config := by
  have hresumed := InstanceHost.resumed_of_reachable hs
  refine ⟨fun hcleared => hresumed.blocksNobody hcleared, ?_, ?_⟩
  · intro htask
    constructor
    · intro h
      by_contra hprepared
      exact h.unlock (InstanceHost.unlock_refused htask hprepared)
    · intro hprepared
      apply hresumed.blocksNobody
      exact ⟨hprepared, by simp [htask]⟩
  · intro request outside htask hfree hcheck
    exact hresumed.update_unblocks htask hfree hexpired hcheck

namespace Sample

/-- The view gives the preparation up. -/
def aborted : List Event :=
  paused ++ [.update (.abort view release) 0] ++ List.replicate 3 (.advance outside)

theorem expired_of_views {s : InstanceHost} {v : String} {n now : ℕ}
    (hviews : s.views.toList = [(v, n)]) (hnow : 45 ≤ now - n) : s.Expired now := by
  intro view seen hget
  have hmem : (view, seen) ∈ s.views.toList :=
    Std.ExtTreeMap.mem_toList_iff_getElem?_eq_some.mpr hget
  rw [hviews, List.mem_singleton] at hmem
  cases hmem
  exact hnow

end Sample

theorem sample_unblocked : (Sample.run Sample.aborted).running.isSome = true ∧
    (Sample.run Sample.aborted).BlocksNobody Sample.config := by
  refine ⟨by decide +kernel, ?_⟩
  have hexpired : (Sample.run Sample.aborted).Expired 45 :=
    Sample.expired_of_views (v := Sample.view) (n := 0) (by decide +kernel) (by decide)
  exact ((expired_blocks_nobody_iff Sample.config _ 45 (Sample.run_reachable _)
    hexpired).2.1 (by decide +kernel)).mpr (by decide +kernel)

/-- The view that prepared an update is gone for 45 seconds: an Unlock is still refused,
and so is every request of the service. -/
theorem expired_blocks :
    (InstanceHost.machine Sample.config).Reachable (Sample.run Sample.paused) ∧
      (Sample.run Sample.paused).Expired 45 ∧
      (Sample.run Sample.paused).step Sample.config .unlock = some (Sample.run Sample.paused) ∧
      ∃ svc, (Sample.run Sample.paused).running = some svc ∧
        svc.gate.enter.toOption = none := by
  refine ⟨Sample.run_reachable _, ?_, ?_, ?_⟩
  · apply Sample.expired_of_views (v := Sample.view) (n := 0)
    · decide +kernel
    · decide
  · apply InstanceHost.unlock_refused
    · decide +kernel
    · decide +kernel
  · have hpaused : (Sample.run Sample.paused).running.map (fun svc => svc.gate.enter.toOption) =
        some none := by
      decide +kernel
    exact Option.map_eq_some_iff.mp hpaused

end Host

end GChat
