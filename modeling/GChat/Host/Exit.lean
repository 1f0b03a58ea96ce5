import GChat.Host.Quiesced

/-!
# The delayed exit

An exit is granted for a preparation while no service runs, and signalled later. The
check is not made again: until the signal the preparation can be ended, and then a
service unlocked. While neither happens, the signal meets what was checked.
-/

namespace GChat

namespace Host

open Foundation

namespace InstanceHost

/-- The preparation of an owner is in place, and no service is running or being opened. -/
structure Checkpointed (s : InstanceHost) (owner : String × String) : Prop where
  prepared : s.Prepared
  owner : s.prepared = some owner
  running : s.running = none
  opening : ∀ svc, s.lifecycle ≠ .opening svc

/-- The exit signal fires only for a preparation that is in place, without a service. -/
def ExitsCheckpointed (config : Config) (s : InstanceHost) : Prop :=
  ∀ owner t, step config s (.signal owner) = some t → s.Checkpointed owner

/-- No Unlock starts to open a service while an update is prepared, and no step ends the
preparation while a granted exit waits for its signal: its owner neither detaches nor
aborts, and stays attached. -/
def lasting (s : InstanceHost) : Event → Bool
  | .unlockLocked => !decide s.Prepared || s.running.isSome
  | .update _ now => s.exits.isEmpty || !s.ownerGone now
  | .advance _ => s.exits.isEmpty || !s.endsNow
  | _ => true

structure ExitInv (s : InstanceHost) : Prop where
  opening : s.Prepared → ∀ svc, s.lifecycle ≠ .opening svc
  exiting : ∀ view release, s.task = some (.exiting view release) →
    s.prepared = some (view, release)
  granted : ∀ owner ∈ s.exits, s.Prepared ∧ s.prepared = some owner ∧ s.running = none

variable {config : Config} {s t : InstanceHost} {outside : Outside}

theorem ExitInv.checkpointed (h : s.ExitInv) : s.ExitsCheckpointed config := by
  intro owner t hstep
  simp only [step] at hstep
  split at hstep
  case isTrue hmem =>
    obtain ⟨hprepared, howner, hrunning⟩ := h.granted owner (List.contains_iff_mem.mp hmem)
    exact ⟨hprepared, howner, hrunning, h.opening hprepared⟩
  case isFalse => cases hstep

/-- No exit is granted where a service runs, or without a preparation in place. -/
theorem ExitInv.exits_eq_nil (h : s.ExitInv) (hnot : s.Prepared → s.running.isSome = true) :
    s.exits = [] := by
  rw [List.eq_nil_iff_forall_not_mem]
  intro owner howner
  obtain ⟨hprepared, -, hrunning⟩ := h.granted owner howner
  have hsome := hnot hprepared
  rw [hrunning] at hsome
  cases hsome

theorem ExitInv.of_nil (hexits : t.exits = [])
    (hopening : t.Prepared → ∀ svc, t.lifecycle ≠ .opening svc)
    (hexiting : ∀ view release, t.task = some (.exiting view release) →
      t.prepared = some (view, release)) : t.ExitInv where
  opening := hopening
  exiting := hexiting
  granted owner howner := by
    rw [hexits] at howner
    cases howner

theorem not_prepared_of_ends {task : Task} (htask : s.task = some task)
    (hends : task.ends = true) : ¬ s.Prepared := by
  intro hprepared
  have hnot := hprepared.2
  rw [htask, Option.any_some, hends] at hnot
  cases hnot

theorem not_prepared_of_none (h : s.prepared = none) : ¬ s.Prepared := by
  intro hprepared
  have hsome := hprepared.1
  rw [h] at hsome
  cases hsome

theorem Reads.prepared_iff (h : s.Reads) : s.Prepared ↔ s.prepared.isSome = true := by
  obtain ⟨request, htask⟩ | ⟨view, release, htask⟩ := h
  · simp [Prepared, htask, Task.ends]
  · simp [Prepared, htask, Task.ends]

/-- A call that has changed nothing yet leaves the services and the preparation. -/
theorem ExitInv.plain (h : s.ExitInv) (hreads : s.Prepared ↔ s.prepared.isSome = true)
    (hprepared : t.prepared = s.prepared) (hrunning : t.running = s.running)
    (hlifecycle : t.lifecycle = s.lifecycle) (hexits : t.exits = s.exits)
    (htask : t.task.any Task.ends = false)
    (hexiting : ∀ view release, t.task = some (.exiting view release) →
      t.prepared = some (view, release)) : t.ExitInv where
  opening ht := by
    rw [hlifecycle]
    exact h.opening (hreads.mpr (hprepared ▸ ht.1))
  exiting := hexiting
  granted owner howner := by
    rw [hexits] at howner
    obtain ⟨hs, hsowner, hnone⟩ := h.granted owner howner
    rw [hprepared, hrunning]
    exact ⟨⟨hprepared.symm ▸ hs.1, htask⟩, hsowner, hnone⟩

/-- The preparation is over where no exit is granted. -/
theorem ExitInv.ended (hnil : s.exits = []) (after : After) : (s.ended after).1.ExitInv := by
  cases after with
  | handle request =>
      exact ExitInv.of_nil hnil (fun hp => absurd hp (not_prepared_of_none rfl))
        (fun _ _ heq => by cases heq)
  | detach view =>
      exact ExitInv.of_nil hnil (fun hp => absurd hp (not_prepared_of_none rfl))
        (fun _ _ heq => by cases heq)
  | done =>
      exact ExitInv.of_nil hnil (fun hp => absurd hp (not_prepared_of_none rfl))
        (fun _ _ heq => by cases heq)

/-- A call that holds the lock of the running service goes on with its gates. -/
theorem ExitInv.gates {svc : Service} {task : Task} (h : s.ExitInv)
    (hrunning : s.running = some svc) (htask : s.task = some task) (hends : task.ends = false)
    (hprepared : t.prepared = s.prepared) (hlifecycle : t.lifecycle = s.lifecycle)
    (hexits : t.exits = s.exits)
    (hexiting : ∀ view release, t.task ≠ some (.exiting view release)) : t.ExitInv := by
  have hnil := h.exits_eq_nil fun _ => by rw [hrunning]; rfl
  apply ExitInv.of_nil (hexits.trans hnil)
  · intro ht
    rw [hlifecycle]
    refine h.opening ⟨hprepared ▸ ht.1, ?_⟩
    rw [htask, Option.any_some, hends]
  · exact fun view release heq => absurd heq (hexiting view release)

theorem ExitInv.advance (h : s.ExitInv) (hl : s.lasting (.advance outside) = true)
    (hstep : s.Advance t) : t.ExitInv := by
  cases hstep with
  | answered hreads =>
      exact h.plain hreads.prepared_iff rfl rfl rfl rfl rfl (fun _ _ heq => by cases heq)
  | ends hends =>
      have hnil : s.exits = [] := by
        simpa [lasting, hends] using hl
      exact ExitInv.of_nil hnil (fun hp => absurd hp (not_prepared_of_ends rfl rfl))
        (fun _ _ heq => by cases heq)
  | @exits view release htask howner =>
      have hreads : s.Reads := Or.inl ⟨_, htask⟩
      have hexiting : ∀ v r, some (Task.exiting view release) = some (.exiting v r) →
          s.prepared = some (v, r) := by
        intro v r heq
        cases heq
        exact howner
      exact h.plain hreads.prepared_iff rfl rfl rfl rfl rfl hexiting
  | prepares hprepared hfree hrunning =>
      have hnil := h.exits_eq_nil fun hp => absurd hp (not_prepared_of_none hprepared)
      have hopening : ∀ svc, s.lifecycle ≠ .opening svc := by
        intro svc hsvc
        rw [hfree] at hsvc
        cases hsvc
      exact ExitInv.of_nil hnil (fun _ => hopening) (fun _ _ heq => by cases heq)
  | pauses hprepared =>
      have hnil := h.exits_eq_nil fun hp => absurd hp (not_prepared_of_none hprepared)
      exact ExitInv.of_nil hnil (fun _ svc hsvc => by cases hsvc) (fun _ _ heq => by cases heq)
  | @ended after htask hfree hrunning =>
      have hnil := h.exits_eq_nil fun hp => absurd hp (not_prepared_of_ends htask rfl)
      exact ExitInv.ended hnil after
  | resumes htask =>
      have hnil := h.exits_eq_nil fun hp => absurd hp (not_prepared_of_ends htask rfl)
      exact ExitInv.of_nil hnil (fun _ svc hsvc => by cases hsvc) (fun _ _ heq => by cases heq)
  | resumesChild htask hrunning =>
      have hnil := h.exits_eq_nil fun _ => by rw [hrunning]; rfl
      exact ExitInv.of_nil hnil (fun hp => absurd hp (not_prepared_of_ends rfl rfl))
        (fun _ _ heq => by cases heq)
  | @resumed after svc htask hrunning =>
      apply ExitInv.ended
      exact h.exits_eq_nil fun _ => by rw [hrunning]; rfl
  | collects htask hrunning =>
      exact h.gates hrunning htask rfl rfl rfl rfl (fun _ _ heq => by cases heq)
  | fails htask hrunning =>
      exact h.gates hrunning htask rfl rfl rfl rfl (fun _ _ heq => by cases heq)
  | pausesChild htask hrunning =>
      exact h.gates hrunning htask rfl rfl rfl rfl (fun _ _ heq => by cases heq)
  | paused htask hrunning =>
      have hnil := h.exits_eq_nil fun _ => by rw [hrunning]; rfl
      exact ExitInv.of_nil hnil (fun _ svc hsvc => by cases hsvc) (fun _ _ heq => by cases heq)
  | undoesChild htask hrunning =>
      exact h.gates hrunning htask rfl rfl rfl rfl (fun _ _ heq => by cases heq)
  | undone htask hrunning =>
      have hnil := h.exits_eq_nil fun _ => by rw [hrunning]; rfl
      exact ExitInv.of_nil hnil (fun _ svc hsvc => by cases hsvc) (fun _ _ heq => by cases heq)
  | @grants view release htask hfree hrunning =>
      have hreads : s.Reads := Or.inr ⟨_, _, htask⟩
      have howner := h.exiting view release htask
      have hprepared : s.Prepared := hreads.prepared_iff.mpr (by rw [howner]; rfl)
      constructor
      · exact fun _ => h.opening hprepared
      · intro _ _ heq
        cases heq
      · intro owner hmem
        obtain rfl | hold := List.mem_cons.mp hmem
        · exact ⟨⟨hprepared.1, rfl⟩, howner, hrunning⟩
        · obtain ⟨-, hsame, hnone⟩ := h.granted owner hold
          exact ⟨⟨hprepared.1, rfl⟩, hsame, hnone⟩

/-- Another call than an update call takes, holds or releases the lock of the running
service. -/
theorem ExitInv.lock (h : s.ExitInv) {l : Lifecycle} {running : Option Service} (checked : ℕ)
    (hopening : ∀ svc, l = .opening svc → ¬ s.Prepared ∨ s.lifecycle = .opening svc)
    (hrunning : s.Prepared → s.running = none → running = none) :
    ({ s with lifecycle := l, running := running, checked := checked } : InstanceHost).ExitInv where
  opening hprepared svc hsvc := by
    have hs : s.Prepared := hprepared
    obtain hnot | hold := hopening svc hsvc
    · exact hnot hs
    · exact h.opening hs svc hold
  exiting := h.exiting
  granted owner howner := by
    obtain ⟨hs, hsowner, hnone⟩ := h.granted owner howner
    exact ⟨hs, hsowner, hrunning hs hnone⟩

/-- A call has got the lock of the maintenance state. -/
theorem ExitInv.update (h : s.ExitInv) (htask : s.task.isNone = true) (request : UpdateRequest)
    (now : ℕ) (hl : s.lasting (.update request now) = true) :
    (s.update config request now).1.ExitInv := by
  have hreads : s.Prepared ↔ s.prepared.isSome = true := by
    simp [Prepared, Option.isNone_iff_eq_none.mp htask]
  unfold InstanceHost.update
  split
  · exact h
  · split
    case isTrue hgone =>
      have hnil : s.exits = [] := by
        simpa [lasting, hgone] using hl
      exact ExitInv.of_nil hnil (fun hp => absurd hp (not_prepared_of_ends rfl rfl))
        (fun _ _ heq => by cases heq)
    case isFalse =>
      exact h.plain hreads rfl rfl rfl rfl rfl (fun _ _ heq => by cases heq)

theorem ExitInv.step {e : Event} (h : s.ExitInv) (hl : s.lasting e = true)
    (hstep : s.step config e = some t) : t.ExitInv := by
  have hsame : ∀ svc : Service, s.lifecycle = .opening svc →
      ¬ s.Prepared ∨ s.lifecycle = .opening svc := fun svc hsvc => Or.inr hsvc
  cases e with
  | unlock =>
      simp only [InstanceHost.step] at hstep
      split at hstep
      · cases hstep
        split
        · exact h
        · exact h.lock _ hsame (fun _ hnone => hnone)
      · cases hstep
  | unlockLocked =>
      simp only [InstanceHost.step] at hstep
      split at hstep
      case h_1 n hfree _ =>
        cases hstep
        apply h.lock n
        · intro svc hsvc
          split at hsvc
          · cases hsvc
          case isFalse hnone =>
            left
            intro hprepared
            exact hnone (by simpa [lasting, hprepared] using hl)
        · exact fun _ hnone => hnone
      case h_2 => cases hstep
  | unlocked success =>
      simp only [InstanceHost.step] at hstep
      split at hstep
      case h_1 svc hopening =>
        cases hstep
        apply h.lock s.checked
        · intro d hd
          cases hd
        · intro hprepared _
          exact absurd hopening (h.opening hprepared svc)
      case h_2 => cases hstep
  | disconnect =>
      simp only [InstanceHost.step] at hstep
      split at hstep
      · cases hstep
        exact h.lock s.checked (fun d hd => by cases hd) (fun _ _ => rfl)
      · cases hstep
  | disconnected =>
      simp only [InstanceHost.step] at hstep
      split at hstep
      · cases hstep
        exact h.lock s.checked (fun d hd => by cases hd) (fun _ hnone => hnone)
      · cases hstep
  | dispatch =>
      simp only [InstanceHost.step] at hstep
      split at hstep
      · cases hstep
        exact h.lock s.checked (fun d hd => by cases hd) (fun _ hnone => hnone)
      · cases hstep
  | dispatched =>
      simp only [InstanceHost.step] at hstep
      split at hstep
      · cases hstep
        exact h.lock s.checked (fun d hd => by cases hd) (fun _ hnone => hnone)
      · cases hstep
  | work w =>
      simp only [InstanceHost.step] at hstep
      split at hstep
      case h_1 svc hrunning =>
        obtain ⟨svc', -, rfl⟩ := Option.map_eq_some_iff.mp hstep
        apply h.lock s.checked hsame
        intro _ hnone
        rw [hrunning] at hnone
        cases hnone
      case h_2 => cases hstep
  | openingWork w =>
      simp only [InstanceHost.step] at hstep
      split at hstep
      case h_1 svc hopening =>
        obtain ⟨svc', -, rfl⟩ := Option.map_eq_some_iff.mp hstep
        apply h.lock s.checked
        · exact fun d _ => Or.inl fun hprepared => h.opening hprepared svc hopening
        · exact fun _ hnone => hnone
      case h_2 => cases hstep
  | update request now =>
      simp only [InstanceHost.step] at hstep
      split at hstep
      case isTrue hfree =>
        cases hstep
        exact h.update hfree request now hl
      case isFalse => cases hstep
  | advance outside =>
      obtain ⟨⟨u, r⟩, hadvance, rfl⟩ := Option.map_eq_some_iff.mp hstep
      exact h.advance hl (advance_cases hadvance)
  | signal owner =>
      simp only [InstanceHost.step] at hstep
      split at hstep
      · cases hstep
        exact ⟨h.opening, h.exiting, fun a ha => h.granted a (List.mem_of_mem_erase ha)⟩
      · cases hstep

theorem exitInv_new : InstanceHost.new.ExitInv :=
  ExitInv.of_nil rfl (fun hp => absurd hp (not_prepared_of_none rfl)) (fun _ _ heq => by cases heq)

end InstanceHost

/-- In every run in which no Unlock starts to open a service while an update is prepared, and
no preparation ends while an exit waits for its signal, the exit signal meets the preparation
it was granted for, and no service. -/
theorem exits_checkpointed (config : Config) (s : InstanceHost)
    (h : ((InstanceHost.machine config).restrict fun s e => s.lasting e = true).Reachable s) :
    s.ExitsCheckpointed config := by
  have hinv : s.ExitInv := by
    apply h.invariant
    · intro s hs
      cases hs
      exact InstanceHost.exitInv_new
    · intro s e t _ hs hstep
      exact hs.step hstep.1 hstep.2
  exact hinv.checkpointed

namespace Sample

def prepare : List Event := [.update (.prepare view release) 0, .advance outside]

def exit : List Event := [.update (.exit view release) 0, .advance outside, .advance outside]

/-- The view aborts after its exit was granted, and the profile is unlocked. -/
def lateAbort : List Event :=
  attach ++ prepare ++ exit ++
    [.update (.abort view release) 0, .advance outside, .advance outside] ++ unlock

/-- The run as far as the preparation lasts. -/
def lastingRun (events : List Event) : InstanceHost :=
  (events.foldlM (fun (s : InstanceHost) e =>
    if s.lasting e then InstanceHost.step config s e else none) InstanceHost.new).getD
      InstanceHost.new

end Sample

theorem sample_checkpointed :
    (Sample.lastingRun (Sample.attach ++ Sample.prepare ++ Sample.exit)).Checkpointed
      (Sample.view, Sample.release) := by
  have hsignal : (InstanceHost.step Sample.config
      (Sample.lastingRun (Sample.attach ++ Sample.prepare ++ Sample.exit))
      (.signal (Sample.view, Sample.release))).isSome = true := by
    decide +kernel
  obtain ⟨t, ht⟩ := Option.isSome_iff_exists.mp hsignal
  exact exits_checkpointed Sample.config _ (Machine.Reachable.getD_guarded InstanceHost.new
    (InstanceHost.step Sample.config) InstanceHost.lasting
    (Sample.attach ++ Sample.prepare ++ Sample.exit)) _ t ht

/-- The exit signal fires after its preparation was aborted and a service unlocked. -/
theorem exit_not_checkpointed :
    (InstanceHost.machine Sample.config).Reachable (Sample.run Sample.lateAbort) ∧
      ¬ (Sample.run Sample.lateAbort).ExitsCheckpointed Sample.config := by
  refine ⟨Sample.run_reachable _, ?_⟩
  intro h
  have hsignal : (InstanceHost.step Sample.config (Sample.run Sample.lateAbort)
      (.signal (Sample.view, Sample.release))).isSome = true := by
    decide +kernel
  have hrunning : (Sample.run Sample.lateAbort).running.isSome = true := by
    decide +kernel
  obtain ⟨t, ht⟩ := Option.isSome_iff_exists.mp hsignal
  rw [(h _ t ht).running] at hrunning
  cases hrunning

end Host

end GChat
