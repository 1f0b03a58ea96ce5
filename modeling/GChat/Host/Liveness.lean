import GChat.Foundation.Machine
import GChat.Host.Gate
import Mathlib.Data.Finset.Card
import Mathlib.Logic.Function.Basic

/-!
# Typed operations and the gate

Tasks hold the request guards of a gate, and run typed operations: an operation is
admitted under a guard, invoked, and its result is saved. The invocation and the save
each have a guard that takes the admission out of the gate when it is dropped. Between
the two, and before the first, no guard holds the admission.
-/

namespace GChat

namespace Host

open Foundation

/-- Where the execution of an admitted operation stands. -/
inductive Phase where
  | admitted
  /-- Invoked, but the service is still looked up. -/
  | starting
  /-- The handler runs, with a guard if the service was found. -/
  | executing (guarded : Bool)
  /-- The result is known and the guard disarmed. -/
  | known
  /-- The completion is called, but the service is still looked up. -/
  | completing
  /-- The completion is saved under its guard. -/
  | saving
deriving DecidableEq

/-- What a task does. -/
inductive Move where
  | enter
  | leave
  | admitted (id : String)
  | invoke
  /-- The endpoint still has this service, or not. -/
  | found (service : Bool)
  | result
  /-- The handler ends with an error or an unknown outcome, panics or is cancelled. -/
  | failed
  | complete
  /-- The completion has been saved, or failed, panicked or was cancelled. -/
  | ended
  /-- The task panics or is cancelled at another place. -/
  | dropped
deriving DecidableEq

/-- How an execution goes on; at its end it takes its admission out of the gate, or not. -/
inductive Passage where
  | goes (phase : Phase)
  | released
  | lost
deriving DecidableEq

def Phase.next : Phase → Move → Option Passage
  | .admitted, .invoke => some (.goes .starting)
  | .starting, .found service => some (.goes (.executing service))
  | .executing _, .result => some (.goes .known)
  | .executing guarded, .failed => some (if guarded then .released else .lost)
  | .known, .complete => some (.goes .completing)
  | .completing, .found service => some (if service then .goes .saving else .lost)
  | .saving, .ended => some .released
  | .admitted, .dropped => some .lost
  | .starting, .dropped => some .lost
  | .known, .dropped => some .lost
  | .completing, .dropped => some .lost
  | _, _ => none

/-- A gate, the tasks that hold a guard of a request, and the executions. -/
structure Executions where
  gate : Gate
  guards : Finset ℕ
  running : ℕ → Option (String × Phase)

namespace Executions

def new : Executions := ⟨Gate.default, ∅, fun _ => none⟩

inductive Event where
  | task (t : ℕ) (m : Move)
  | pause
  | resume
deriving DecidableEq

def pass (s : Executions) (t : ℕ) (id : String) : Passage → Executions
  | .goes phase => { s with running := Function.update s.running t (some (id, phase)) }
  | .released =>
      { s with gate := s.gate.completed id, running := Function.update s.running t none }
  | .lost => { s with running := Function.update s.running t none }

def step (s : Executions) : Event → Option Executions
  | .task t .enter =>
      if t ∈ s.guards then none
      else s.gate.enter.toOption.map fun g => { s with gate := g, guards := insert t s.guards }
  | .task t .leave =>
      if t ∈ s.guards then some { s with gate := s.gate.leave, guards := s.guards.erase t }
      else none
  | .task t (.admitted id) =>
      if t ∈ s.guards ∧ s.running t = none then
        some { s with
          gate := s.gate.admitted id
          running := Function.update s.running t (some (id, .admitted)) }
      else none
  | .task t m =>
      match s.running t with
      | some (id, phase) => (phase.next m).map (s.pass t id)
      | none => none
  | .pause => s.gate.pause.toOption.map fun g => { s with gate := g }
  | .resume => some { s with gate := s.gate.resume }

def machine : Machine Executions Event := Machine.ofPartial new step

/-- No operation is admitted while its id is still noted in the gate, the endpoint keeps the
service while its operations run, and no task is dropped where no guard holds its
admission. -/
def guarded (s : Executions) : Event → Bool
  | .task _ (.admitted id) => decide (id ∉ s.gate.operations)
  | .task _ (.found service) => service
  | .task _ .dropped => false
  | _ => true

/-- What a step can do. -/
inductive Next (s : Executions) : Event → Executions → Prop
  | enter {t : ℕ} {g : Gate} : t ∉ s.guards → s.gate.enter = .ok g →
      Next s (.task t .enter) { s with gate := g, guards := insert t s.guards }
  | leave {t : ℕ} : t ∈ s.guards →
      Next s (.task t .leave) { s with gate := s.gate.leave, guards := s.guards.erase t }
  | admitted {t : ℕ} {id : String} : t ∈ s.guards → s.running t = none →
      Next s (.task t (.admitted id)) { s with
        gate := s.gate.admitted id
        running := Function.update s.running t (some (id, .admitted)) }
  | goes {t : ℕ} {m : Move} {id : String} {phase phase' : Phase} :
      s.running t = some (id, phase) → phase.next m = some (.goes phase') →
      Next s (.task t m) { s with running := Function.update s.running t (some (id, phase')) }
  | released {t : ℕ} {m : Move} {id : String} {phase : Phase} :
      s.running t = some (id, phase) → phase.next m = some .released →
      Next s (.task t m) { s with
        gate := s.gate.completed id
        running := Function.update s.running t none }
  | lost {t : ℕ} {m : Move} {id : String} {phase : Phase} :
      s.running t = some (id, phase) → phase.next m = some .lost →
      Next s (.task t m) { s with running := Function.update s.running t none }
  | pause {g : Gate} : s.gate.pause = .ok g → Next s .pause { s with gate := g }
  | resume : Next s .resume { s with gate := s.gate.resume }

variable {s s' : Executions} {e : Event} {id : String} {t : ℕ} {m : Move}

theorem pass_cases (h : (match s.running t with
    | some (id, phase) => (phase.next m).map (s.pass t id)
    | none => none) = some s') : s.Next (.task t m) s' := by
  split at h
  case h_1 id phase hrunning =>
    obtain ⟨passage, hnext, rfl⟩ := Option.map_eq_some_iff.mp h
    cases passage with
    | goes phase' => exact .goes hrunning hnext
    | released => exact .released hrunning hnext
    | lost => exact .lost hrunning hnext
  case h_2 => cases h

theorem step_cases (h : s.step e = some s') : s.Next e s' := by
  cases e with
  | pause =>
      obtain ⟨g, hg, rfl⟩ := Option.map_eq_some_iff.mp h
      exact .pause (toOption_eq_some.mp hg)
  | resume =>
      cases h
      exact .resume
  | task t m =>
      cases m with
      | enter =>
          simp only [step] at h
          split at h
          case isTrue => cases h
          case isFalse hfree =>
            obtain ⟨g, hg, rfl⟩ := Option.map_eq_some_iff.mp h
            exact .enter hfree (toOption_eq_some.mp hg)
      | leave =>
          simp only [step] at h
          split at h
          case isTrue hheld =>
            cases h
            exact .leave hheld
          case isFalse => cases h
      | admitted id =>
          simp only [step] at h
          split at h
          case isTrue hfree =>
            cases h
            exact .admitted hfree.1 hfree.2
          case isFalse => cases h
      | invoke => exact pass_cases h
      | found service => exact pass_cases h
      | result => exact pass_cases h
      | failed => exact pass_cases h
      | complete => exact pass_cases h
      | ended => exact pass_cases h
      | dropped => exact pass_cases h

/-! ### The counter of the requests -/

/-- The counter counts the guards, and behind a paused gate nothing is under way. -/
structure Counted (s : Executions) : Prop where
  requests : s.gate.requests = s.guards.card
  paused : s.gate.paused = true → s.guards = ∅ ∧ s.gate.operations = ∅

theorem Counted.positive (h : s.Counted) (ht : t ∈ s.guards) : 0 < s.gate.requests := by
  rw [h.requests]
  exact Finset.card_pos.mpr ⟨t, ht⟩

theorem Counted.not_paused (h : s.Counted) (ht : t ∈ s.guards) : s.gate.paused = false := by
  cases hpaused : s.gate.paused with
  | false => rfl
  | true =>
      rw [(h.paused hpaused).1] at ht
      cases ht

theorem Counted.step (h : s.Counted) (hnext : s.Next e s') : s'.Counted := by
  cases hnext with
  | @enter t g hfree henter =>
      have hopen := Gate.enter_eq_ok henter
      simp only [Gate.enter, bind_eq_ok, pure_eq_ok] at henter
      obtain ⟨_, -, rfl⟩ := henter
      constructor
      · simp [Finset.card_insert_of_notMem hfree, h.requests]
      · intro hpaused
        rw [hopen] at hpaused
        cases hpaused
  | @leave t hheld =>
      constructor
      · simp [Gate.leave, Finset.card_erase_of_mem hheld, h.requests]
      · intro hpaused
        rw [Gate.leave, h.not_paused hheld] at hpaused
        cases hpaused
  | @admitted t id hheld hidle =>
      refine ⟨h.requests, ?_⟩
      intro hpaused
      rw [Gate.admitted, h.not_paused hheld] at hpaused
      cases hpaused
  | goes => exact ⟨h.requests, h.paused⟩
  | released =>
      refine ⟨h.requests, ?_⟩
      intro hpaused
      obtain ⟨hguards, hoperations⟩ := h.paused hpaused
      exact ⟨hguards, by rw [Gate.completed, hoperations, Finset.erase_empty]⟩
  | lost => exact ⟨h.requests, h.paused⟩
  | @pause g hpause =>
      have hquiesced := Gate.quiesced_of_pause hpause
      have hrequests := Gate.pause_requests hpause
      constructor
      · rw [hrequests, h.requests]
      · intro _
        refine ⟨?_, hquiesced.operations⟩
        rw [← Finset.card_eq_zero, ← h.requests, ← hrequests, hquiesced.requests]
  | resume =>
      refine ⟨h.requests, ?_⟩
      intro hpaused
      cases hpaused

theorem counted_of_reachable (h : machine.Reachable s) : s.Counted := by
  apply h.invariant
  · intro s hs
    cases hs
    exact ⟨rfl, fun hpaused => by cases hpaused⟩
  · intro s e s' _ hs hstep
    exact hs.step (step_cases hstep)

/-- What the tasks do with the gate is what the requests of a service may do with it. -/
theorem gate_step (h : s.Counted) (hstep : s.step e = some s') :
    s'.gate = s.gate ∨ (∃ w, s.gate.work 0 w = some s'.gate) ∨ s.gate.pause = .ok s'.gate ∨
      s'.gate = s.gate.resume := by
  cases step_cases hstep with
  | enter _ henter =>
      refine Or.inr (Or.inl ⟨.enter, ?_⟩)
      rw [Gate.work, henter]
      rfl
  | leave hheld =>
      refine Or.inr (Or.inl ⟨.leave, ?_⟩)
      rw [Gate.work, if_pos (h.positive hheld)]
  | @admitted t id hheld _ =>
      refine Or.inr (Or.inl ⟨.admitted id, ?_⟩)
      rw [Gate.work, if_pos (h.positive hheld)]
  | goes => exact Or.inl rfl
  | @released t m id => exact Or.inr (Or.inl ⟨.completed id, rfl⟩)
  | lost => exact Or.inl rfl
  | pause hpause => exact Or.inr (Or.inr (Or.inl hpause))
  | resume => exact Or.inr (Or.inr (Or.inr rfl))

/-! ### Admissions -/

/-- The gate notes the operations that are executed, each by one task and with a guard while
its handler runs. -/
structure Live (s : Executions) : Prop where
  outstanding : ∀ t id phase, s.running t = some (id, phase) → id ∈ s.gate.operations
  released : ∀ id ∈ s.gate.operations, ∃ t phase, s.running t = some (id, phase)
  once : ∀ t u id phase phase', s.running t = some (id, phase) →
    s.running u = some (id, phase') → t = u
  handled : ∀ t id, s.running t ≠ some (id, .executing false)

/-- The gate changes, but not the operations in it. -/
theorem Live.gate (h : s.Live) {g : Gate} (guards : Finset ℕ)
    (hoperations : g.operations = s.gate.operations) :
    ({ s with gate := g, guards := guards } : Executions).Live where
  outstanding t id phase hrunning := hoperations ▸ h.outstanding t id phase hrunning
  released id hid := h.released id (hoperations ▸ hid)
  once := h.once
  handled := h.handled

theorem Live.admitted (h : s.Live) (hidle : s.running t = none)
    (hnew : id ∉ s.gate.operations) :
    ({ s with
      gate := s.gate.admitted id
      running := Function.update s.running t (some (id, .admitted)) } : Executions).Live where
  outstanding u id' phase hrunning := by
    simp only [Function.update_apply] at hrunning
    split at hrunning
    · cases hrunning
      exact Finset.mem_insert_self ..
    · exact Finset.mem_insert_of_mem (h.outstanding u id' phase hrunning)
  released id' hid := by
    obtain rfl | hid := Finset.mem_insert.mp hid
    · exact ⟨t, .admitted, Function.update_self ..⟩
    · obtain ⟨u, phase, hrunning⟩ := h.released id' hid
      refine ⟨u, phase, ?_⟩
      rw [← hrunning]
      apply Function.update_of_ne
      rintro rfl
      rw [hidle] at hrunning
      cases hrunning
  once u v id' phase phase' hu hv := by
    simp only [Function.update_apply] at hu hv
    split at hu
    case isTrue hut =>
      cases hu
      split at hv
      case isTrue hvt => exact hut.trans hvt.symm
      case isFalse => exact absurd (h.outstanding v id phase' hv) hnew
    case isFalse =>
      split at hv
      case isTrue =>
        cases hv
        exact absurd (h.outstanding u id phase hu) hnew
      case isFalse => exact h.once u v id' phase phase' hu hv
  handled u id' hrunning := by
    simp only [Function.update_apply] at hrunning
    split at hrunning
    · cases hrunning
    · exact h.handled u id' hrunning

theorem Live.goes (h : s.Live) {phase phase' : Phase} (hrunning : s.running t = some (id, phase))
    (hhandled : phase' ≠ .executing false) :
    ({ s with running := Function.update s.running t (some (id, phase')) } : Executions).Live where
  outstanding u id' p hu := by
    simp only [Function.update_apply] at hu
    split at hu
    · cases hu
      exact h.outstanding t id phase hrunning
    · exact h.outstanding u id' p hu
  released id' hid := by
    obtain ⟨u, p, hu⟩ := h.released id' hid
    by_cases hut : u = t
    case pos =>
      subst hut
      rw [hrunning] at hu
      cases hu
      exact ⟨u, phase', Function.update_self ..⟩
    case neg => exact ⟨u, p, (Function.update_of_ne hut ..).trans hu⟩
  once u v id' p q hu hv := by
    have hold : ∀ w r, Function.update s.running t (some (id, phase')) w = some (id', r) →
        ∃ r, s.running w = some (id', r) := by
      intro w r hw
      simp only [Function.update_apply] at hw
      split at hw
      case isTrue heq =>
        cases hw
        exact ⟨phase, heq ▸ hrunning⟩
      case isFalse => exact ⟨r, hw⟩
    obtain ⟨_, hu⟩ := hold u p hu
    obtain ⟨_, hv⟩ := hold v q hv
    exact h.once u v id' _ _ hu hv
  handled u id' hu := by
    simp only [Function.update_apply] at hu
    split at hu
    · cases hu
      exact hhandled rfl
    · exact h.handled u id' hu

theorem Live.release (h : s.Live) {phase : Phase} (hrunning : s.running t = some (id, phase)) :
    ({ s with
      gate := s.gate.completed id
      running := Function.update s.running t none } : Executions).Live where
  outstanding u id' p hu := by
    simp only [Function.update_apply] at hu
    split at hu
    case isTrue => cases hu
    case isFalse hut =>
      refine Finset.mem_erase.mpr ⟨?_, h.outstanding u id' p hu⟩
      rintro rfl
      exact hut (h.once u t id' p phase hu hrunning)
  released id' hid := by
    obtain ⟨hne, hid⟩ := Finset.mem_erase.mp hid
    obtain ⟨u, p, hu⟩ := h.released id' hid
    refine ⟨u, p, ?_⟩
    rw [← hu]
    apply Function.update_of_ne
    rintro rfl
    rw [hrunning] at hu
    cases hu
    exact hne rfl
  once u v id' p q hu hv := by
    simp only [Function.update_apply] at hu hv
    split at hu
    · cases hu
    split at hv
    · cases hv
    exact h.once u v id' p q hu hv
  handled u id' hu := by
    simp only [Function.update_apply] at hu
    split at hu
    · cases hu
    · exact h.handled u id' hu

/-- With its guards in place an execution ends by a release. -/
theorem next_guarded {phase : Phase} {passage : Passage}
    (hguarded : s.guarded (.task t m) = true) (hphase : phase ≠ .executing false)
    (hnext : phase.next m = some passage) :
    passage ≠ .lost ∧ passage ≠ .goes (.executing false) := by
  unfold Phase.next at hnext
  split at hnext
  case h_2 service =>
    have hfound : service = true := hguarded
    cases hnext
    simp [hfound]
  case h_4 handled =>
    cases handled with
    | true =>
        cases hnext
        simp
    | false => exact absurd rfl hphase
  case h_6 service =>
    have hfound : service = true := hguarded
    cases hnext
    simp [hfound]
  all_goals
    cases hnext
    try cases hguarded
    try simp

theorem Live.step (h : s.Live) (hguarded : s.guarded e = true) (hnext : s.Next e s') :
    s'.Live := by
  cases hnext with
  | enter _ henter =>
      simp only [Gate.enter, bind_eq_ok, pure_eq_ok] at henter
      obtain ⟨_, -, rfl⟩ := henter
      exact h.gate _ rfl
  | leave => exact h.gate _ rfl
  | admitted _ hidle => exact h.admitted hidle (of_decide_eq_true hguarded)
  | @goes t m id phase phase' hrunning hpass =>
      have hphase : phase ≠ .executing false := by
        rintro rfl
        exact h.handled t id hrunning
      have hgood := (next_guarded hguarded hphase hpass).2
      exact h.goes hrunning fun heq => hgood (by rw [heq])
  | released hrunning => exact h.release hrunning
  | @lost t m id phase hrunning hpass =>
      have hphase : phase ≠ .executing false := by
        rintro rfl
        exact h.handled t id hrunning
      exact absurd rfl (next_guarded hguarded hphase hpass).1
  | pause hpause =>
      simp only [Gate.pause, bind_eq_ok, pure_eq_ok] at hpause
      obtain ⟨_, -, rfl⟩ := hpause
      exact h.gate _ rfl
  | resume => exact h.gate _ rfl

theorem live_new : new.Live where
  outstanding _ _ _ hrunning := by cases hrunning
  released _ hid := by cases hid
  once _ _ _ _ _ hrunning := by cases hrunning
  handled _ _ hrunning := by cases hrunning

/-! ### Admissions that are lost -/

/-- The gate notes an operation that no task executes. -/
structure Lost (id : String) (s : Executions) : Prop where
  outstanding : id ∈ s.gate.operations
  idle : ∀ t phase, s.running t ≠ some (id, phase)

theorem Lost.step (h : s.Lost id) (hadmitted : ∀ t, e ≠ .task t (.admitted id))
    (hnext : s.Next e s') : s'.Lost id := by
  cases hnext with
  | enter _ henter =>
      simp only [Gate.enter, bind_eq_ok, pure_eq_ok] at henter
      obtain ⟨_, -, rfl⟩ := henter
      exact ⟨h.outstanding, h.idle⟩
  | leave => exact ⟨h.outstanding, h.idle⟩
  | @admitted t id' =>
      refine ⟨Finset.mem_insert_of_mem h.outstanding, ?_⟩
      intro u phase hrunning
      simp only [Function.update_apply] at hrunning
      split at hrunning
      · cases hrunning
        exact hadmitted t rfl
      · exact h.idle u phase hrunning
  | @goes t m id' phase phase' hold =>
      refine ⟨h.outstanding, ?_⟩
      intro u p hrunning
      simp only [Function.update_apply] at hrunning
      split at hrunning
      · cases hrunning
        exact h.idle t phase hold
      · exact h.idle u p hrunning
  | @released t m id' phase hold =>
      refine ⟨Finset.mem_erase.mpr ⟨?_, h.outstanding⟩, ?_⟩
      · rintro rfl
        exact h.idle t phase hold
      · intro u p hrunning
        simp only [Function.update_apply] at hrunning
        split at hrunning
        · cases hrunning
        · exact h.idle u p hrunning
  | lost =>
      refine ⟨h.outstanding, ?_⟩
      intro u p hrunning
      simp only [Function.update_apply] at hrunning
      split at hrunning
      · cases hrunning
      · exact h.idle u p hrunning
  | pause hpause =>
      simp only [Gate.pause, bind_eq_ok, pure_eq_ok] at hpause
      obtain ⟨_, -, rfl⟩ := hpause
      exact ⟨h.outstanding, h.idle⟩
  | resume => exact ⟨h.outstanding, h.idle⟩

/-- It stays as long as the same id is not admitted once more. -/
theorem Lost.run {events : List Event} (h : s.Lost id)
    (hadmitted : ∀ e ∈ events, ∀ t, e ≠ .task t (.admitted id))
    (hrun : events.foldlM Executions.step s = some s') : s'.Lost id := by
  induction events generalizing s with
  | nil =>
      cases hrun
      exact h
  | cons e events ih =>
      rw [List.foldlM_cons, Option.bind_eq_bind, Option.bind_eq_some_iff] at hrun
      obtain ⟨u, hstep, hrest⟩ := hrun
      have hlost := h.step (hadmitted e List.mem_cons_self) (step_cases hstep)
      exact ih hlost (fun e he => hadmitted e (List.mem_cons_of_mem _ he)) hrest

/-- A lost admission keeps every update from being prepared. -/
theorem Lost.pause (h : s.Lost id) : s.step .pause = none := by
  have hne : s.gate.operations ≠ ∅ := Finset.ne_empty_of_mem h.outstanding
  simp [Executions.step, Gate.pause, refuse, hne, bind, Except.bind, Except.toOption]

/-! ### Safety of the gate -/

structure Safe (s : Executions) : Prop where
  pauses : s.step .pause ≠ none → s.guards = ∅ ∧ ∀ t, s.running t = none
  enters : s.gate.paused = true → ∀ t, s.step (.task t .enter) = none
  requests : s.gate.requests = s.guards.card
  positive : ∀ t ∈ s.guards, 0 < s.gate.requests
  operations : ∀ id, id ∈ s.gate.operations ↔ ∃ t phase, s.running t = some (id, phase)

theorem Live.safe (h : s.Live) (hcounted : s.Counted) : s.Safe where
  pauses hpause := by
    obtain ⟨s', hpause⟩ := Option.ne_none_iff_exists'.mp hpause
    obtain ⟨g, hg, -⟩ := Option.map_eq_some_iff.mp hpause
    have hpaused := toOption_eq_some.mp hg
    have hquiesced := Gate.quiesced_of_pause hpaused
    have hoperations : s.gate.operations = ∅ := by
      simp only [Gate.pause, bind_eq_ok, pure_eq_ok] at hpaused
      obtain ⟨_, -, rfl⟩ := hpaused
      exact hquiesced.operations
    constructor
    · rw [← Finset.card_eq_zero, ← hcounted.requests, ← Gate.pause_requests hpaused,
        hquiesced.requests]
    · intro t
      cases hrunning : s.running t with
      | none => rfl
      | some execution =>
          have hid := h.outstanding t execution.1 execution.2 hrunning
          rw [hoperations] at hid
          cases hid
  enters hpaused t := by
    simp [Executions.step, Gate.enter_of_paused hpaused, Except.toOption]
  requests := hcounted.requests
  positive _ ht := hcounted.positive ht
  operations id := by
    constructor
    · exact h.released id
    · rintro ⟨t, phase, hrunning⟩
      exact h.outstanding t id phase hrunning

theorem Lost.not_safe (h : s.Lost id) : ¬ s.Safe := by
  intro hsafe
  obtain ⟨t, phase, hrunning⟩ := (hsafe.operations id).mp h.outstanding
  exact h.idle t phase hrunning

end Executions

/-- In every run in which no operation is admitted while its id is noted, the endpoint keeps
the service and no task is dropped between its guards, the gate is safe. -/
theorem gate_safe (s : Executions)
    (h : (Executions.machine.restrict fun s e => s.guarded e = true).Reachable s) : s.Safe := by
  have hlive : s.Live := by
    apply h.invariant
    · intro s hs
      cases hs
      exact Executions.live_new
    · intro s e s' _ hs hstep
      exact hs.step hstep.1 (Executions.step_cases hstep.2)
  exact hlive.safe (Executions.counted_of_reachable h.of_restrict)

namespace Sample

/-- A task admits an operation and invokes it. -/
def executes (t : ℕ) (id : String) : List Executions.Event :=
  [Move.enter, .admitted id, .leave, .invoke, .found true].map (.task t)

def saves (t : ℕ) : List Executions.Event :=
  [Move.result, .complete, .found true, .ended].map (.task t)

/-- The result is known, and the task is dropped before its completion has a guard. -/
def drops (t : ℕ) : List Executions.Event := [Move.result, .complete, .dropped].map (.task t)

def tasks (events : List Executions.Event) : Executions :=
  (events.foldlM Executions.step Executions.new).getD Executions.new

def guardedTasks (events : List Executions.Event) : Executions :=
  (events.foldlM (fun (s : Executions) e => if s.guarded e then s.step e else none)
    Executions.new).getD Executions.new

end Sample

theorem sample_gate_safe :
    (Sample.guardedTasks (Sample.executes 0 "a" ++ Sample.saves 0 ++
      Sample.executes 1 "b")).gate.operations = {"b"} ∧
    (Sample.guardedTasks (Sample.executes 0 "a" ++ Sample.saves 0 ++
      Sample.executes 1 "b")).Safe := by
  refine ⟨rfl, gate_safe _ ?_⟩
  exact Machine.Reachable.getD_guarded Executions.new Executions.step Executions.guarded _

/-- A task that is dropped before its completion has a guard leaves its admission behind, and
an operation that is admitted anew while it runs loses it to the first end: the gate is then
paused while the second one runs. -/
theorem gate_unsafe :
    Executions.machine.Reachable (Sample.tasks (Sample.executes 0 "a" ++ Sample.drops 0)) ∧
      ¬ (Sample.tasks (Sample.executes 0 "a" ++ Sample.drops 0)).Safe ∧
      Executions.machine.Reachable
        (Sample.tasks (Sample.executes 0 "a" ++ Sample.executes 1 "a" ++ Sample.saves 0)) ∧
      ¬ (Sample.tasks (Sample.executes 0 "a" ++ Sample.executes 1 "a" ++ Sample.saves 0)).Safe := by
  refine ⟨Machine.Reachable.getD_foldlM _ _ _, ?_, Machine.Reachable.getD_foldlM _ _ _, ?_⟩
  · have hlost : (Sample.tasks (Sample.executes 0 "a" ++ Sample.drops 0)).Lost "a" := by
      refine ⟨by decide +kernel, ?_⟩
      intro t phase hrunning
      have hidle : (Sample.tasks (Sample.executes 0 "a" ++ Sample.drops 0)).running =
          Function.update (Function.update (Function.update (Function.update (Function.update
            (Function.update (fun _ => none) 0 _) 0 _) 0 _) 0 _) 0 _) 0 none := rfl
      simp only [Function.update_idem] at hidle
      rw [hidle, Function.update_apply, ite_self] at hrunning
      cases hrunning
    exact hlost.not_safe
  · intro h
    have hidle := (h.pauses (by decide +kernel)).2 1
    have hrunning : (Sample.tasks (Sample.executes 0 "a" ++ Sample.executes 1 "a" ++
        Sample.saves 0)).running 1 = some ("a", .executing true) := rfl
    rw [hidle] at hrunning
    cases hrunning

end Host

end GChat
