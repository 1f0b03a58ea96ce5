import GChat.Host.Model

/-!
# Services that are paused

What it means for a service to be quiesced, and what its requests and its workers can
still do while it is, or while only some of its children are left to pause: nothing but
let the background restore open a child.
-/

namespace GChat

namespace Host

open Foundation

/-- All gates of a service are quiesced, also that of a child that is being opened. -/
structure Service.Quiesced (svc : Service) : Prop where
  gate : svc.gate.Quiesced
  networks : ∀ (name : String) (g : Gate), svc.networks[name]? = some g → g.Quiesced
  opening : ∀ o, svc.opening = some o → o.gate.Quiesced

namespace Service

variable {svc svc' : Service} {w : Work} {names : List String}

/-- The service is paused but for some of its children. -/
structure PausedBut (names : List String) (svc : Service) : Prop where
  gate : svc.gate.Quiesced
  opening : svc.opening = none
  networks : ∀ (name : String) (g : Gate), svc.networks[name]? = some g →
    name ∈ names ∨ g.Quiesced

theorem PausedBut.quiesced (h : svc.PausedBut []) : svc.Quiesced where
  gate := h.gate
  networks name g hg := (h.networks name g hg).resolve_left List.not_mem_nil
  opening o ho := by
    rw [h.opening] at ho
    cases ho

/-- A request that opens a child holds a guard of the service. -/
def Guarded (svc : Service) : Prop := svc.held ≤ svc.gate.requests

theorem Guarded.new : Service.new.Guarded := Nat.zero_le _

/-- Behind a quiesced gate only the background restore opens children. -/
theorem Guarded.opening (h : svc.Guarded) (hgate : svc.gate.Quiesced)
    (hrestore : ∀ o, svc.opening = some o → o.joining = true) : svc.opening = none := by
  cases ho : svc.opening with
  | none => rfl
  | some o =>
      rw [Guarded, held, ho, hgate.requests, Option.any_some, hrestore o ho] at h
      cases h

theorem Guarded.of_none (h : svc.opening = none) : svc.Guarded := by
  rw [Guarded, held, h]
  exact Nat.zero_le _

theorem Guarded.work (h : svc.Guarded) (hwork : svc.work w = some svc') : svc'.Guarded := by
  cases w with
  | own w =>
      obtain ⟨g, hg, rfl⟩ := Option.map_eq_some_iff.mp hwork
      exact Gate.work_requests h hg
  | child name w =>
      simp only [Service.work] at hwork
      split at hwork
      · obtain ⟨g, -, rfl⟩ := Option.map_eq_some_iff.mp hwork
        exact h
      · cases hwork
  | opened w =>
      simp only [Service.work] at hwork
      split at hwork
      case h_1 o ho =>
        obtain ⟨g, -, rfl⟩ := Option.map_eq_some_iff.mp hwork
        simpa [Guarded, held, ho] using h
      case h_2 => cases hwork
  | restore name =>
      simp only [Service.work] at hwork
      split at hwork
      · cases hwork
        simp [Guarded, held]
      · cases hwork
  | join name =>
      simp only [Service.work] at hwork
      split at hwork
      case isTrue hcheck =>
        cases hwork
        simp only [Bool.and_eq_true, decide_eq_true_iff] at hcheck
        simpa [Guarded, held] using Nat.succ_le_of_lt hcheck.2
      case isFalse => cases hwork
  | publish =>
      obtain ⟨o, -, rfl⟩ := Option.map_eq_some_iff.mp hwork
      exact Guarded.of_none rfl
  | abandon =>
      obtain ⟨o, -, rfl⟩ := Option.map_eq_some_iff.mp hwork
      exact Guarded.of_none rfl

/-- Work other than a restore keeps what is paused. -/
theorem PausedBut.work (h : svc.PausedBut names) (hw : ∀ name, w ≠ .restore name)
    (hwork : svc.work w = some svc') : svc'.PausedBut names := by
  cases w with
  | own w =>
      obtain ⟨g, hg, rfl⟩ := Option.map_eq_some_iff.mp hwork
      rw [h.gate.work hg]
      exact h
  | child name w =>
      simp only [Service.work] at hwork
      split at hwork
      case h_1 g hg =>
        obtain ⟨g', hg', rfl⟩ := Option.map_eq_some_iff.mp hwork
        refine ⟨h.gate, h.opening, ?_⟩
        intro a b hb
        simp only [StringMap.get_insert] at hb
        split at hb
        case isTrue heq =>
          cases hb
          subst heq
          obtain hmem | hquiesced := h.networks name g hg
          · exact Or.inl hmem
          · rw [hquiesced.work hg']
            exact Or.inr hquiesced
        case isFalse => exact h.networks a b hb
      case h_2 => cases hwork
  | opened w => simp [Service.work, h.opening] at hwork
  | restore name => exact absurd rfl (hw name)
  | join name => simp [Service.work, h.gate.requests] at hwork
  | publish => simp [Service.work, h.opening] at hwork
  | abandon => simp [Service.work, h.opening] at hwork

/-- A service stays quiesced on the outside when a restore opens a child. -/
theorem gate_work (h : svc.gate.Quiesced) (hwork : svc.work w = some svc') :
    svc'.gate = svc.gate := by
  cases w with
  | own w =>
      obtain ⟨g, hg, rfl⟩ := Option.map_eq_some_iff.mp hwork
      exact h.work hg
  | child name w =>
      simp only [Service.work] at hwork
      split at hwork
      · obtain ⟨g, -, rfl⟩ := Option.map_eq_some_iff.mp hwork
        rfl
      · cases hwork
  | opened w =>
      simp only [Service.work] at hwork
      split at hwork
      · obtain ⟨g, -, rfl⟩ := Option.map_eq_some_iff.mp hwork
        rfl
      · cases hwork
  | restore name =>
      simp only [Service.work] at hwork
      split at hwork
      · cases hwork
        rfl
      · cases hwork
  | join name =>
      simp only [Service.work] at hwork
      split at hwork
      · cases hwork
        rfl
      · cases hwork
  | publish =>
      obtain ⟨o, -, rfl⟩ := Option.map_eq_some_iff.mp hwork
      rfl
  | abandon =>
      obtain ⟨o, -, rfl⟩ := Option.map_eq_some_iff.mp hwork
      rfl

/-- The children that were collected are all that have to be paused. -/
theorem PausedBut.collected (hgate : svc.gate.Quiesced) (hopening : svc.opening = none) :
    svc.PausedBut svc.networks.keys where
  gate := hgate
  opening := hopening
  networks name g hg := by
    left
    exact Std.ExtTreeMap.mem_keys.mpr (StringMap.mem_of_get hg)

/-- One child less has to be paused. -/
theorem PausedBut.child {name : String} (h : svc.PausedBut (name :: names))
    (hpause : svc.childPaused name = .ok svc') : svc'.PausedBut names := by
  unfold Service.childPaused at hpause
  split at hpause
  case h_1 g hg =>
    obtain ⟨g', hg', rfl⟩ := map_eq_ok.mp hpause
    refine ⟨h.gate, h.opening, ?_⟩
    intro a b hb
    simp only [StringMap.get_insert] at hb
    split at hb
    case isTrue =>
      cases hb
      exact Or.inr (Gate.quiesced_of_pause hg')
    case isFalse hne =>
      obtain hmem | hquiesced := h.networks a b hb
      · exact Or.inl ((List.mem_cons.mp hmem).resolve_left fun heq => hne heq.symm)
      · exact Or.inr hquiesced
  case h_2 hnone =>
    cases hpause
    refine ⟨h.gate, h.opening, ?_⟩
    intro a b hb
    obtain hmem | hquiesced := h.networks a b hb
    · obtain rfl | hmem := List.mem_cons.mp hmem
      · rw [hnone] at hb
        cases hb
      · exact Or.inl hmem
    · exact Or.inr hquiesced

theorem Guarded.childResumed (h : svc.Guarded) (name : String) :
    (svc.childResumed name).Guarded := by
  unfold Service.childResumed
  split
  · exact h
  · exact h

theorem Guarded.childPaused {name : String} (h : svc.Guarded)
    (hpause : svc.childPaused name = .ok svc') : svc'.Guarded := by
  unfold Service.childPaused at hpause
  split at hpause
  · obtain ⟨g, -, rfl⟩ := map_eq_ok.mp hpause
    exact h
  · cases hpause
    exact h

end Service

end Host

end GChat
