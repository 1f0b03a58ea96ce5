import GChat.Foundation.Outcome
import Mathlib.Data.Finset.Basic

/-!
# The gate of a service during an update

Every request that may change something enters the gate of its service and leaves it
at the end; an admitted operation is noted in it until it has completed. The gate is
paused only when nothing is under way, and then lets nobody enter.
-/

namespace GChat

namespace Host

open Foundation

structure Gate where
  paused : Bool
  requests : ℕ
  operations : Finset String
deriving DecidableEq

namespace Gate

def default : Gate := ⟨false, 0, ∅⟩

def enter (g : Gate) : Except String Gate := do
  refuse g.paused "This instance is preparing an update. Retry after it restarts."
  pure { g with requests := g.requests + 1 }

/-- A request drops its guard. -/
def leave (g : Gate) : Gate := { g with requests := g.requests - 1 }

def admitted (g : Gate) (id : String) : Gate := { g with operations := insert id g.operations }

def completed (g : Gate) (id : String) : Gate := { g with operations := g.operations.erase id }

def pause (g : Gate) : Except String Gate := do
  refuse (g.requests != 0 || decide (g.operations ≠ ∅))
    "An operation is still finishing. The update will wait."
  pure { g with paused := true }

def resume (g : Gate) : Gate := { g with paused := false }

/-- Nobody is let in and nothing is under way. -/
structure Quiesced (g : Gate) : Prop where
  refuses : ∃ message, g.enter = .error message
  requests : g.requests = 0
  operations : g.operations = ∅

theorem enter_eq_ok {g g' : Gate} (h : g.enter = .ok g') : g.paused = false := by
  simp only [enter, bind_eq_ok, refuse_eq_ok] at h
  obtain ⟨_, hpaused, -⟩ := h
  exact hpaused

theorem enter_of_paused {g : Gate} (h : g.paused = true) :
    g.enter = .error "This instance is preparing an update. Retry after it restarts." := by
  simp [enter, refuse, h, bind, Except.bind]

theorem Quiesced.paused {g : Gate} (h : g.Quiesced) : g.paused = true := by
  obtain ⟨message, hrefuses⟩ := h.refuses
  cases hpaused : g.paused with
  | true => rfl
  | false =>
      rw [enter, hpaused] at hrefuses
      cases hrefuses

theorem quiesced_of_paused {g : Gate} (hpaused : g.paused = true) (hrequests : g.requests = 0)
    (hoperations : g.operations = ∅) : g.Quiesced :=
  ⟨⟨_, enter_of_paused hpaused⟩, hrequests, hoperations⟩

/-- A gate that could be paused is quiesced. -/
theorem quiesced_of_pause {g g' : Gate} (h : g.pause = .ok g') : g'.Quiesced := by
  simp only [pause, bind_eq_ok, refuse_eq_ok, pure_eq_ok, Bool.or_eq_false_iff, bne_eq_false_iff_eq,
    decide_eq_false_iff_not, not_not] at h
  obtain ⟨_, hidle, rfl⟩ := h
  exact quiesced_of_paused rfl hidle.1 hidle.2

theorem pause_requests {g g' : Gate} (h : g.pause = .ok g') : g'.requests = g.requests := by
  simp only [pause, bind_eq_ok, pure_eq_ok] at h
  obtain ⟨_, -, rfl⟩ := h
  rfl

end Gate

/-! ### What requests do with a gate -/

inductive GateWork where
  | enter
  | leave
  | admitted (id : String)
  | completed (id : String)
deriving DecidableEq

/-- A step of a request. A guard is left and an operation admitted only under a guard;
`held` guards stay. -/
def Gate.work (g : Gate) (held : ℕ) : GateWork → Option Gate
  | .enter => g.enter.toOption
  | .leave => if held < g.requests then some g.leave else none
  | .admitted id => if 0 < g.requests then some (g.admitted id) else none
  | .completed id => some (g.completed id)

/-- Requests change nothing behind a quiesced gate. -/
theorem Gate.Quiesced.work {g g' : Gate} {held : ℕ} {w : GateWork} (h : g.Quiesced)
    (hwork : g.work held w = some g') : g' = g := by
  cases w with
  | enter =>
      have hpaused := enter_eq_ok (toOption_eq_some.mp hwork)
      rw [h.paused] at hpaused
      cases hpaused
  | leave =>
      simp [Gate.work, h.requests] at hwork
  | admitted id =>
      simp [Gate.work, h.requests] at hwork
  | completed id =>
      cases hwork
      have herase : g.operations.erase id = g.operations := by
        rw [h.operations, Finset.erase_empty]
      rw [Gate.completed, herase]

/-- The guards that stay are kept. -/
theorem Gate.work_requests {g g' : Gate} {held : ℕ} {w : GateWork} (h : held ≤ g.requests)
    (hwork : g.work held w = some g') : held ≤ g'.requests := by
  cases w with
  | enter =>
      have henter := toOption_eq_some.mp hwork
      simp only [Gate.enter, bind_eq_ok, pure_eq_ok] at henter
      obtain ⟨_, -, rfl⟩ := henter
      exact Nat.le_succ_of_le h
  | leave =>
      simp only [Gate.work] at hwork
      split at hwork
      case isTrue hlt =>
        cases hwork
        exact Nat.le_sub_one_of_lt hlt
      case isFalse => cases hwork
  | admitted id =>
      simp only [Gate.work] at hwork
      split at hwork
      · cases hwork
        exact h
      · cases hwork
  | completed id =>
      cases hwork
      exact h

end Host

end GChat
