import GChat.Host.Invariant

/-!
# Prepared means quiesced

While an update is prepared the running service and its child services should let
nobody in and have nothing under way. Two orders of the steps break this: an Unlock
that passed its check before the preparation opens a service after it, and the
background restore opens a child service that the preparation did not see. In every
run without these steps it holds.
-/

namespace GChat

namespace Host

open Foundation

/-- In every run in which no Unlock starts to open a service while an update is prepared and
the background restore opens no child past a preparation, prepared means quiesced. -/
theorem prepared_quiesced (config : Config) (s : InstanceHost)
    (h : ((InstanceHost.machine config).restrict fun s e => s.orderly e = true).Reachable s) :
    s.PreparedQuiesced := by
  have hinv : s.Inv := by
    apply h.invariant
    · intro s hs
      cases hs
      exact InstanceHost.inv_new
    · intro s e t _ hs hstep
      exact hs.step hstep.1 hstep.2
  exact hinv.preparedQuiesced

/-! ### Runs with one view -/

namespace Sample

def config : Config := ⟨true, false, 1, "boot"⟩

def view : String := "aaaaaaaaaaaaaaaaaaaaaaaaaaaaaaaa"

def release : String := "cccccccccccccccccccccccccccccccccccccccccccccccccccccccccccccccc"

def outside : Outside := ⟨none, false, 0⟩

def attach : List Event := [.update (.heartbeat view) 0, .advance outside]

def unlock : List Event := [.unlock, .unlockLocked, .unlocked true]

/-- Prepare with a running service that has no networks. -/
def pause : List Event :=
  [.update (.prepare view release) 0, .advance outside, .advance outside, .advance outside]

def run (events : List Event) : InstanceHost :=
  (events.foldlM (InstanceHost.step config) InstanceHost.new).getD InstanceHost.new

theorem run_reachable (events : List Event) :
    (InstanceHost.machine config).Reachable (run events) :=
  Machine.Reachable.getD_foldlM InstanceHost.new (InstanceHost.step config) events

/-- The run as far as its steps are orderly. -/
def orderlyRun (events : List Event) : InstanceHost :=
  (events.foldlM (fun (s : InstanceHost) e =>
    if s.orderly e then InstanceHost.step config s e else none) InstanceHost.new).getD
      InstanceHost.new

/-- A service is unlocked, and then an update prepared. -/
def paused : List Event := attach ++ unlock ++ pause

/-- The Unlock passes its check, the update is prepared, and the Unlock goes on. -/
def lateUnlock : List Event :=
  attach ++ [.unlock, .update (.prepare view release) 0, .advance outside, .unlockLocked,
    .unlocked true]

/-- The background restore opens a child after the preparation. -/
def lateRestore : List Event := paused ++ [.work (.restore "n")]

end Sample

theorem sample_quiesced : (Sample.orderlyRun Sample.paused).Prepared ∧
    (Sample.orderlyRun Sample.paused).running.isSome = true ∧
    ∀ svc, (Sample.orderlyRun Sample.paused).running = some svc → svc.Quiesced := by
  have hprepared : (Sample.orderlyRun Sample.paused).Prepared := by
    decide +kernel
  have hreachable := Machine.Reachable.getD_guarded InstanceHost.new
    (InstanceHost.step Sample.config) InstanceHost.orderly Sample.paused
  refine ⟨hprepared, by decide +kernel, ?_⟩
  exact prepared_quiesced Sample.config _ hreachable hprepared

/-- A service that was opened past the check, and a child that was opened past the pause, let
requests in while the update is prepared. -/
theorem prepared_not_quiesced :
    (InstanceHost.machine Sample.config).Reachable (Sample.run Sample.lateUnlock) ∧
      ¬ (Sample.run Sample.lateUnlock).PreparedQuiesced ∧
      (InstanceHost.machine Sample.config).Reachable (Sample.run Sample.lateRestore) ∧
      ¬ (Sample.run Sample.lateRestore).PreparedQuiesced := by
  refine ⟨Sample.run_reachable _, ?_, Sample.run_reachable _, ?_⟩
  · intro h
    have hgate : (Sample.run Sample.lateUnlock).running.map (·.gate.paused) = some false := by
      decide +kernel
    obtain ⟨svc, hsvc, hpaused⟩ := Option.map_eq_some_iff.mp hgate
    have hquiesced := h (by decide +kernel) svc hsvc
    rw [hquiesced.gate.paused] at hpaused
    cases hpaused
  · intro h
    have hgate : (Sample.run Sample.lateRestore).running.map
        (fun svc => svc.opening.map (·.gate.paused)) = some (some false) := by
      decide +kernel
    obtain ⟨svc, hsvc, hopening⟩ := Option.map_eq_some_iff.mp hgate
    obtain ⟨o, ho, hpaused⟩ := Option.map_eq_some_iff.mp hopening
    have hquiesced := h (by decide +kernel) svc hsvc
    rw [(hquiesced.opening o ho).paused] at hpaused
    cases hpaused

end Host

end GChat
