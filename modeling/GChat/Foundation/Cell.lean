import Mathlib.Logic.Basic

/-!
# A value in memory and its copy on disk

A `Cell` is a value that is read in memory and survives on disk. `write` sends a
value to the disk; a write may be reported as failed before or after the disk
took it. `publish` makes a candidate visible in memory only once it is written.
-/

namespace Foundation

/-- What a store reports. A save may fail after the file was replaced. -/
inductive Written where
  | saved
  | failed (message : String)
  | failedWritten (message : String)
deriving DecidableEq

/-- The disk has the new value afterwards. -/
def Written.replaces : Written → Bool
  | .failed _ => false
  | _ => true

structure Cell (α : Type) where
  memory : α
  disk : α
deriving DecidableEq

namespace Cell

variable {α : Type} {c d : Cell α} {candidate : α} {outcome : Written}
  {result : Except String Unit}

/-- Write a value to the disk. -/
def write (c : Cell α) (candidate : α) : Written → Cell α × Except String Unit
  | .saved => ({ c with disk := candidate }, .ok ())
  | .failed message => (c, .error message)
  | .failedWritten message => ({ c with disk := candidate }, .error message)

/-- Save a candidate, and make it visible once it is saved. -/
def publish (c : Cell α) (candidate : α) (outcome : Written) : Cell α × Except String Unit :=
  match c.write candidate outcome with
  | (c, .ok _) => ({ c with memory := candidate }, .ok ())
  | (c, .error message) => (c, .error message)

theorem write_cases (h : c.write candidate outcome = (d, result)) :
    d.memory = c.memory ∧
      ((outcome = .saved ∧ result = .ok () ∧ d.disk = candidate) ∨
        (outcome ≠ .saved ∧ (∃ message, result = .error message) ∧
          (d.disk = c.disk ∨ d.disk = candidate))) := by
  cases outcome with
  | saved =>
      cases h
      exact ⟨rfl, Or.inl ⟨rfl, rfl, rfl⟩⟩
  | failed message =>
      cases h
      exact ⟨rfl, Or.inr ⟨by simp, ⟨message, rfl⟩, Or.inl rfl⟩⟩
  | failedWritten message =>
      cases h
      exact ⟨rfl, Or.inr ⟨by simp, ⟨message, rfl⟩, Or.inr rfl⟩⟩

/-- A candidate is visible exactly when its save succeeded. -/
theorem publish_cases (h : c.publish candidate outcome = (d, result)) :
    (outcome = .saved ∧ result = .ok () ∧ d.memory = candidate ∧ d.disk = candidate) ∨
      (outcome ≠ .saved ∧ (∃ message, result = .error message) ∧ d.memory = c.memory ∧
        (d.disk = c.disk ∨ (outcome.replaces = true ∧ d.disk = candidate))) := by
  cases outcome with
  | saved =>
      cases h
      exact Or.inl ⟨rfl, rfl, rfl, rfl⟩
  | failed message =>
      cases h
      exact Or.inr ⟨by simp, ⟨message, rfl⟩, rfl, Or.inl rfl⟩
  | failedWritten message =>
      cases h
      exact Or.inr ⟨by simp, ⟨message, rfl⟩, rfl, Or.inr ⟨rfl, rfl⟩⟩

end Cell

end Foundation
