import Mathlib.Data.List.MinMax

/-!
# Registers of the last writer

A register takes a write if its stamp is above every stamp it took before. A cleared
register forgets its value but not its stamp, so that a write from before does not come
back. `Follows` relates a register to the writes it took since it was cleared: the value
is the write with the greatest stamp, in whatever order the writes arrive.
-/

namespace Foundation

structure Register (α : Type*) where
  stamp : ℕ
  value : Option α

namespace Register

variable {α : Type*} {stampOf : α → ℕ} {r : Register α} {log : List α} {w : α}

def write (stampOf : α → ℕ) (r : Register α) (w : α) : Register α :=
  if r.stamp < stampOf w then ⟨stampOf w, some w⟩ else r

def clear (r : Register α) : Register α := { r with value := none }

/-- The writes a register took since it was cleared, the oldest first. -/
structure Follows (stampOf : α → ℕ) (r : Register α) (log : List α) : Prop where
  increasing : log.Pairwise fun v w => stampOf v < stampOf w
  bounded : ∀ w ∈ log, stampOf w ≤ r.stamp
  value : r.value = log.getLast?

theorem write_of_lt (h : r.stamp < stampOf w) : r.write stampOf w = ⟨stampOf w, some w⟩ := by
  rw [write, if_pos h]

/-- A write that was taken once changes nothing any more. -/
theorem write_of_le (h : stampOf w ≤ r.stamp) : r.write stampOf w = r := by
  rw [write, if_neg (Nat.not_lt.mpr h)]

namespace Follows

theorem start (stamp : ℕ) : Follows stampOf ⟨stamp, none⟩ [] where
  increasing := List.Pairwise.nil
  bounded := by simp
  value := rfl

theorem clear (stampOf : α → ℕ) (r : Register α) : Follows stampOf r.clear [] :=
  start r.stamp

theorem taken (h : Follows stampOf r log) (hw : r.stamp < stampOf w) :
    Follows stampOf (r.write stampOf w) (log ++ [w]) where
  increasing := by
    rw [List.pairwise_append]
    refine ⟨h.increasing, List.pairwise_singleton _ _, ?_⟩
    intro v hv u hu
    rw [List.mem_singleton.mp hu]
    exact Nat.lt_of_le_of_lt (h.bounded v hv) hw
  bounded := by
    intro v hv
    rw [write_of_lt hw]
    obtain hold | hnew := List.mem_append.mp hv
    · exact ((h.bounded v hold).trans_lt hw).le
    · rw [List.mem_singleton.mp hnew]
  value := by
    rw [write_of_lt hw, List.getLast?_concat]

end Follows

/-- In a list with increasing stamps the last entry has the greatest one. -/
theorem argmax_eq_getLast? (h : log.Pairwise fun v w => stampOf v < stampOf w) :
    log.argmax stampOf = log.getLast? := by
  induction log using List.reverseRecOn with
  | nil => rfl
  | append_singleton log w ih =>
      obtain ⟨hlog, -, hlast⟩ := List.pairwise_append.mp h
      rw [List.argmax_concat, ih hlog, List.getLast?_concat]
      cases hv : log.getLast? with
      | none => rfl
      | some v =>
          have hlt : stampOf v < stampOf w :=
            hlast v (List.mem_of_getLast? hv) w (List.mem_singleton_self w)
          exact if_pos hlt

/-- The value is the write with the greatest stamp. -/
theorem Follows.greatest (h : Follows stampOf r log) : r.value = log.argmax stampOf := by
  rw [argmax_eq_getLast? h.increasing, h.value]

end Register

end Foundation
