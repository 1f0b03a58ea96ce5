import Mathlib.Data.List.Basic

/-!
# Machines and the states they reach

A machine has starting states and labelled steps. `Reachable` is the least set
of states closed under its steps, and `Reachable.invariant` is the induction
over runs, stated once. `restrict C` keeps the steps whose label meets `C` in
the state they are taken from: its reachable states are those of the runs all
of whose steps meet `C`.
-/

namespace Foundation

/-- Starting states, and the steps `next s i t` from `s` to `t` under the label
`i`. -/
structure Machine (State Label : Type*) where
  start : State → Prop
  next : State → Label → State → Prop

namespace Machine

variable {State Label : Type*}

/-- The states the machine reaches. -/
inductive Reachable (M : Machine State Label) : State → Prop
  | start {s : State} : M.start s → Reachable M s
  | step {s t : State} {i : Label} : Reachable M s → M.next s i t → Reachable M t

/-- What holds at the start and is preserved by every step from a reachable
state holds of every reachable state. -/
theorem Reachable.invariant {M : Machine State Label} {I : State → Prop}
    (hstart : ∀ s, M.start s → I s)
    (hnext : ∀ s i t, M.Reachable s → I s → M.next s i t → I t)
    {s : State} (hs : M.Reachable s) : I s := by
  induction hs with
  | start h => exact hstart _ h
  | step hr hstep ih => exact hnext _ _ _ hr ih hstep

/-- The machine that takes a step only where its label meets `C`. -/
def restrict (M : Machine State Label) (C : State → Label → Prop) :
    Machine State Label where
  start := M.start
  next s i t := C s i ∧ M.next s i t

theorem Reachable.of_restrict {M : Machine State Label} {C : State → Label → Prop}
    {s : State} (hs : (M.restrict C).Reachable s) : M.Reachable s := by
  induction hs with
  | start h => exact Reachable.start h
  | step _ hstep ih => exact ih.step hstep.2

/-- The machine of a function: one starting state and one successor for each
label. -/
def ofFun (init : State) (f : State → Label → State) : Machine State Label where
  start s := s = init
  next s i t := t = f s i

theorem Reachable.foldl {init : State} {f : State → Label → State} {s : State}
    (hs : (ofFun init f).Reachable s) (labels : List Label) :
    (ofFun init f).Reachable (labels.foldl f s) := by
  induction labels generalizing s with
  | nil => exact hs
  | cons i labels ih => exact ih (hs.step rfl)

/-- Each label of a run meets `C` in the state it is taken from. -/
def Meets (C : State → Label → Prop) (f : State → Label → State) : State → List Label → Prop
  | _, [] => True
  | s, i :: labels => C s i ∧ Meets C f (f s i) labels

theorem Reachable.restrict_foldl {init : State} {f : State → Label → State}
    {C : State → Label → Prop} {s : State} (hs : ((ofFun init f).restrict C).Reachable s)
    {labels : List Label} (h : Meets C f s labels) :
    ((ofFun init f).restrict C).Reachable (labels.foldl f s) := by
  induction labels generalizing s with
  | nil => exact hs
  | cons i labels ih => exact ih (hs.step ⟨h.1, rfl⟩) h.2

/-- The machine of a partial function: a label is a step where the function has a
value. -/
def ofPartial (init : State) (f : State → Label → Option State) : Machine State Label where
  start s := s = init
  next s i t := f s i = some t

theorem Reachable.foldlM {init : State} {f : State → Label → Option State} {s t : State}
    (hs : (ofPartial init f).Reachable s) {labels : List Label}
    (h : labels.foldlM f s = some t) : (ofPartial init f).Reachable t := by
  induction labels generalizing s with
  | nil =>
      cases h
      exact hs
  | cons i labels ih =>
      rw [List.foldlM_cons, Option.bind_eq_bind, Option.bind_eq_some_iff] at h
      obtain ⟨u, hstep, hrest⟩ := h
      exact ih (hs.step hstep) hrest

theorem Reachable.getD_foldlM (init : State) (f : State → Label → Option State)
    (labels : List Label) :
    (ofPartial init f).Reachable ((labels.foldlM f init).getD init) := by
  cases h : labels.foldlM f init with
  | none => exact Reachable.start rfl
  | some t => exact Reachable.foldlM (Reachable.start rfl) h

/-- A run of a partial function all of whose labels pass a test. -/
theorem Reachable.getD_guarded (init : State) (f : State → Label → Option State)
    (test : State → Label → Bool) (labels : List Label) :
    ((ofPartial init f).restrict fun s i => test s i = true).Reachable
      ((labels.foldlM (fun s i => if test s i then f s i else none) init).getD init) := by
  have hstep : ∀ s t i, ((ofPartial init f).restrict fun s i => test s i = true).Reachable s →
      (if test s i then f s i else none) = some t →
        ((ofPartial init f).restrict fun s i => test s i = true).Reachable t := by
    intro s t i hs h
    split at h
    case isTrue htest => exact hs.step ⟨htest, h⟩
    case isFalse => cases h
  have hrun : ∀ (labels : List Label) (s t : State),
      ((ofPartial init f).restrict fun s i => test s i = true).Reachable s →
      labels.foldlM (fun s i => if test s i then f s i else none) s = some t →
        ((ofPartial init f).restrict fun s i => test s i = true).Reachable t := by
    intro labels
    induction labels with
    | nil =>
        intro s t hs h
        cases h
        exact hs
    | cons i labels ih =>
        intro s t hs h
        rw [List.foldlM_cons, Option.bind_eq_bind, Option.bind_eq_some_iff] at h
        obtain ⟨u, hu, hrest⟩ := h
        exact ih u t (hstep s u i hs hu) hrest
  cases h : labels.foldlM (fun s i => if test s i then f s i else none) init with
  | none => exact Reachable.start rfl
  | some t => exact hrun labels init t (Reachable.start rfl) h

theorem foldl_take_succ (f : State → Label → State) (s : State) {labels : List Label} {n : ℕ}
    {i : Label} (hi : labels[n]? = some i) :
    (labels.take (n + 1)).foldl f s = f ((labels.take n).foldl f s) i := by
  rw [List.take_add_one, hi, Option.toList_some, List.foldl_append, List.foldl_cons,
    List.foldl_nil]

/-- What each step of a run keeps holds all along the run. -/
theorem forall_take {I : State → Prop} {f : State → Label → State} {s : State}
    {labels : List Label} (hs : I s)
    (hstep : ∀ (n : ℕ) (i : Label), labels[n]? = some i →
      I ((labels.take n).foldl f s) → I (f ((labels.take n).foldl f s) i)) (n : ℕ) :
    I ((labels.take n).foldl f s) := by
  induction n with
  | zero => exact hs
  | succ n ih =>
      cases hi : labels[n]? with
      | none =>
          have hlen : labels.length ≤ n := List.getElem?_eq_none_iff.mp hi
          rw [List.take_of_length_le hlen] at ih
          rwa [List.take_of_length_le (Nat.le_succ_of_le hlen)]
      | some i =>
          rw [foldl_take_succ f s hi]
          exact hstep n i hi ih

/-- If one step keeps `I` exactly under `C`, a run stays in `I` exactly when each of
its steps meets `C` in the state it is taken from. -/
theorem forall_take_iff {I : State → Prop} {C : State → Label → Prop}
    {f : State → Label → State} {s : State} (hs : I s)
    (hstep : ∀ t i, I t → (I (f t i) ↔ C t i)) (labels : List Label) :
    (∀ n, I ((labels.take n).foldl f s)) ↔
      ∀ (n : ℕ) (i : Label), labels[n]? = some i → C ((labels.take n).foldl f s) i := by
  constructor
  · intro hI n i hi
    exact (hstep _ i (hI n)).mp (foldl_take_succ f s hi ▸ hI (n + 1))
  · intro hC
    exact forall_take hs fun n i hi hI => (hstep _ i hI).mpr (hC n i hi)

/-- If `I` is kept exactly under `C`, implies `P`, and a step outside `C` breaks `P`, then a
run stays in `P` exactly when each of its steps meets `C`. All steps of the run meet `A`. -/
theorem forall_take_iff_of {I P : State → Prop} {A C : State → Label → Prop}
    {f : State → Label → State} {s : State} (hs : I s) (hP : ∀ t, I t → P t)
    (hkeep : ∀ t i, I t → A t i → C t i → I (f t i))
    (hbreak : ∀ t i, I t → A t i → ¬ C t i → ¬ P (f t i)) {labels : List Label}
    (hA : ∀ (n : ℕ) (i : Label), labels[n]? = some i → A ((labels.take n).foldl f s) i) :
    (∀ n, P ((labels.take n).foldl f s)) ↔
      ∀ (n : ℕ) (i : Label), labels[n]? = some i → C ((labels.take n).foldl f s) i := by
  constructor
  · intro hall
    have hnext : ∀ (n : ℕ) (i : Label), labels[n]? = some i →
        P (f ((labels.take n).foldl f s) i) := by
      intro n i hi
      exact foldl_take_succ f s hi ▸ hall (n + 1)
    have hI : ∀ n, I ((labels.take n).foldl f s) := by
      apply forall_take hs
      intro n i hi hI
      by_contra hnot
      exact hbreak _ i hI (hA n i hi) (fun hC => hnot (hkeep _ i hI (hA n i hi) hC))
        (hnext n i hi)
    intro n i hi
    by_contra hC
    exact hbreak _ i (hI n) (hA n i hi) hC (hnext n i hi)
  · intro hC n
    exact hP _ (forall_take hs (fun n i hi hI => hkeep _ i hI (hA n i hi) (hC n i hi)) n)

end Machine

end Foundation
