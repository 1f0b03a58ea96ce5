import Mathlib.Data.List.Basic

/-!
# Replayed runs

A source that repeats what it has delivered, after a restart or a lost
acknowledgement, gives a run in which any earlier label may come again at any
later point. If a label leaves a trace that later labels keep, and a state with
the trace of a label is a fixed point of it, the repetitions change nothing.
-/

namespace Foundation

/-- `Replays labels run` says that `run` delivers `labels` in order, with any of the
labels delivered so far repeated in between. -/
inductive Replays {Label : Type*} : List Label → List Label → Prop
  | nil : Replays [] []
  | deliver {labels run : List Label} (i : Label) :
      Replays labels run → Replays (labels ++ [i]) (run ++ [i])
  | again {labels run : List Label} {i : Label} :
      Replays labels run → i ∈ run → Replays labels (run ++ [i])

theorem Replays.mem_iff {Label : Type*} {labels run : List Label} (h : Replays labels run)
    (i : Label) : i ∈ run ↔ i ∈ labels := by
  induction h with
  | nil => rfl
  | deliver j _ ih => simp [ih]
  | again _ hj ih =>
      rw [List.mem_append, List.mem_singleton, ih]
      constructor
      · rintro (hi | rfl)
        · exact hi
        · exact ih.mp hj
      · exact Or.inl

section Absorbing

variable {State Label : Type*} {f : State → Label → State} {D : Label → Prop}
  {Trace : State → Label → Prop}

theorem trace_foldl (hkeep : ∀ s i j, D j → Trace s i → Trace (f s j) i) {s : State} {i : Label}
    (h : Trace s i) {labels : List Label} (hD : ∀ j ∈ labels, D j) :
    Trace (labels.foldl f s) i := by
  induction labels generalizing s with
  | nil => exact h
  | cons j labels ih =>
      exact ih (hkeep s i j (hD j List.mem_cons_self) h)
        fun k hk => hD k (List.mem_cons_of_mem j hk)

theorem trace_foldl_of_mem (hleave : ∀ s i, D i → Trace (f s i) i)
    (hkeep : ∀ s i j, D j → Trace s i → Trace (f s j) i) (s : State) {labels : List Label}
    (hD : ∀ j ∈ labels, D j) {i : Label} (hi : i ∈ labels) : Trace (labels.foldl f s) i := by
  obtain ⟨before, after, rfl⟩ := List.append_of_mem hi
  rw [List.foldl_append, List.foldl_cons]
  refine trace_foldl hkeep (hleave _ i (hD i hi)) fun j hj => hD j ?_
  exact List.mem_append_right before (List.mem_cons_of_mem i hj)

variable (D Trace) in
/-- A run with repetitions ends in the state of the run without them. -/
theorem foldl_replays (habsorb : ∀ s i, D i → Trace s i → f s i = s)
    (hleave : ∀ s i, D i → Trace (f s i) i)
    (hkeep : ∀ s i j, D j → Trace s i → Trace (f s j) i) (s : State) {labels run : List Label}
    (h : Replays labels run) (hD : ∀ j ∈ labels, D j) : run.foldl f s = labels.foldl f s := by
  induction h with
  | nil => rfl
  | deliver i _ ih =>
      rw [List.foldl_append, List.foldl_append, ih fun j hj => hD j (List.mem_append_left _ hj)]
  | again hrun hi ih =>
      have hDrun : ∀ j ∈ _, D j := fun j hj => hD j ((hrun.mem_iff j).mp hj)
      rw [List.foldl_append, List.foldl_cons, List.foldl_nil, habsorb _ _ (hDrun _ hi), ih hD]
      exact trace_foldl_of_mem hleave hkeep s hDrun hi

end Absorbing

end Foundation
