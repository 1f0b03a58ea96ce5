import Mathlib

/-!
# Programs that may fail half way

A program reads and writes a state and may fail with a message. What it wrote before it failed
stays written. A specification of a program therefore says what holds after a failure as well;
specifications of the parts compose to one of the whole.
-/

namespace Foundation

open Std.Do

abbrev Effect (σ α : Type) := EStateM String σ α

namespace Effect

variable {σ α β : Type} {P : σ → Prop} {Q : α → σ → Prop} {R : β → σ → Prop} {E : σ → Prop}

/-- A computation without a state. -/
def lift (x : Except String α) : Effect σ α := fun s =>
  match x with
  | .ok a => .ok a s
  | .error message => .error message s

/-- A step that writes also where it fails. -/
def step (f : σ → σ × Except String α) : Effect σ α := fun s =>
  match f s with
  | (t, .ok a) => .ok a t
  | (t, .error message) => .error message t

/-- The state after a program, whether it failed or not. -/
def after : EStateM.Result String σ α → σ
  | .ok _ t => t
  | .error _ t => t

/-- From states with `P` the program returns into `Q` or fails into `E`. -/
def Meets (P : σ → Prop) (x : Effect σ α) (Q : α → σ → Prop) (E : σ → Prop) : Prop :=
  ⦃fun s => ⌜P s⌝⦄ x ⦃post⟨fun a s => ⌜Q a s⌝, fun _ s => ⌜E s⌝⟩⦄

theorem meets_iff {x : Effect σ α} : Meets P x Q E ↔ ∀ s, P s →
    (∀ a t, x.run s = .ok a t → Q a t) ∧ ∀ message t, x.run s = .error message t → E t := by
  constructor
  · intro h s hs
    have hwp := h s hs
    simp only [wp, PredTrans.apply] at hwp
    constructor
    · intro a t hrun
      rw [hrun] at hwp
      exact hwp
    · intro message t hrun
      rw [hrun] at hwp
      exact hwp
  · intro h s hs
    obtain ⟨hok, herror⟩ := h s hs
    simp only [wp, PredTrans.apply]
    cases hrun : x.run s with
    | ok a t => exact hok a t hrun
    | error message t => exact herror message t hrun

theorem Meets.bind {x : Effect σ α} {f : α → Effect σ β} (hx : Meets P x Q E)
    (hf : ∀ a, Meets (Q a) (f a) R E) : Meets P (x >>= f) R E :=
  Triple.bind x f hx hf

theorem meets_pure {a : α} (h : ∀ s, P s → Q a s) : Meets P (pure a : Effect σ α) Q E :=
  Triple.pure a fun s hs => h s hs

theorem meets_lift {x : Except String α} (hok : ∀ a, x = .ok a → ∀ s, P s → Q a s)
    (herror : ∀ message, x = .error message → ∀ s, P s → E s) :
    Meets P (lift x : Effect σ α) Q E := by
  rw [meets_iff]
  intro s hs
  constructor
  · intro a t hrun
    simp only [lift, EStateM.run] at hrun
    cases x with
    | ok b =>
        cases hrun
        exact hok _ rfl _ hs
    | error message => cases hrun
  · intro message t hrun
    simp only [lift, EStateM.run] at hrun
    cases x with
    | ok b => cases hrun
    | error message =>
        cases hrun
        exact herror _ rfl _ hs

theorem meets_step {f : σ → σ × Except String α}
    (hok : ∀ s, P s → ∀ a t, f s = (t, .ok a) → Q a t)
    (herror : ∀ s, P s → ∀ message t, f s = (t, .error message) → E t) :
    Meets P (step f : Effect σ α) Q E := by
  rw [meets_iff]
  intro s hs
  constructor
  · intro a t hrun
    simp only [step, EStateM.run] at hrun
    split at hrun
    next heq =>
      cases hrun
      exact hok s hs _ _ heq
    · cases hrun
  · intro message t hrun
    simp only [step, EStateM.run] at hrun
    split at hrun
    · cases hrun
    next heq =>
      cases hrun
      exact herror s hs _ _ heq

theorem meets_modify {f : σ → σ} {Q : σ → Prop} (h : ∀ s, P s → Q (f s)) :
    Meets P (modify f : Effect σ Unit) (fun _ => Q) E := by
  refine meets_step (f := fun s => (f s, .ok ())) ?_ ?_
  · intro s hs _ t hrun
    cases hrun
    exact h s hs
  · intro s _ _ t hrun
    cases hrun

/-- What is read is the state. -/
theorem meets_get {f : σ → Effect σ β} (hf : ∀ s, P s → Meets (· = s) (f s) R E) :
    Meets P (get >>= f) R E := by
  rw [meets_iff]
  intro s hs
  exact meets_iff.mp (hf s hs) s rfl

/-- A fact about values alone is used once and for all. -/
theorem meets_and {p : Prop} {x : Effect σ α} (h : p → Meets P x Q E) :
    Meets (fun s => P s ∧ p) x Q E := by
  rw [meets_iff]
  intro s hs
  exact meets_iff.mp (h hs.2) s hs.1

theorem Meets.imp {P' : σ → Prop} {Q' : α → σ → Prop} {E' : σ → Prop} {x : Effect σ α}
    (h : Meets P x Q E) (hP : ∀ s, P' s → P s) (hQ : ∀ a s, Q a s → Q' a s)
    (hE : ∀ s, E s → E' s) : Meets P' x Q' E' := by
  rw [meets_iff] at h ⊢
  intro s hs
  obtain ⟨hok, herror⟩ := h s (hP s hs)
  exact ⟨fun a t hrun => hQ a t (hok a t hrun), fun e t hrun => hE t (herror e t hrun)⟩

/-- What holds after the program, whether it fails or not. -/
theorem after_of_meets {x : Effect σ α} (h : Meets P x (fun _ => E) E) {s : σ} (hs : P s) :
    E (after (x.run s)) := by
  obtain ⟨hok, herror⟩ := meets_iff.mp h s hs
  cases hrun : x.run s with
  | ok a t => exact hok a t hrun
  | error message t => exact herror message t hrun

end Effect

end Foundation
