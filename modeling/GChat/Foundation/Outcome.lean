import Mathlib.Logic.Basic

/-!
# Computations that may be refused

A fallible computation is an `Except`, with a text as its error in most of them. `refuse` is a
check that stops it with a message and `okOr` takes a value that must be there. The lemmas peel one
step off a computation that returned `ok`.
-/

namespace Foundation

variable {α β ε : Type}

/-- Stop with a message where the test holds. -/
def refuse (bad : Bool) (message : String) : Except String Unit :=
  if bad then .error message else .ok ()

def okOr (value : Option α) (message : String) : Except String α :=
  match value with
  | none => .error message
  | some a => .ok a

theorem bind_eq_ok {x : Except ε α} {f : α → Except ε β} {b : β} :
    x >>= f = .ok b ↔ ∃ a, x = .ok a ∧ f a = .ok b := by
  cases x with
  | error message => simp [bind, Except.bind]
  | ok a => simp [bind, Except.bind]

theorem bind_eq_error {x : Except ε α} {f : α → Except ε β} {e : ε} :
    x >>= f = .error e ↔ x = .error e ∨ ∃ a, x = .ok a ∧ f a = .error e := by
  cases x with
  | error other => simp [bind, Except.bind]
  | ok a => simp [bind, Except.bind]

theorem map_eq_ok {x : Except ε α} {f : α → β} {b : β} :
    x.map f = .ok b ↔ ∃ a, x = .ok a ∧ f a = b := by
  cases x with
  | error message => simp [Except.map]
  | ok a => simp [Except.map]

theorem refuse_eq_ok {bad : Bool} {message : String} {u : Unit} :
    refuse bad message = .ok u ↔ bad = false := by
  cases bad with
  | false => simp [refuse]
  | true => simp [refuse]

theorem okOr_eq_ok {value : Option α} {message : String} {a : α} :
    okOr value message = .ok a ↔ value = some a := by
  cases value with
  | none => simp [okOr]
  | some b => simp [okOr]

theorem pure_eq_ok {a b : α} : (pure a : Except String α) = .ok b ↔ a = b := by
  simp [pure, Except.pure]

theorem toOption_eq_some {x : Except String α} {a : α} : x.toOption = some a ↔ x = .ok a := by
  cases x with
  | error message => simp [Except.toOption]
  | ok b => simp [Except.toOption]

theorem toOption_map (x : Except String α) (f : α → β) :
    (x.map f).toOption = x.toOption.map f := by
  cases x with
  | error message => rfl
  | ok a => rfl

end Foundation
