import GChat.Hosted.Apply

/-!
# Observed names

The name shown for a member is the last one observed for it, or the one the
channel lists. Observations that only repeat what the channel lists are plain:
losing them at the bound changes no name. `NamesAlike` relates two histories that
show the same names and go on doing so for a number of further observations.
-/

namespace GChat

namespace Hosted

open Foundation Api

variable {channel : Channel} {names names' : List ObservedName} {member x : Id}
  {nickname : String} {observedAt : ℕ}

theorem lastName_append_singleton (names : List ObservedName) (e : ObservedName) (x : Id) :
    lastName (names ++ [e]) x = if e.member = x then some e.nickname else lastName names x := by
  unfold lastName
  rw [List.reverse_append, List.reverse_singleton, List.singleton_append, List.find?_cons]
  by_cases h : e.member = x
  · rw [if_pos h, h, beq_self_eq_true]
    rfl
  · rw [if_neg h, beq_eq_false_iff_ne.mpr h]

theorem lastName_cons (e : ObservedName) (names : List ObservedName) (x : Id) :
    lastName (e :: names) x =
      (lastName names x).or (if e.member = x then some e.nickname else none) := by
  unfold lastName
  rw [List.reverse_cons, List.find?_append]
  cases h : names.reverse.find? (·.member == x) with
  | none =>
      by_cases hx : e.member = x
      · simp [hx]
      · simp [hx]
  | some e' => simp

theorem nameOf_append_singleton (channel : Channel) (names : List ObservedName)
    (e : ObservedName) (x : Id) :
    nameOf channel (names ++ [e]) x =
      if e.member = x then e.nickname else nameOf channel names x := by
  unfold nameOf
  rw [lastName_append_singleton]
  split <;> rfl

/-- The observations repeat what the channel lists. -/
def Plain (channel : Channel) (names : List ObservedName) : Prop :=
  ∀ e ∈ names, e.nickname = unobservedName channel e.member

theorem nameOf_cons_of_plain {e : ObservedName}
    (h : e.nickname = unobservedName channel e.member) (names : List ObservedName) (x : Id) :
    nameOf channel (e :: names) x = nameOf channel names x := by
  unfold nameOf
  rw [lastName_cons]
  cases lastName names x with
  | some n => rfl
  | none =>
      by_cases hx : e.member = x
      · rw [if_pos hx, h, hx]
        rfl
      · rw [if_neg hx]
        rfl

theorem Plain.observe (h : Plain channel names) (hname : nickname = unobservedName channel member) :
    Plain channel (observe names member nickname observedAt) := by
  have happend : Plain channel (names ++ [⟨member, nickname, observedAt⟩]) := by
    intro e he
    obtain hold | hlast := List.mem_append.mp he
    · exact h e hold
    · rw [List.mem_singleton.mp hlast]
      exact hname
  unfold Hosted.observe
  split
  · exact h
  · dsimp only
    split
    · exact fun e he => happend e (List.mem_of_mem_tail he)
    · exact happend

/-- The observations behind the plain ones are at most `k`. -/
def Retained (channel : Channel) (k : ℕ) (names : List ObservedName) : Prop :=
  ∃ old new, names = old ++ new ∧ Plain channel old ∧ new.length ≤ k

theorem Plain.retained (h : Plain channel names) : Retained channel 0 names :=
  ⟨names, [], by rw [List.append_nil], h, Nat.le_refl 0⟩

theorem Retained.mono {k j : ℕ} (h : Retained channel k names) (hkj : k ≤ j) :
    Retained channel j names := by
  obtain ⟨old, new, rfl, hplain, hlen⟩ := h
  exact ⟨old, new, rfl, hplain, Nat.le_trans hlen hkj⟩

/-- Within the bound only a plain observation is dropped. -/
theorem Retained.observe {k : ℕ} (h : Retained channel k names) (hk : k < maxNames)
    (member : Id) (nickname : String) (observedAt : ℕ) :
    Retained channel (k + 1) (observe names member nickname observedAt) ∧
      ∀ x, nameOf channel (observe names member nickname observedAt) x =
        if member = x then nickname else nameOf channel names x := by
  unfold Hosted.observe
  split
  case isTrue hlast =>
    constructor
    · exact h.mono (Nat.le_succ k)
    · intro x
      by_cases hx : member = x
      · rw [if_pos hx, ← hx, nameOf, beq_iff_eq.mp hlast]
        rfl
      · rw [if_neg hx]
  case isFalse =>
    obtain ⟨old, new, rfl, hplain, hlen⟩ := h
    have hnew : (new ++ [(⟨member, nickname, observedAt⟩ : ObservedName)]).length ≤ k + 1 := by
      rw [List.length_append, List.length_singleton]
      omega
    have hname := nameOf_append_singleton channel (old ++ new) ⟨member, nickname, observedAt⟩
    rw [List.append_assoc] at hname ⊢
    dsimp only
    split
    case isFalse => exact ⟨⟨old, _, rfl, hplain, hnew⟩, hname⟩
    case isTrue hlong =>
      cases old with
      | nil =>
          rw [List.nil_append] at hlong
          omega
      | cons e old =>
          constructor
          · exact ⟨old, _, rfl, fun e' he' => hplain e' (List.mem_cons_of_mem e he'), hnew⟩
          · intro x
            rw [List.cons_append, List.tail_cons,
              ← nameOf_cons_of_plain (hplain e List.mem_cons_self) _ x]
            exact hname x

/-! ### Two histories of names -/

/-- The histories are equal, or they show the same names and `n` more observations fit. -/
def NamesAlike (channel : Channel) (n : ℕ) (names names' : List ObservedName) : Prop :=
  names = names' ∨ ∃ k, k + n ≤ maxNames ∧ Retained channel k names ∧ Retained channel k names' ∧
    ∀ x, nameOf channel names x = nameOf channel names' x

namespace NamesAlike

variable {n : ℕ}

theorem nameOf_eq (h : NamesAlike channel n names names') :
    nameOf channel names = nameOf channel names' := by
  obtain rfl | ⟨k, -, -, -, hname⟩ := h
  · rfl
  · exact funext hname

theorem weaken (h : NamesAlike channel (n + 1) names names') :
    NamesAlike channel n names names' := by
  obtain rfl | ⟨k, hk, hrest⟩ := h
  · exact Or.inl rfl
  · exact Or.inr ⟨k, by omega, hrest⟩

theorem observe (h : NamesAlike channel (n + 1) names names') (member : Id) (nickname : String)
    (observedAt : ℕ) :
    NamesAlike channel n (observe names member nickname observedAt)
      (observe names' member nickname observedAt) := by
  obtain rfl | ⟨k, hk, hret, hret', hname⟩ := h
  · exact Or.inl rfl
  · obtain ⟨hnext, hnextName⟩ := hret.observe (by omega) member nickname observedAt
    obtain ⟨hnext', hnextName'⟩ := hret'.observe (by omega) member nickname observedAt
    refine Or.inr ⟨k + 1, by omega, hnext, hnext', fun x => ?_⟩
    rw [hnextName, hnextName', hname]

end NamesAlike

end Hosted

end GChat
