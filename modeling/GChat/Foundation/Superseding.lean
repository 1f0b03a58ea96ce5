import Mathlib.Logic.Function.Basic
import Mathlib.Order.Basic

/-!
# Workers that supersede each other

Workers are started for keys. The workers of a key wait for each other, and a worker that is no
longer the newest of its key when its turn comes does nothing. A key is marked while its newest
worker has not done its work.
-/

namespace Foundation

namespace Superseding

inductive Phase where
  | queued
  | running
  | closing
  | finished
deriving DecidableEq

/-- A worker waits for the one that was the newest of its key when it was started. -/
structure Worker (κ : Type*) where
  key : κ
  before : Option ℕ
  phase : Phase

/-- Workers are numbered from 1 in the order of their start. -/
structure Board (κ : Type*) where
  live : Bool
  count : ℕ
  newest : κ → Option ℕ
  workers : ℕ → Option (Worker κ)
  marked : κ → Bool

variable {κ : Type*}

def Board.empty : Board κ := ⟨true, 0, fun _ => none, fun _ => none, fun _ => false⟩

def Board.setPhase (b : Board κ) (n : ℕ) (w : Worker κ) (phase : Phase) : Board κ :=
  { b with workers := Function.update b.workers n (some { w with phase := phase }) }

/-- The worker may start its work: those it waits for have finished. -/
def Board.Turn (b : Board κ) (w : Worker κ) : Prop :=
  ∀ p, w.before = some p → ∃ v, b.workers p = some v ∧ v.phase = .finished

def Board.IsNewest (b : Board κ) (n : ℕ) (w : Worker κ) : Prop :=
  b.live = true ∧ b.newest w.key = some n

/-- The workers of a key take their turns in the order of their numbers. -/
structure Ordered (b : Board κ) : Prop where
  bound : ∀ {n w}, b.workers n = some w → n ≤ b.count
  begun : ∀ {n m w v}, b.workers n = some w → w.phase ≠ .queued → b.workers m = some v →
    v.key = w.key → m < n → v.phase = .finished
  waits : ∀ {n m w v}, b.workers n = some w → w.phase = .queued → b.workers m = some v →
    v.key = w.key → m < n → v.phase = .finished ∨ ∃ p, w.before = some p ∧ m ≤ p
  chain : ∀ {n p w}, b.workers n = some w → w.before = some p → p < n ∧
    ∃ v, b.workers p = some v ∧ v.key = w.key

/-- The newest worker of a key is the last one, and it is still to finish. -/
structure Newest (b : Board κ) : Prop where
  worker : ∀ {k n}, b.newest k = some n → ∃ w, b.workers n = some w ∧ w.key = k ∧
    (b.live = true → w.phase ≠ .finished)
  last : ∀ {k n m w}, b.newest k = some n → b.workers m = some w → w.key = k → m ≤ n
  idle : ∀ {k m w}, b.newest k = none → b.workers m = some w → w.key = k → w.phase = .finished
  marks : ∀ {k}, b.marked k = true → b.live = true ∧ ∃ n w, b.newest k = some n ∧
    b.workers n = some w ∧ (w.phase = .queued ∨ w.phase = .running)

/-- What holds of every board that moves lead to. -/
structure Orderly (b : Board κ) : Prop extends Ordered b, Newest b

theorem setPhase_self (b : Board κ) (n : ℕ) (w : Worker κ) (phase : Phase) :
    (b.setPhase n w phase).workers n = some { w with phase := phase } :=
  Function.update_self _ _ _

theorem setPhase_of_ne (b : Board κ) {n m : ℕ} (w : Worker κ) (phase : Phase) (h : m ≠ n) :
    (b.setPhase n w phase).workers m = b.workers m :=
  Function.update_of_ne h _ _

/-- A worker after a change of phase was there before, with the phase it has unless it is the one
that was changed. -/
theorem of_setPhase {b : Board κ} {n m : ℕ} {w v : Worker κ} {phase : Phase}
    (hw : b.workers n = some w) (hv : (b.setPhase n w phase).workers m = some v) :
    ∃ u, b.workers m = some u ∧ v.key = u.key ∧ v.before = u.before ∧
      (m = n ∧ v.phase = phase ∨ m ≠ n ∧ v.phase = u.phase) := by
  by_cases hmn : m = n
  · subst hmn
    rw [setPhase_self] at hv
    cases hv
    exact ⟨w, hw, rfl, rfl, Or.inl ⟨rfl, rfl⟩⟩
  · rw [setPhase_of_ne b w phase hmn] at hv
    exact ⟨v, hv, rfl, rfl, Or.inr ⟨hmn, rfl⟩⟩

/-- Once it is the turn of a worker, those before it have finished. -/
theorem Ordered.before_finished {b : Board κ} (h : Ordered b) {n m : ℕ} {w v : Worker κ}
    (hw : b.workers n = some w) (hturn : w.phase = .queued → b.Turn w)
    (hv : b.workers m = some v) (hkey : v.key = w.key) (hlt : m < n) : v.phase = .finished := by
  by_cases hqueued : w.phase = .queued
  · rcases h.waits hw hqueued hv hkey hlt with hfinished | ⟨p, hp, hle⟩
    · exact hfinished
    · rcases hturn hqueued p hp with ⟨u, hu, hdone⟩
      rcases h.chain hw hp with ⟨-, u', hu', hkey'⟩
      rw [hu] at hu'
      cases hu'
      rcases Nat.lt_or_eq_of_le hle with hlt' | rfl
      · refine h.begun hu ?_ hv (hkey.trans hkey'.symm) hlt'
        rw [hdone]
        exact Phase.noConfusion
      · rw [hv] at hu
        cases hu
        exact hdone
  · exact h.begun hw hqueued hv hkey hlt

/-! ### What an orderly board says -/

/-- A worker goes on once it is its turn. -/
theorem Ordered.setPhase {b : Board κ} (h : Ordered b) {n : ℕ} {w : Worker κ} {phase : Phase}
    (hw : b.workers n = some w) (hturn : w.phase = .queued → b.Turn w) (hphase : phase ≠ .queued)
    (hfinished : w.phase = .finished → phase = .finished) : Ordered (b.setPhase n w phase) where
  bound hv := by
    rcases of_setPhase hw hv with ⟨u, hu, -⟩
    exact h.bound hu
  begun := by
    intro i j v u hv hqueued hu hkey hlt
    rcases of_setPhase hw hv with ⟨v', hv', hvkey, -, hvphase⟩
    rcases of_setPhase hw hu with ⟨u', hu', hukey, -, huphase⟩
    have hkey' : u'.key = v'.key := by rw [← hukey, hkey, hvkey]
    have hdone : u'.phase = .finished := by
      rcases hvphase with ⟨rfl, -⟩ | ⟨-, hsame⟩
      · rw [hw] at hv'
        cases hv'
        exact h.before_finished hw hturn hu' hkey' hlt
      · rw [hsame] at hqueued
        exact h.begun hv' hqueued hu' hkey' hlt
    rcases huphase with ⟨rfl, hphase⟩ | ⟨-, hphase⟩
    · rw [hw] at hu'
      cases hu'
      rw [hphase]
      exact hfinished hdone
    · rw [hphase]
      exact hdone
  waits := by
    intro i j v u hv hqueued hu hkey hlt
    rcases of_setPhase hw hv with ⟨v', hv', hvkey, hbefore, hvphase⟩
    rcases of_setPhase hw hu with ⟨u', hu', hukey, -, huphase⟩
    have hkey' : u'.key = v'.key := by rw [← hukey, hkey, hvkey]
    have hold : v'.phase = .queued := by
      rcases hvphase with ⟨-, hv⟩ | ⟨-, hv⟩
      · exact absurd (hv.symm.trans hqueued) hphase
      · exact hv.symm.trans hqueued
    rcases h.waits hv' hold hu' hkey' hlt with hdone | hp
    · rcases huphase with ⟨rfl, hphase⟩ | ⟨-, hphase⟩
      · rw [hw] at hu'
        cases hu'
        rw [hphase]
        exact Or.inl (hfinished hdone)
      · rw [hphase]
        exact Or.inl hdone
    · rw [hbefore]
      exact Or.inr hp
  chain := by
    intro i p v hv hp
    rcases of_setPhase hw hv with ⟨v', hv', hvkey, hbefore, -⟩
    rw [hbefore] at hp
    rcases h.chain hv' hp with ⟨hlt, u, hu, hkey⟩
    refine ⟨hlt, ?_⟩
    by_cases hpn : p = n
    · subst hpn
      rw [hw] at hu
      cases hu
      exact ⟨_, setPhase_self b p w phase, hkey.trans hvkey.symm⟩
    · exact ⟨u, (setPhase_of_ne b w phase hpn).trans hu, hkey.trans hvkey.symm⟩

/-- The newest worker goes on. -/
theorem Newest.setPhase {b : Board κ} (h : Newest b) {n : ℕ} {w : Worker κ} {phase : Phase}
    (hw : b.workers n = some w) (hnewest : b.newest w.key = some n) (hphase : phase ≠ .finished)
    (hmarked : b.marked w.key = true → phase = .queued ∨ phase = .running) :
    Newest (b.setPhase n w phase) where
  worker := by
    intro k m hm
    rcases h.worker hm with ⟨v, hv, hkey, hlive⟩
    by_cases hmn : m = n
    · subst hmn
      rw [hw] at hv
      cases hv
      exact ⟨_, setPhase_self b m w phase, hkey, fun _ => hphase⟩
    · exact ⟨v, (setPhase_of_ne b w phase hmn).trans hv, hkey, hlive⟩
  last hm hv hkey := by
    rcases of_setPhase hw hv with ⟨u, hu, hukey, -⟩
    exact h.last hm hu (hukey ▸ hkey)
  idle := by
    intro k m v hk hv hkey
    rcases of_setPhase hw hv with ⟨u, hu, hukey, -, ⟨rfl, -⟩ | ⟨-, hsame⟩⟩
    · rw [hw] at hu
      cases hu
      rw [← hkey, hukey, show (b.setPhase m w phase).newest = b.newest from rfl, hnewest] at hk
      cases hk
    · rw [hsame]
      exact h.idle hk hu (hukey ▸ hkey)
  marks := by
    intro k hk
    rcases h.marks hk with ⟨hlive, m, v, hm, hv, hv'⟩
    refine ⟨hlive, m, ?_⟩
    by_cases hmn : m = n
    · subst hmn
      rw [hw] at hv
      cases hv
      rcases h.worker hm with ⟨u, hu, hkey, -⟩
      rw [hw] at hu
      cases hu
      subst hkey
      exact ⟨_, hm, setPhase_self b m w phase, hmarked hk⟩
    · exact ⟨v, hm, (setPhase_of_ne b w phase hmn).trans hv, hv'⟩

/-- A worker that is not the newest is done. -/
theorem Newest.skip {b : Board κ} (h : Newest b) {n : ℕ} {w : Worker κ}
    (hw : b.workers n = some w) (hnewest : ¬ b.IsNewest n w) :
    Newest (b.setPhase n w .finished) where
  worker := by
    intro k m hm
    rcases h.worker hm with ⟨v, hv, hkey, hlive⟩
    by_cases hmn : m = n
    · subst hmn
      rw [hw] at hv
      cases hv
      subst hkey
      exact ⟨_, setPhase_self b m w .finished, rfl, fun hl => absurd ⟨hl, hm⟩ hnewest⟩
    · exact ⟨v, (setPhase_of_ne b w .finished hmn).trans hv, hkey, hlive⟩
  last hm hv hkey := by
    rcases of_setPhase hw hv with ⟨u, hu, hukey, -⟩
    exact h.last hm hu (hukey ▸ hkey)
  idle := by
    intro k m v hk hv hkey
    rcases of_setPhase hw hv with ⟨u, hu, hukey, -, ⟨-, hdone⟩ | ⟨-, hsame⟩⟩
    · exact hdone
    · rw [hsame]
      exact h.idle hk hu (hukey ▸ hkey)
  marks := by
    intro k hk
    rcases h.marks hk with ⟨hlive, m, v, hm, hv, hv'⟩
    refine ⟨hlive, m, v, hm, ?_, hv'⟩
    by_cases hmn : m = n
    · subst hmn
      rw [hw] at hv
      cases hv
      rcases h.worker hm with ⟨u, hu, hkey, -⟩
      rw [hw] at hu
      cases hu
      subst hkey
      exact absurd ⟨hlive, hm⟩ hnewest
    · exact (setPhase_of_ne b w .finished hmn).trans hv

/-- A worker that was there before another one arrived, or the one that arrived. -/
theorem of_arrive {workers : ℕ → Option (Worker κ)} {count m : ℕ} {new v : Worker κ}
    (hv : Function.update workers (count + 1) (some new) m = some v) :
    m = count + 1 ∧ v = new ∨ m ≠ count + 1 ∧ workers m = some v := by
  by_cases hm : m = count + 1
  · subst hm
    rw [Function.update_self] at hv
    cases hv
    exact Or.inl ⟨rfl, rfl⟩
  · rw [Function.update_of_ne hm] at hv
    exact Or.inr ⟨hm, hv⟩

/-! ### Moves -/

variable [DecidableEq κ]

/-- The work of the key is done. -/
def Board.unmark (b : Board κ) (k : κ) : Board κ :=
  { b with marked := Function.update b.marked k false }

/-- The key has no worker any more. -/
def Board.release (b : Board κ) (k : κ) : Board κ :=
  { b.unmark k with newest := Function.update b.newest k none }

/-- A new worker waits for the newest one of its key. -/
def Board.enqueue (b : Board κ) (k : κ) (mark : Bool) : Board κ where
  live := b.live
  count := b.count + 1
  newest := Function.update b.newest k (some (b.count + 1))
  workers := Function.update b.workers (b.count + 1) (some ⟨k, b.newest k, .queued⟩)
  marked := Function.update b.marked k (mark || b.marked k)

inductive Move : Board κ → Board κ → Prop
  | arrive {b : Board κ} (k : κ) (mark : Bool) (hlive : b.live = true) :
      Move b (b.enqueue k mark)
  | start {b : Board κ} {n : ℕ} {w : Worker κ} (hw : b.workers n = some w)
      (hphase : w.phase = .queued) (hturn : b.Turn w) (hnewest : b.IsNewest n w) :
      Move b (b.setPhase n w .running)
  | skip {b : Board κ} {n : ℕ} {w : Worker κ} (hw : b.workers n = some w)
      (hturn : w.phase = .queued → b.Turn w) (hnewest : ¬ b.IsNewest n w) :
      Move b (b.setPhase n w .finished)
  | close {b : Board κ} {n : ℕ} {w : Worker κ} (hw : b.workers n = some w)
      (hphase : w.phase = .running) (hnewest : b.IsNewest n w) :
      Move b ((b.unmark w.key).setPhase n w .closing)
  | finish {b : Board κ} {n : ℕ} {w : Worker κ} (hw : b.workers n = some w)
      (hphase : w.phase = .running ∨ w.phase = .closing) (hnewest : b.IsNewest n w) :
      Move b ((b.release w.key).setPhase n w .finished)
  | stop {b : Board κ} : Move b { b with live := false, marked := fun _ => false }

/-- A key that is not marked any more. -/
theorem Newest.unmark {b : Board κ} (h : Newest b) (k : κ) :
    Newest (b.unmark k) where
  worker := h.worker
  last := h.last
  idle := h.idle
  marks := by
    intro j hj
    dsimp only [Board.unmark] at hj
    by_cases hjk : j = k
    · subst hjk
      rw [Function.update_self] at hj
      cases hj
    · rw [Function.update_of_ne hjk] at hj
      exact h.marks hj

/-- The newest worker is done, and with it all of its key. -/
theorem Orderly.finish {b : Board κ} (h : Orderly b) {n : ℕ} {w : Worker κ}
    (hw : b.workers n = some w) (hqueued : w.phase ≠ .queued)
    (hnewest : b.newest w.key = some n) :
    Newest ((b.release w.key).setPhase n w .finished) where
  worker := by
    intro k m hm
    dsimp only [Board.setPhase, Board.release] at hm
    by_cases hk : k = w.key
    · subst hk
      rw [Function.update_self] at hm
      cases hm
    · rw [Function.update_of_ne hk] at hm
      rcases h.worker hm with ⟨v, hv, hkey, hlive⟩
      have hmn : m ≠ n := by
        rintro rfl
        rw [hw] at hv
        cases hv
        exact hk hkey.symm
      exact ⟨v, (setPhase_of_ne b w .finished hmn).trans hv, hkey, hlive⟩
  last := by
    intro k i m v hm hv hkey
    dsimp only [Board.setPhase, Board.release] at hm
    by_cases hk : k = w.key
    · subst hk
      rw [Function.update_self] at hm
      cases hm
    · rw [Function.update_of_ne hk] at hm
      rcases of_setPhase hw hv with ⟨u, hu, hukey, -⟩
      exact h.last hm hu (hukey ▸ hkey)
  idle := by
    intro k m v hm hv hkey
    dsimp only [Board.setPhase, Board.release] at hm
    rcases of_setPhase hw hv with ⟨u, hu, hukey, -, ⟨-, hdone⟩ | ⟨hmn, hsame⟩⟩
    · exact hdone
    · rw [hsame]
      have hkey' : u.key = k := hukey ▸ hkey
      by_cases hk : k = w.key
      · have hle := h.last hnewest hu (hkey'.trans hk)
        exact h.begun hw hqueued hu (hkey'.trans hk) (Nat.lt_of_le_of_ne hle hmn)
      · rw [Function.update_of_ne hk] at hm
        exact h.idle hm hu hkey'
  marks := by
    intro k hm
    dsimp only [Board.setPhase, Board.release, Board.unmark] at hm
    by_cases hk : k = w.key
    · subst hk
      rw [Function.update_self] at hm
      cases hm
    · rw [Function.update_of_ne hk] at hm
      rcases h.marks hm with ⟨hlive, m, v, hm, hv, hv'⟩
      have hmn : m ≠ n := by
        rintro rfl
        rcases h.worker hm with ⟨u, hu, hkey, -⟩
        rw [hw] at hu
        cases hu
        exact hk hkey.symm
      exact ⟨hlive, m, v, (Function.update_of_ne hk _ _).trans hm,
        (setPhase_of_ne b w .finished hmn).trans hv, hv'⟩

/-- A worker arrives and waits for the newest one of its key. -/
theorem Orderly.arrive {b : Board κ} (h : Orderly b) (k : κ) (mark : Bool)
    (hlive : b.live = true) :
    Orderly (b.enqueue k mark) := by
  have hkept : ∀ {m : ℕ} {v : Worker κ}, b.workers m = some v →
      Function.update b.workers (b.count + 1) (some ⟨k, b.newest k, .queued⟩) m = some v := by
    intro m v hv
    have hle := h.bound hv
    rw [Function.update_of_ne (by omega)]
    exact hv
  constructor
  · constructor
    · intro m v hv
      rcases of_arrive hv with ⟨rfl, -⟩ | ⟨-, hv⟩
      · exact Nat.le_refl _
      · exact Nat.le_succ_of_le (h.bound hv)
    · intro n m w v hw hphase hv hkey hlt
      rcases of_arrive hw with ⟨-, rfl⟩ | ⟨-, hw⟩
      · exact absurd rfl hphase
      · have hle := h.bound hw
        rcases of_arrive hv with ⟨rfl, -⟩ | ⟨-, hv⟩
        · omega
        · exact h.begun hw hphase hv hkey hlt
    · intro n m w v hw hphase hv hkey hlt
      rcases of_arrive hw with ⟨rfl, rfl⟩ | ⟨-, hw⟩
      · rcases of_arrive hv with ⟨rfl, -⟩ | ⟨-, hv⟩
        · omega
        · cases hk : b.newest k with
          | none => exact Or.inl (h.idle hk hv hkey)
          | some p => exact Or.inr ⟨p, rfl, h.last hk hv hkey⟩
      · have hle := h.bound hw
        rcases of_arrive hv with ⟨rfl, -⟩ | ⟨-, hv⟩
        · omega
        · exact h.waits hw hphase hv hkey hlt
    · intro n p w hw hp
      rcases of_arrive hw with ⟨rfl, rfl⟩ | ⟨-, hw⟩
      · rcases h.worker hp with ⟨v, hv, hkey, -⟩
        exact ⟨Nat.lt_succ_of_le (h.bound hv), v, hkept hv, hkey⟩
      · rcases h.chain hw hp with ⟨hlt, v, hv, hkey⟩
        exact ⟨hlt, v, hkept hv, hkey⟩
  · constructor
    · intro j n hn
      dsimp only [Board.enqueue] at hn
      by_cases hj : j = k
      · subst hj
        rw [Function.update_self] at hn
        cases hn
        exact ⟨_, Function.update_self _ _ _, rfl, fun _ => Phase.noConfusion⟩
      · rw [Function.update_of_ne hj] at hn
        rcases h.worker hn with ⟨v, hv, hkey, hphase⟩
        exact ⟨v, hkept hv, hkey, hphase⟩
    · intro j n m v hn hv hkey
      dsimp only [Board.enqueue] at hn
      by_cases hj : j = k
      · subst hj
        rw [Function.update_self] at hn
        cases hn
        rcases of_arrive hv with ⟨rfl, -⟩ | ⟨-, hv⟩
        · exact Nat.le_refl _
        · exact Nat.le_succ_of_le (h.bound hv)
      · rw [Function.update_of_ne hj] at hn
        rcases of_arrive hv with ⟨-, rfl⟩ | ⟨-, hv⟩
        · exact absurd hkey.symm hj
        · exact h.last hn hv hkey
    · intro j m v hn hv hkey
      dsimp only [Board.enqueue] at hn
      by_cases hj : j = k
      · subst hj
        rw [Function.update_self] at hn
        cases hn
      · rw [Function.update_of_ne hj] at hn
        rcases of_arrive hv with ⟨-, rfl⟩ | ⟨-, hv⟩
        · exact absurd hkey.symm hj
        · exact h.idle hn hv hkey
    · intro j hj
      dsimp only [Board.enqueue] at hj
      by_cases hjk : j = k
      · subst hjk
        exact ⟨hlive, _, _, Function.update_self _ _ _, Function.update_self _ _ _, Or.inl rfl⟩
      · rw [Function.update_of_ne hjk] at hj
        rcases h.marks hj with ⟨-, n, w, hn, hw, hphase⟩
        exact ⟨hlive, n, w, (Function.update_of_ne hjk _ _).trans hn, hkept hw, hphase⟩

end Superseding

end Foundation
