import GChat.Foundation.Numbering
import GChat.Notifications.Sync

/-!
# Revisions and live registrations

Whatever a reconciliation meets, and wherever it ends: the revisions sent for a slot are saved
first and increase, and a slot whose registration may be live says so. The invariant speaks of the
vault and of what has happened, so it does not matter where a program stops.
-/

namespace GChat

namespace Notifications

open Foundation Effect

variable (env : Env)

/-! ### What has happened -/

/-- The revisions saved and sent for the slots, newest first. -/
def numbers (log : List Event) : List (Numbering String) :=
  log.filterMap fun
    | .stored slot value => some (.saved slot value.revision)
    | .sent network request => some (.used (env.slot network) request.revision)
    | .revoked _ => none

/-- A registration was sent for the slot, and no revocation was confirmed since. -/
def Live (slot : String) : List Event → Prop
  | [] => False
  | .sent network (.registration _) :: log => env.slot network = slot ∨ Live slot log
  | .revoked network :: log => env.slot network ≠ slot ∧ Live slot log
  | _ :: log => Live slot log

instance decidableLive (slot : String) : ∀ log, Decidable (Live env slot log)
  | [] => .isFalse id
  | .sent network (.registration _) :: log =>
      have := decidableLive slot log
      inferInstanceAs (Decidable (env.slot network = slot ∨ Live env slot log))
  | .sent _ (.bind ..) :: log => decidableLive slot log
  | .sent _ (.revocation _) :: log => decidableLive slot log
  | .revoked network :: log =>
      have := decidableLive slot log
      inferInstanceAs (Decidable (env.slot network ≠ slot ∧ Live env slot log))
  | .stored .. :: log => decidableLive slot log

variable {env} {slot network : String} {request : Request} {value state : Registration}
  {log : List Event} {n : ℕ}

@[simp] theorem numbers_stored :
    numbers env (.stored slot value :: log) = .saved slot value.revision :: numbers env log := rfl

@[simp] theorem numbers_sent : numbers env (.sent network request :: log) =
    .used (env.slot network) request.revision :: numbers env log := rfl

@[simp] theorem numbers_revoked : numbers env (.revoked network :: log) = numbers env log := rfl

@[simp] theorem live_stored : Live env slot (.stored network value :: log) ↔ Live env slot log :=
  Iff.rfl

@[simp] theorem live_revoked :
    Live env slot (.revoked network :: log) ↔ env.slot network ≠ slot ∧ Live env slot log :=
  Iff.rfl

theorem live_sent (h : Live env slot (.sent network request :: log)) :
    (env.slot network = slot ∧ ∃ r, request = .registration r) ∨ Live env slot log := by
  cases request with
  | bind reference revision expires => exact .inr h
  | revocation r => exact .inr h
  | registration r =>
      rcases h with heq | h
      · exact .inl ⟨heq, r, rfl⟩
      · exact .inr h

theorem exists_sent_of_live (h : Live env slot log) :
    ∃ network r, env.slot network = slot ∧ .sent network (.registration r) ∈ log := by
  induction log with
  | nil => exact absurd h id
  | cons event log ih =>
      have hrest : Live env slot log → ∃ network r, env.slot network = slot ∧
          .sent network (.registration r) ∈ event :: log := by
        intro h
        obtain ⟨network, r, heq, hmem⟩ := ih h
        exact ⟨network, r, heq, List.mem_cons_of_mem _ hmem⟩
      cases event with
      | stored slot value => exact hrest h
      | revoked network => exact hrest h.2
      | sent network request =>
          rcases live_sent h with ⟨heq, r, rfl⟩ | h
          · exact ⟨network, r, heq, List.mem_cons_self⟩
          · exact hrest h

/-! ### The invariant -/

/-- The first revision that no request for the slot has used. -/
def World.unused (w : World) (slot : String) : ℕ :=
  match w.vault slot with
  | some value => value.revision + 1
  | none => 0

variable (env) in
/-- The invariant of the vault and of what has happened. The registrations sent are of `known`
networks, and the policy is that of `v`, in the file and in memory. -/
structure Sound (known : String → Prop) (v w : World) : Prop where
  fresh : Numbering.Fresh (numbers env w.log)
  below : ∀ slot, Numbering.Below (numbers env w.log) slot (w.unused slot)
  live : ∀ slot, Live env slot w.log → ∃ value, w.vault slot = some value ∧ value.SaysSo
  known : ∀ network r, .sent network (.registration r) ∈ w.log → known network
  file : w.file = v.file
  policy : w.push.policy = v.push.policy
  policyError : w.push.policyError = v.push.policyError

variable {known : String → Prop} {v w : World}

variable (env) in
/-- What a record may say that is to be kept in a slot. -/
def Covers (slot : String) (value : Registration) (w : World) : Prop :=
  Numbering.Below (numbers env w.log) slot (value.revision + 1) ∧
    (Live env slot w.log → value.SaysSo)

theorem Sound.covers (h : Sound env known v w) (hvault : w.vault slot = some value) :
    Covers env slot value w := by
  constructor
  · have hbelow := h.below slot
    unfold World.unused at hbelow
    rwa [hvault] at hbelow
  · intro hlive
    obtain ⟨kept, hkept, htells⟩ := h.live slot hlive
    rw [hvault] at hkept
    cases hkept
    exact htells

/-- A slot may be overwritten by a record that covers what was sent for it. -/
theorem Sound.keep (h : Sound env known v w) (hcovers : Covers env slot value w) :
    Sound env known v (w.keep slot value) where
  fresh := h.fresh
  below := by
    intro s
    unfold World.unused World.keep
    by_cases heq : s = slot
    · subst heq
      simpa using hcovers.1
    · simp only [if_neg heq]
      exact h.below s
  live := by
    intro s hlive
    unfold World.keep
    by_cases heq : s = slot
    · subst heq
      exact ⟨value, by simp, hcovers.2 hlive⟩
    · simpa [heq] using h.live s hlive
  known := h.known
  file := h.file
  policy := h.policy
  policyError := h.policyError

theorem Sound.record_stored (h : Sound env known v w) :
    Sound env known v { w with log := .stored slot value :: w.log } where
  fresh := h.fresh
  below s := Numbering.below_saved.mpr (h.below s)
  live := h.live
  known network r hmem := h.known network r (by simpa using hmem)
  file := h.file
  policy := h.policy
  policyError := h.policyError

theorem Sound.record_revoked (h : Sound env known v w) :
    Sound env known v { w with log := .revoked network :: w.log } where
  fresh := h.fresh
  below := h.below
  live s hlive := h.live s hlive.2
  known network r hmem := h.known network r (by simpa using hmem)
  file := h.file
  policy := h.policy
  policyError := h.policyError

variable (env) in
/-- The record is in its slot, under a revision that was saved and that no request has used. -/
def Ready (slot : String) (value : Registration) (w : World) : Prop :=
  w.vault slot = some value ∧ .saved slot value.revision ∈ numbers env w.log ∧
    Numbering.Below (numbers env w.log) slot value.revision

theorem Sound.record_sent (h : Sound env known v w)
    (hready : Ready env (env.slot network) value w)
    (hrevision : request.revision = value.revision)
    (hregistration : ∀ r, request = .registration r → value.SaysSo ∧ known network) :
    Sound env known v { w with log := .sent network request :: w.log } where
  fresh := by
    rw [numbers_sent, hrevision]
    exact ⟨hready.2.2, hready.2.1, h.fresh⟩
  below := by
    intro s
    refine (h.below s).used ?_
    rintro rfl
    unfold World.unused
    rw [hready.1, hrevision]
    exact Nat.lt_succ_self _
  live := by
    intro s hlive
    rcases live_sent hlive with ⟨rfl, r, hr⟩ | hlive
    · exact ⟨value, hready.1, (hregistration r hr).1⟩
    · exact h.live s hlive
  known := by
    intro other r hmem
    rcases List.mem_cons.mp hmem with heq | hmem
    · cases heq
      exact (hregistration r rfl).2
    · exact h.known other r hmem
  file := h.file
  policy := h.policy
  policyError := h.policyError

theorem Sound.advance (h : Sound env known v w) : Sound env known v w.advance where
  fresh := h.fresh
  below := h.below
  live := h.live
  known := h.known
  file := h.file
  policy := h.policy
  policyError := h.policyError

/-! ### The programs -/

variable {visit : Visit} {device : PushDevice}

theorem load_meets :
    Meets (Sound env known v) (load slot visit)
      (fun state w => Sound env known v w ∧ Covers env slot state w) (Sound env known v) := by
  unfold load
  refine (meets_lift (Q := fun _ => Sound env known v) ?_ ?_).bind fun _ => ?_
  · intro _ _ w hw
    exact hw
  · intro _ _ w hw
    exact hw
  · refine meets_get fun _ hw => meets_pure ?_
    rintro w rfl
    refine ⟨hw, ?_⟩
    cases hvault : w.vault slot with
    | some value => exact hw.covers hvault
    | none =>
        constructor
        · have hbelow := hw.below slot
          unfold World.unused at hbelow
          rw [hvault] at hbelow
          exact hbelow.mono (Nat.zero_le _)
        · intro hlive
          obtain ⟨kept, hkept, -⟩ := hw.live slot hlive
          rw [hvault] at hkept
          cases hkept

theorem save_meets {outcome : Saved} (hle : n ≤ value.revision + 1) :
    Meets (fun w => Sound env known v w ∧ Numbering.Below (numbers env w.log) slot n ∧
        (Live env slot w.log → value.SaysSo))
      (save slot value outcome)
      (fun _ w => Sound env known v w ∧ w.vault slot = some value ∧
        .saved slot value.revision ∈ numbers env w.log ∧
        Numbering.Below (numbers env w.log) slot n)
      (Sound env known v) := by
  refine meets_step ?_ ?_
  · rintro w ⟨hw, hbelow, htells⟩ _ t hrun
    cases outcome with
    | failed kept => cases hrun
    | stored =>
        cases hrun
        refine ⟨(hw.keep ⟨hbelow.mono hle, htells⟩).record_stored, ?_, ?_, ?_⟩
        · simp [World.keep]
        · simp
        · simpa using hbelow
  · rintro w ⟨hw, hbelow, htells⟩ _ t hrun
    cases outcome with
    | stored => cases hrun
    | failed kept =>
        cases hrun
        cases kept with
        | false => exact hw
        | true => exact hw.keep ⟨hbelow.mono hle, htells⟩

/-- The next revision of a record, saved. -/
theorem save_next_meets {outcome : Saved} (state next : Registration)
    (hrevision : next.revision = state.revision + 1) (htells : state.SaysSo → next.SaysSo) :
    Meets (fun w => Sound env known v w ∧ Covers env slot state w)
      (save slot next outcome)
      (fun _ w => Sound env known v w ∧ Ready env slot next w) (Sound env known v) := by
  refine (save_meets (n := next.revision) (Nat.le_succ _)).imp ?_ ?_ fun _ h => h
  · rintro w ⟨hw, hcovers⟩
    refine ⟨hw, ?_, fun hlive => htells (hcovers.2 hlive)⟩
    rw [hrevision]
    exact hcovers.1
  · exact fun _ w h => h

theorem answer_meets {α : Type} {reply : Reply α} {P : World → Prop}
    (hP : ∀ w, P w → Sound env known v w) :
    Meets P (answer reply) (fun _ => P) (Sound env known v) := by
  cases reply with
  | ok value => exact meets_pure fun w hw => hw
  | refused message => exact meets_pure fun w hw => hw
  | cut =>
      refine meets_lift (x := .error _) ?_ ?_
      · intro _ h
        cases h
      · intro _ _ w hw
        exact hP w hw

theorem send_meets {α : Type} {reply : Reply α} (hrevision : request.revision = value.revision)
    (hregistration : ∀ r, request = .registration r → value.SaysSo ∧ known network) :
    Meets (fun w => Sound env known v w ∧ Ready env (env.slot network) value w)
      (send network request reply)
      (fun _ w => Sound env known v w ∧ w.vault (env.slot network) = some value)
      (Sound env known v) := by
  unfold send record
  refine (meets_modify (Q := fun w => Sound env known v w ∧
    w.vault (env.slot network) = some value) ?_).bind fun _ => answer_meets fun w hw => hw.1
  rintro w ⟨hw, hready⟩
  exact ⟨hw.record_sent hready hrevision hregistration, hready.1⟩

theorem post_meets {origin path : String} {reply : Reply Answer} {P : World → Prop}
    (hP : ∀ w, P w → Sound env known v w) :
    Meets P (post env origin path reply) (fun _ => P) (Sound env known v) := by
  unfold post
  split
  · exact answer_meets hP
  · exact meets_pure fun w hw => hw

/-- The next revision, or an end where there is none. -/
theorem next_meets {P : World → Prop} {α : Type} {f : Registration → Effect World α}
    {R : α → World → Prop} (hP : ∀ w, P w → Sound env known v w)
    (hf : Meets P (f { state with revision := state.revision + 1 }) R (Sound env known v)) :
    Meets P (Effect.lift state.nextRevision >>= f) R (Sound env known v) := by
  unfold Registration.nextRevision
  split
  · refine (meets_lift (Q := fun next w => P w ∧
      next = { state with revision := state.revision + 1 }) ?_ ?_).bind fun next => ?_
    · intro next hnext w hw
      cases hnext
      exact ⟨hw, rfl⟩
    · intro _ hnext
      cases hnext
    · refine meets_and fun hnext => ?_
      rw [hnext]
      exact hf
  · refine (meets_lift (Q := fun _ _ => False) ?_ fun _ _ w hw => hP w hw).bind fun _ => ?_
    · intro _ hnext
      cases hnext
    · exact meets_iff.mpr fun _ h => h.elim

/-- A check on values, which may end the program. -/
theorem check_meets {P : World → Prop} {α β : Type} {x : Except String α}
    {f : α → Effect World β} {R : β → World → Prop} (hP : ∀ w, P w → Sound env known v w)
    (hf : ∀ a, x = .ok a → Meets P (f a) R (Sound env known v)) :
    Meets P (Effect.lift x >>= f) R (Sound env known v) := by
  refine (meets_lift (Q := fun a w => P w ∧ x = .ok a) ?_ ?_).bind fun a => meets_and (hf a)
  · intro a ha w hw
    exact ⟨hw, ha⟩
  · intro _ _ w hw
    exact hP w hw

theorem revoke_meets :
    Meets (fun w => Sound env known v w ∧ Covers env (env.slot network) state w)
      (revoke env device network state visit)
      (fun left w => Sound env known v w ∧ Covers env (env.slot network) left.1 w ∧
        (left.2 = false → ¬ Live env (env.slot network) w.log))
      (Sound env known v) := by
  have hleft : ∀ value : Registration, Meets
      (fun w => Sound env known v w ∧ w.vault (env.slot network) = some value)
      (pure (value, true))
      (fun left w => Sound env known v w ∧ Covers env (env.slot network) left.1 w ∧
        (left.2 = false → ¬ Live env (env.slot network) w.log)) (Sound env known v) := by
    intro value
    refine meets_pure ?_
    rintro w ⟨hw, hvault⟩
    exact ⟨hw, hw.covers hvault, nofun⟩
  unfold revoke
  refine next_meets (fun w hw => hw.1) ?_
  refine (save_next_meets state { state with revision := state.revision + 1 } rfl id).bind
    fun _ => ?_
  refine (send_meets rfl (by rintro _ ⟨⟩)).bind fun bound => ?_
  refine next_meets (fun w hw => hw.1) ?_
  refine ((save_next_meets { state with revision := state.revision + 1 } _ rfl
    fun _ => .inl rfl).imp ?_ (fun _ _ h => h) fun _ h => h).bind fun _ => ?_
  · rintro w ⟨hw, hvault⟩
    exact ⟨hw, hw.covers hvault⟩
  refine (send_meets rfl (by rintro _ ⟨⟩)).bind fun ticket => ?_
  cases ticket with
  | error message => exact hleft _
  | ok ticket =>
      refine (post_meets fun w hw => hw.1).bind fun result => ?_
      cases result with
      | error message => exact hleft _
      | ok answer =>
          refine (meets_modify (Q := fun w => (Sound env known v w ∧
            w.vault (env.slot network) = some { state with
              revision := state.revision + 1 + 1
              registrationPending := true }) ∧
            ¬ Live env (env.slot network) w.log) ?_).bind fun _ => meets_pure ?_
          · rintro w ⟨hw, hvault⟩
            exact ⟨⟨hw.record_revoked, hvault⟩, fun hlive => hlive.1 rfl⟩
          · rintro w ⟨⟨hw, hvault⟩, hlive⟩
            exact ⟨hw, hw.covers hvault, fun _ => hlive⟩

theorem cleanUp_meets {active : Except String (List String)} {tally : Tally} :
    Meets (Sound env known v) (cleanUp env device active network visit tally)
      (fun _ => Sound env known v) (Sound env known v) := by
  unfold cleanUp
  refine load_meets.bind fun state => ?_
  split
  · exact meets_pure fun w hw => hw.1
  · refine Meets.bind (Q := fun left w => Sound env known v w ∧
      Covers env (env.slot network) left.1 w ∧
      (left.2 = false → ¬ Live env (env.slot network) w.log)) ?_ fun left => ?_
    · split
      · exact revoke_meets
      · refine meets_pure ?_
        rintro w ⟨hw, hcovers⟩
        exact ⟨hw, hcovers, nofun⟩
    · split
      · exact meets_pure fun w hw => hw.1
      next hdone =>
        refine Meets.bind (Q := fun _ => Sound env known v) ?_ fun _ =>
          meets_pure fun w hw => hw
        refine (save_meets le_rfl).imp ?_ (fun _ w h => h.1)
          fun _ h => h
        rintro w ⟨hw, hcovers, hrevoked⟩
        exact ⟨hw, hcovers.1, fun hlive =>
          absurd hlive (hrevoked (Bool.eq_false_iff.mpr hdone))⟩

theorem ne_empty_of_hex32 {text : String} {bytes : List UInt8} (h : hex32 text = .ok bytes) :
    text ≠ "" := by
  rintro rfl
  cases h

theorem register_meets {token : String} (hknown : known network) :
    Meets (fun w => Sound env known v w ∧ Covers env (env.slot network) state w)
      (register env device token network state visit)
      (fun state w => Sound env known v w ∧ Covers env (env.slot network) state w)
      (Sound env known v) := by
  unfold register
  refine next_meets (fun w hw => hw.1) ?_
  refine (save_next_meets state { state with
    revision := state.revision + 1
    registrationPending := true } rfl fun _ => .inl rfl).bind fun _ => ?_
  refine (send_meets rfl fun _ _ => ⟨.inl rfl, hknown⟩).bind fun ticket => ?_
  refine check_meets (fun w hw => hw.1) fun ticket _ => ?_
  refine check_meets (fun w hw => hw.1) fun _ _ => ?_
  refine (post_meets fun w hw => hw.1).bind fun response => ?_
  refine check_meets (fun w hw => hw.1) fun response _ => ?_
  refine check_meets (fun w hw => hw.1) fun reference _ => ?_
  refine check_meets (fun w hw => hw.1) fun management _ => ?_
  refine check_meets (fun w hw => hw.1) fun _ hreference => ?_
  refine check_meets (fun w hw => hw.1) fun _ _ => ?_
  refine check_meets (fun w hw => hw.1) fun expires _ => ?_
  refine ((save_meets le_rfl).imp ?_ (fun _ _ h => h) fun _ h => h).bind fun _ =>
    meets_pure fun w hw => ⟨hw.1, hw.1.covers hw.2.1⟩
  rintro w ⟨hw, hvault⟩
  exact ⟨hw, (hw.covers hvault).1, fun _ => .inr (ne_empty_of_hex32 hreference)⟩

theorem bindNetwork_meets {active : Except String (List String)} {tally : Tally}
    (hknown : isActive active network = true → known network) :
    Meets (Sound env known v) (bindNetwork env device active network visit tally)
      (fun _ => Sound env known v) (Sound env known v) := by
  unfold bindNetwork
  refine load_meets.bind fun state => ?_
  split
  next hactive =>
    refine check_meets (fun w hw => hw.1) fun token _ => ?_
    refine Meets.bind (Q := fun state w => Sound env known v w ∧
      Covers env (env.slot network) state w) ?_ fun state => ?_
    · split
      · exact register_meets (hknown hactive)
      · exact meets_pure fun w hw => hw
    · refine next_meets (fun w hw => hw.1) ?_
      refine (save_next_meets state { state with revision := state.revision + 1 } rfl id).bind
        fun _ => ?_
      refine check_meets (fun w hw => hw.1) fun reference _ => ?_
      refine (send_meets rfl (by rintro _ ⟨⟩)).bind fun bound => ?_
      refine check_meets (fun w hw => hw.1) fun _ _ => ?_
      exact meets_pure fun w hw => hw.1
  · exact meets_pure fun w hw => hw.1

/-- The networks visited keep the invariant, wherever the visits end. -/
theorem rounds_meets {enabled : Bool} {active : Except String (List String)}
    {networks : List String} {visits : ℕ → Visit} {tally : Tally}
    (hknown : enabled = true → ∀ network ∈ networks, isActive active network = true →
      known network) :
    Meets (Sound env known v) (rounds env device enabled active networks visits tally)
      (fun _ => Sound env known v) (Sound env known v) := by
  induction networks generalizing visits tally with
  | nil => exact meets_pure fun w hw => hw
  | cons network networks ih =>
      unfold rounds
      refine (meets_modify (Q := Sound env known v) fun w hw => hw.advance).bind fun _ => ?_
      refine Meets.bind (Q := fun _ => Sound env known v) ?_ fun tally => ?_
      · split
        next henabled =>
          exact bindNetwork_meets (hknown henabled network List.mem_cons_self)
        · exact cleanUp_meets
      · exact ih fun henabled network hmem =>
          hknown henabled network (List.mem_cons_of_mem _ hmem)

end Notifications

end GChat
