import GChat.Notifications.Policy

/-!
# Revocations

With notifications off, a reconciliation that comes to its end has sent a revocation for the slot
of each active network whose slot told of a registration.
-/

namespace GChat

namespace Notifications

open Foundation Effect

variable {env : Env} {slot network : String} {value state : Registration} {w t : World}
  {past : List Event} {device : PushDevice} {visit : Visit}
  {active : Except String (List String)} {tally : Tally}

variable (env) in
/-- Since `past` a revocation was sent for the slot. -/
def Tries (slot : String) (past : List Event) (w : World) : Prop :=
  ∃ new, w.log = new ++ past ∧
    ∃ network r, env.slot network = slot ∧ .sent network (.revocation r) ∈ new

variable (env) in
/-- Since `past` a revocation was sent for the slot, or the slot holds what it held. -/
def Waits (slot : String) (held : Option Registration) (past : List Event) (w : World) : Prop :=
  Tries env slot past w ∨ past <:+ w.log ∧ held ≠ none ∧ w.vault slot = held

def World.note (w : World) (event : Event) : World := { w with log := event :: w.log }

theorem Tries.note (h : Tries env slot past w) (event : Event) :
    Tries env slot past (w.note event) := by
  obtain ⟨new, hlog, network, r, hslot, hmem⟩ := h
  refine ⟨event :: new, ?_, network, r, hslot, List.mem_cons_of_mem _ hmem⟩
  rw [World.note, hlog, List.cons_append]

variable {held : Option Registration}

theorem Waits.note (h : Waits env slot held past w) (event : Event) :
    Waits env slot held past (w.note event) := by
  rcases h with htries | ⟨hsuffix, hheld, hvault⟩
  · exact .inl (htries.note event)
  · exact .inr ⟨hsuffix.trans (List.suffix_cons event w.log), hheld, hvault⟩

theorem Waits.suffix (h : Waits env slot held past w) : past <:+ w.log := by
  rcases h with ⟨new, hlog, -⟩ | ⟨hsuffix, -⟩
  · exact ⟨new, hlog.symm⟩
  · exact hsuffix

theorem Waits.keep (h : Waits env slot held past w) {other : String}
    (hother : other = slot → Tries env slot past w) (value : Registration) :
    Waits env slot held past (w.keep other value) := by
  by_cases heq : other = slot
  · exact .inl (hother heq)
  · rcases h with htries | ⟨hsuffix, hheld, hvault⟩
    · exact .inl htries
    · refine .inr ⟨hsuffix, hheld, ?_⟩
      rw [← hvault]
      exact if_neg fun h => heq h.symm

/-! ### Frames of the programs -/

variable {P Q : World → Prop}

theorem answer_frame {α : Type} {reply : Reply α} :
    Meets P (answer reply) (fun _ => P) (fun _ => True) := by
  cases reply with
  | ok value => exact meets_pure fun w hw => hw
  | refused message => exact meets_pure fun w hw => hw
  | cut => exact meets_lift (x := .error _) (by rintro _ ⟨⟩) fun _ _ _ _ => trivial

theorem send_frame {α : Type} {request : Request} {reply : Reply α}
    (hsend : ∀ w, P w → Q (w.note (.sent network request))) :
    Meets P (send network request reply) (fun _ => Q) (fun _ => True) := by
  unfold send record
  exact (meets_modify hsend).bind fun _ => answer_frame

theorem save_frame {outcome : Saved} (hkeep : ∀ w, P w → P (w.keep slot value))
    (hnote : ∀ w event, P w → P (w.note event)) :
    Meets P (save slot value outcome) (fun _ => P) (fun _ => True) := by
  refine meets_step ?_ fun _ _ _ _ _ => trivial
  intro w hw _ t hrun
  cases outcome with
  | stored =>
      cases hrun
      exact hnote _ _ (hkeep w hw)
  | failed kept => cases hrun

theorem lift_frame {α : Type} {x : Except String α} :
    Meets P (Effect.lift x) (fun _ => P) (fun _ => True) :=
  meets_lift (fun _ _ _ h => h) fun _ _ _ _ => trivial

theorem post_frame {origin path : String} {reply : Reply Answer} :
    Meets P (post env origin path reply) (fun _ => P) (fun _ => True) := by
  unfold post
  split
  · exact answer_frame
  · exact meets_pure fun w hw => hw

/-- Once the revocation is sent `P` has become `Q`. -/
theorem revoke_frame (hkeep : ∀ w value, P w → P (w.keep (env.slot network) value))
    (hnote : ∀ w event, P w → P (w.note event))
    (hsend : ∀ w r, P w → Q (w.note (.sent network (.revocation r))))
    (hnext : ∀ w event, Q w → Q (w.note event)) :
    Meets P (revoke env device network state visit) (fun _ => Q) (fun _ => True) := by
  unfold revoke
  refine lift_frame.bind fun state => ?_
  refine (save_frame (hkeep · _) hnote).bind fun _ => ?_
  refine (send_frame fun w => hnote w _).bind fun bound => ?_
  refine lift_frame.bind fun state => ?_
  refine (save_frame (hkeep · _) hnote).bind fun _ => ?_
  refine (send_frame fun w => hsend w _).bind fun ticket => ?_
  cases ticket with
  | error message => exact meets_pure fun w hw => hw
  | ok ticket =>
      refine post_frame.bind fun result => ?_
      cases result with
      | error message => exact meets_pure fun w hw => hw
      | ok answer =>
          exact (meets_modify fun w => hnext w _).bind fun _ => meets_pure fun w hw => hw

/-! ### Visits with notifications off -/

theorem load_waits : Meets (Waits env slot held past) (load (env.slot network) visit)
    (fun state w => Waits env slot held past w ∧
      (env.slot network = slot → Tries env slot past w ∨ held = some state))
    (fun _ => True) := by
  unfold load
  refine lift_frame.bind fun _ => meets_get fun _ hwaits => meets_pure ?_
  rintro w rfl
  refine ⟨hwaits, ?_⟩
  rintro rfl
  rcases hwaits with htries | ⟨-, hheld, hvault⟩
  · exact .inl htries
  · cases held with
    | none => exact absurd rfl hheld
    | some value => simp [hvault]

/-- A visit of an active network whose slot tells of a registration sends a revocation. -/
theorem cleanUp_waits (htells : ∀ value, held = some value → value.SaysSo) :
    Meets (Waits env slot held past) (cleanUp env device active network visit tally)
      (fun _ w => Waits env slot held past w ∧
        (env.slot network = slot → isActive active network = true → Tries env slot past w))
      (fun _ => True) := by
  unfold cleanUp
  refine load_waits.bind fun state => ?_
  split
  next hclear =>
    refine meets_pure ?_
    rintro w ⟨hwaits, hstate⟩
    refine ⟨hwaits, fun hslot _ => (hstate hslot).resolve_right fun hheld => ?_⟩
    rcases htells state hheld with hpending | hreference
    · rw [hclear.2] at hpending
      cases hpending
    · exact hreference hclear.1
  · refine Meets.bind (Q := fun left w => Waits env slot held past w ∧
      (env.slot network = slot → isActive active network = true → Tries env slot past w) ∧
      (left.2 = false → isActive active network = true)) ?_ fun left => ?_
    · split
      next hactive =>
        by_cases hslot : env.slot network = slot
        · refine (revoke_frame (P := fun w => past <:+ w.log) (Q := Tries env slot past)
            (fun _ _ h => h) (fun w event h => h.trans (List.suffix_cons event w.log)) ?_
            fun w event h => h.note event).imp (fun w h => h.1.suffix) ?_ fun _ h => h
          · rintro w r ⟨new, hlog⟩
            refine ⟨_ :: new, ?_, network, r, hslot, List.mem_cons_self⟩
            rw [World.note, ← hlog, List.cons_append]
          · exact fun _ w htries => ⟨.inl htries, fun _ _ => htries, fun _ => hactive⟩
        · refine (revoke_frame (P := Waits env slot held past) (Q := Waits env slot held past)
            (fun w value h => h.keep (fun heq => absurd heq hslot) value)
            (fun w event h => h.note event) (fun w r h => h.note _)
            fun w event h => h.note event).imp (fun w h => h.1) ?_ fun _ h => h
          exact fun _ w hwaits => ⟨hwaits, fun heq => absurd heq hslot, fun _ => hactive⟩
      next hactive =>
        refine meets_pure ?_
        rintro w ⟨hwaits, -⟩
        exact ⟨hwaits, fun _ h => absurd h hactive, nofun⟩
    · split
      · exact meets_pure fun w h => ⟨h.1, h.2.1⟩
      next hdone =>
        rw [Bool.not_eq_true] at hdone
        refine Meets.bind (Q := fun _ w => Waits env slot held past w ∧
          (env.slot network = slot → Tries env slot past w)) ?_ fun _ =>
            meets_pure fun w h => ⟨h.1, fun hslot _ => h.2 hslot⟩
        refine (save_frame (P := fun w => Waits env slot held past w ∧
          (env.slot network = slot → Tries env slot past w)) ?_ ?_).imp ?_ (fun _ _ h => h)
            fun _ h => h
        · exact fun w h => ⟨h.1.keep h.2 _, h.2⟩
        · exact fun w event h => ⟨h.1.note event, fun hslot => (h.2 hslot).note event⟩
        · exact fun w h => ⟨h.1, fun hslot => h.2.1 hslot (h.2.2 hdone)⟩

theorem rounds_waits (slot : String) (past : List Event) {networks : List String} {visits : ℕ → Visit}
    (htells : ∀ value, held = some value → value.SaysSo) :
    Meets (Waits env slot held past) (rounds env device false active networks visits tally)
      (fun _ w => Waits env slot held past w ∧
        ((∃ network ∈ networks, env.slot network = slot ∧ isActive active network = true) →
          Tries env slot past w))
      (fun _ => True) := by
  induction networks generalizing visits tally held with
  | nil => exact meets_pure fun w h => ⟨h, by simp⟩
  | cons network networks ih =>
      unfold rounds
      refine (meets_modify (Q := Waits env slot held past) fun w h => h).bind fun _ => ?_
      refine (cleanUp_waits htells).bind fun tally => ?_
      by_cases hvisited : env.slot network = slot ∧ isActive active network = true
      · -- From here on a revocation was sent, whatever the slot holds.
        have hnone : ∀ value : Registration, none = some value → value.SaysSo := by
          intro value hvalue
          cases hvalue
        refine (ih hnone).imp ?_ ?_ fun _ h => h
        · exact fun w h => .inl (h.2 hvisited.1 hvisited.2)
        · intro _ w h
          have htries : Tries env slot past w := h.1.resolve_right fun h => h.2.1 rfl
          exact ⟨.inl htries, fun _ => htries⟩
      · refine (ih htells).imp (fun w h => h.1) ?_ fun _ h => h
        rintro _ w ⟨hwaits, htries⟩
        refine ⟨hwaits, ?_⟩
        rintro ⟨other, hmem, hother⟩
        rcases List.mem_cons.mp hmem with rfl | hmem
        · exact absurd hother hvisited
        · exact htries ⟨other, hmem, hother⟩

end Notifications

end GChat
