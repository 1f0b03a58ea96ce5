import GChat.Notifications.Revisions

/-!
# Registrations and the policy

A network is revoked while notifications are off because the policy lists it. The list is kept in
the policy file and in memory, and the two agree on the registered networks as long as every
registration follows a save of the list it is for.
-/

namespace GChat

namespace Notifications

open Foundation Effect

variable {env : Env} {known : String → Prop} {v w t : World} {network : String}
  {device : PushDevice} {a : Attempt}

/-- The policy file lists the network. -/
def World.Filed (w : World) (network : String) : Prop :=
  ∃ policy, w.file = some policy ∧ network ∈ policy.networks

/-- The network is listed in memory and in the policy file. -/
def World.Listed (w : World) (network : String) : Prop :=
  network ∈ w.push.policy.networks ∧ w.Filed network

/-! ### Changes of the policy -/

/-- From `w` to `t` only the policy changes, and no network leaves it. -/
structure Spread (w t : World) : Prop where
  vault : t.vault = w.vault
  log : t.log = w.log
  networks : w.push.policy.networks ⊆ t.push.policy.networks
  file : t.file = w.file ∨ ∃ policy, t.file = some policy ∧
    w.push.policy.networks ⊆ policy.networks
  policyError : t.push.policyError = true → w.push.policyError = true

theorem Spread.refl (w : World) : Spread w w :=
  ⟨rfl, rfl, List.Subset.refl _, .inl rfl, id⟩

theorem Spread.listed (h : Spread w t) (hlisted : w.Listed network) : t.Listed network := by
  obtain ⟨hmem, policy, hfile, hfiled⟩ := hlisted
  refine ⟨h.networks hmem, ?_⟩
  rcases h.file with hsame | ⟨saved, hsaved, hsubset⟩
  · exact ⟨policy, hsame.trans hfile, hfiled⟩
  · exact ⟨saved, hsaved, hsubset hmem⟩

theorem Spread.sound (h : Spread w t) (hw : Sound env known v w) : Sound env known t t where
  fresh := by
    rw [h.log]
    exact hw.fresh
  below := by
    intro slot
    have hbelow := hw.below slot
    unfold World.unused at hbelow ⊢
    rwa [h.log, h.vault]
  live := by
    rw [h.log, h.vault]
    exact hw.live
  known := by
    rw [h.log]
    exact hw.known
  file := rfl
  policy := rfl
  policyError := rfl

theorem persistPolicy_meets (outcome : Saved) :
    Meets (Spread w) (persistPolicy outcome) (fun _ => Spread w) (Spread w) := by
  have hkeep : ∀ t, Spread w t → Spread w { t with file := some t.push.policy } := fun t h =>
    ⟨h.vault, h.log, h.networks, .inr ⟨_, rfl, h.networks⟩, h.policyError⟩
  refine meets_step ?_ ?_
  · intro t h _ u hrun
    cases outcome with
    | stored =>
        cases hrun
        exact hkeep t h
    | failed kept => cases hrun
  · intro t h _ u hrun
    cases outcome with
    | stored => cases hrun
    | failed kept =>
        cases hrun
        cases kept with
        | false => exact h
        | true => exact hkeep t h

theorem Spread.enable (h : Spread w t) (enabled : Bool) : Spread w (t.enable enabled) :=
  ⟨h.vault, h.log, h.networks, h.file, h.policyError⟩

/-- Turning notifications on or off keeps the networks of the policy. -/
theorem configure_spread (c : Configuration) (w : World) :
    Spread w (Effect.after ((configure c).run w)) := by
  have hmeets : Meets (Spread w) (configure c) (fun _ => Spread w) (Spread w) := by
    unfold configure
    refine Meets.bind (Q := fun _ => Spread w) ?_ fun _ => ?_
    · split
      · exact meets_lift (fun _ _ _ h => h) fun _ _ _ h => h
      · exact meets_pure fun _ h => h
    refine (meets_modify fun t h => h.enable c.enabled).bind fun _ => ?_
    refine (persistPolicy_meets c.persist).bind fun _ => ?_
    refine (meets_modify (Q := Spread w) fun t h =>
      ⟨h.vault, h.log, h.networks, h.file, by rintro ⟨⟩⟩).bind fun _ => ?_
    split
    · refine (meets_modify fun t h => h.enable false).bind fun _ => ?_
      refine (persistPolicy_meets c.persistOff).bind fun _ => ?_
      exact meets_lift (x := .error _) nofun fun _ _ _ h => h
    · split
      · refine (meets_modify fun t h => h.enable false).bind fun _ => ?_
        exact persistPolicy_meets c.persistOff
      · exact meets_pure fun _ h => h
  exact after_of_meets hmeets (Spread.refl w)

/-! ### A reconciliation -/

theorem World.mem_collect {networks : List String} :
    network ∈ (w.collect networks).push.policy.networks ↔
      network ∈ w.push.policy.networks ∨ network ∈ networks := by
  unfold World.collect
  dsimp only
  generalize w.push.policy.networks = listed
  induction networks generalizing listed with
  | nil => simp
  | cons first networks ih =>
      rw [List.foldl_cons, ih, List.mem_cons, ← or_assoc]
      refine or_congr_left ?_
      split
      next hmem =>
        have hfirst : first ∈ listed := by simpa using hmem
        constructor
        · exact .inl
        · rintro (hlisted | rfl)
          · exact hlisted
          · exact hfirst
      · simp

theorem spread_collect (networks : List String) : Spread w (w.collect networks) :=
  ⟨rfl, rfl, fun _ hmem => World.mem_collect.mpr (.inl hmem), .inl rfl, id⟩

theorem collect_spread (a : Attempt) (w : World) :
    Spread w (Effect.after ((collect a).run w)) := by
  have hmeets : Meets (· = w) (collect a) (fun _ => Spread w) (Spread w) := by
    unfold collect
    refine meets_get ?_
    rintro w rfl
    dsimp only
    split
    · refine (meets_modify (Q := Spread w) ?_).bind fun _ => ?_
      · rintro _ rfl
        exact spread_collect _
      · split
        · exact persistPolicy_meets a.persist
        · exact meets_pure fun _ h => h
    · refine meets_pure ?_
      rintro _ rfl
      exact Spread.refl _
  exact after_of_meets hmeets rfl

/-- After the networks at hand joined the policy, it lists them in memory and in its file, unless
they all were in memory before. -/
theorem collect_listed {active : List String} (hactive : a.active = .ok active)
    (hon : w.push.policy.enabled = true)
    (hfiled : (∃ network ∈ active, network ∉ w.push.policy.networks) ∨
      ∀ network ∈ active, w.Filed network)
    (hrun : (collect a).run w = .ok () t) : ∀ network ∈ active, t.Listed network := by
  have hmeets : Meets (· = w) (collect a)
      (fun _ t => ∀ network ∈ active, t.Listed network) (fun _ => True) := by
    unfold collect
    refine meets_get ?_
    rintro w rfl
    dsimp only
    rw [hon, hactive]
    refine (meets_modify (Q := (· = w.collect active)) ?_).bind fun _ => ?_
    · rintro _ rfl
      rfl
    have hmem : ∀ network ∈ active, network ∈ (w.collect active).push.policy.networks :=
      fun network h => World.mem_collect.mpr (.inr h)
    split
    · refine meets_step ?_ fun _ _ _ _ _ => trivial
      rintro _ rfl _ t hrun network hnetwork
      cases hpersist : a.persist with
      | failed kept =>
          rw [hpersist] at hrun
          cases hrun
      | stored =>
          rw [hpersist] at hrun
          cases hrun
          exact ⟨hmem network hnetwork, _, rfl, hmem network hnetwork⟩
    next hnone =>
      refine meets_pure ?_
      rintro _ rfl network hnetwork
      rcases hfiled with ⟨other, hother, hnew⟩ | hfiled
      · refine absurd ?_ hnone
        rw [List.any_eq_true]
        exact ⟨other, hother, by simpa using hnew⟩
      · exact ⟨hmem network hnetwork, hfiled network hnetwork⟩
  exact (meets_iff.mp hmeets w rfl).1 () t hrun

/-- A reconciliation keeps the invariant, when the networks it may register are known. -/
theorem sync_sound (hw : Sound env known v w)
    (hknown : ∀ t, (collect a).run w = .ok () t → t.push.policy.enabled = true →
      device.usableToken.isSome = true → ∀ network ∈ t.push.policy.networks,
        isActive a.active network = true → known network) :
    Sound env known (Effect.after ((collect a).run w))
      (Effect.after ((sync env device a).run w)) := by
  have hsound := (collect_spread a w).sound hw
  generalize hafter : Effect.after ((collect a).run w) = t at hsound ⊢
  have hcollect : Meets (· = w) (collect a) (fun _ u => (collect a).run w = .ok () u)
      (Sound env known t) := by
    refine meets_iff.mpr ?_
    rintro _ rfl
    constructor
    · exact fun _ _ hrun => hrun
    · intro _ u hrun
      rw [hrun] at hafter
      cases hafter
      exact hsound
  have hmeets : Meets (· = w) (sync env device a) (fun _ => Sound env known t)
      (Sound env known t) := by
    unfold sync
    refine Meets.bind (Q := fun _ => Sound env known t) ?_ fun _ =>
      meets_lift (fun _ _ _ h => h) fun _ _ _ h => h
    unfold visitNetworks
    refine hcollect.bind fun _ => meets_get fun u hrun => ?_
    have heq : t = u := by
      rw [hrun] at hafter
      exact hafter.symm
    subst heq
    dsimp only
    split
    · refine meets_lift (x := .error _) (by rintro _ ⟨⟩) ?_
      rintro _ _ _ rfl
      exact hsound
    · refine Meets.bind (Q := fun _ => Sound env known t) ?_ fun _ => ?_
      · split
        · refine meets_lift ?_ ?_
          · rintro _ _ _ rfl
            exact hsound
          · rintro _ _ _ rfl
            exact hsound
        · refine meets_pure ?_
          rintro _ rfl
          exact hsound
      · refine (rounds_meets ?_).bind fun tally => meets_pure fun _ h => h
        intro henabled network hmem
        rw [Bool.and_eq_true] at henabled
        exact hknown t hrun henabled.1 henabled.2 network (List.mem_rotate.mp hmem)
  exact after_of_meets hmeets rfl

end Notifications

end GChat
