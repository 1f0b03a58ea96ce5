import GChat.Notifications.Revoking

/-!
# Registrations over whole runs

Revisions increase and a slot says what may be registered, in every run. That turning
notifications off goes on trying to revoke takes more, since only the networks of the policy are
visited: the policy file has to list each network before it is registered, and has to be read when
the application starts.
-/

namespace GChat

namespace Notifications

open Foundation Effect

variable {env : Env} {w t : World} {network slot : String}

/-- Each reconciliation with notifications off that gets through its visits while the network is
active sends a revocation for its slot, also after the application starts again. -/
structure Pursued (env : Env) (w : World) (network : String) : Prop where
  listed : w.Listed network
  policyError : w.push.policyError = false
  tries : w.push.policy.enabled = false → ∀ device a found t, isActive a.active network = true →
    (visitNetworks env device a).run w = .ok found t → Tries env (env.slot network) w.log t

/-- Before a network at hand is registered the policy file lists it, or is saved with it, and the
application starts from a policy file it can read, of at most eight networks. -/
def Filing (w : World) : Step → Prop
  | .configure _ => True
  | .reconcile device a => ∀ d active, device = some d → d.usableToken.isSome = true →
      a.active = .ok active → w.push.policy.enabled = true →
        (∃ network ∈ active, network ∉ w.push.policy.networks) ∨
          ∀ network ∈ active, w.Filed network
  | .restart readable => readable = true ∧ ∀ policy, w.file = some policy →
      policy.networks.length ≤ 8 ∧ ∀ name ∈ policy.networks, name.utf8ByteSize ≤ 128

/-! ### Revocations while notifications are off -/

theorem visitNetworks_tries {device : PushDevice} {a : Attempt} {found : Bool × Tally}
    {value : Registration} (hoff : w.push.policy.enabled = false)
    (hlisted : network ∈ w.push.policy.networks) (hactive : isActive a.active network = true)
    (hvault : w.vault (env.slot network) = some value) (htells : value.SaysSo)
    (hrun : (visitNetworks env device a).run w = .ok found t) :
    Tries env (env.slot network) w.log t := by
  have hmeets : Meets (· = w) (visitNetworks env device a)
      (fun _ t => Tries env (env.slot network) w.log t) (fun _ => True) := by
    unfold visitNetworks
    refine Meets.bind (Q := fun _ => (· = w)) ?_ fun _ => ?_
    · unfold collect
      refine meets_get ?_
      rintro w rfl
      dsimp only
      rw [hoff]
      exact meets_pure fun _ h => h
    · refine meets_get ?_
      rintro w rfl
      dsimp only
      rw [hoff]
      refine Meets.bind (Q := fun _ => (· = w)) (meets_pure fun _ h => h) fun _ => ?_
      refine Meets.bind (Q := fun _ t => Tries env (env.slot network) w.log t) ?_ fun tally =>
        meets_pure fun _ h => h
      have hheld : ∀ held, some value = some held → held.SaysSo := by
        rintro _ ⟨⟩
        exact htells
      have hwaits : Waits env (env.slot network) (some value) w.log w :=
        .inr ⟨List.suffix_rfl, nofun, hvault⟩
      refine (rounds_waits (env.slot network) w.log hheld).imp ?_ ?_ fun _ h => h
      · rintro _ rfl
        exact hwaits
      · exact fun _ t h => h.2 ⟨network, List.mem_rotate.mpr hlisted, rfl, hactive⟩
  exact (meets_iff.mp hmeets w rfl).1 found t hrun

/-! ### The invariant over runs -/

theorem sound_fresh (known : String → Prop) : Sound env known .fresh .fresh where
  fresh := trivial
  below _ := nofun
  live _ := nofun
  known _ _ := nofun
  file := rfl
  policy := rfl
  policyError := rfl

theorem Sound.settle {known : String → Prop} {v : World} (h : Sound env known v w) :
    Sound env known w w :=
  (Spread.refl w).sound h

theorem Sound.mono {known listed : String → Prop} {v : World} (h : Sound env known v w)
    (hlisted : ∀ network, known network → listed network) : Sound env listed v w :=
  { h with known := fun network r hmem => hlisted network (h.known network r hmem) }

theorem Sound.restart {known : String → Prop} {v : World} (h : Sound env known v w)
    (push : Push) : Sound env known { w with push := push } { w with push := push } where
  fresh := h.fresh
  below := h.below
  live := h.live
  known := h.known
  file := rfl
  policy := rfl
  policyError := rfl

theorem reachable_sound (h : (runs env).Reachable w) : Sound env (fun _ => True) w w := by
  refine Machine.Reachable.invariant (I := fun w => Sound env (fun _ => True) w w) ?_ ?_ h
  · rintro _ rfl
    exact sound_fresh _
  · rintro w step _ - hw rfl
    cases step with
    | configure c => exact (configure_spread c w).sound hw
    | restart readable => exact hw.restart _
    | reconcile device a =>
        unfold World.step reconcile
        dsimp only
        split
        · exact hw
        · split
          · exact (sync_sound hw fun _ _ _ _ _ _ _ => trivial).settle
          · exact hw

/-! ### The policy over runs -/

/-- The registered networks are listed. -/
structure Tracked (env : Env) (w : World) : Prop where
  sound : Sound env w.Listed w w
  policyError : w.push.policyError = false

theorem Tracked.spread (h : Tracked env w) (hspread : Spread w t) : Tracked env t where
  sound := (hspread.sound h.sound).mono fun _ hlisted => hspread.listed hlisted
  policyError := Bool.eq_false_iff.mpr fun herror =>
    Bool.eq_false_iff.mp h.policyError (hspread.policyError herror)

theorem collect_enabled {a : Attempt} (hrun : (collect a).run w = .ok () t) :
    t.push.policy.enabled = w.push.policy.enabled := by
  have hmeets : Meets (· = w) (collect a)
      (fun _ t => t.push.policy.enabled = w.push.policy.enabled) (fun _ => True) := by
    unfold collect
    refine meets_get ?_
    rintro w rfl
    dsimp only
    split
    · refine (meets_modify (Q := fun t => t.push.policy.enabled = w.push.policy.enabled)
        ?_).bind fun _ => ?_
      · rintro _ rfl
        rfl
      · split
        · refine meets_step ?_ fun _ _ _ _ _ => trivial
          intro u hu _ t hrun
          cases hpersist : a.persist with
          | stored =>
              rw [hpersist] at hrun
              cases hrun
              exact hu
          | failed kept =>
              rw [hpersist] at hrun
              cases hrun
        · exact meets_pure fun _ h => h
    · refine meets_pure ?_
      rintro _ rfl
      rfl
  exact (meets_iff.mp hmeets w rfl).1 () t hrun

theorem exists_active {active : Except String (List String)} (h : isActive active network = true) :
    ∃ networks, active = .ok networks ∧ network ∈ networks := by
  unfold isActive at h
  split at h
  · exact ⟨_, rfl, by simpa using h⟩
  · cases h

/-- A reconciliation for which each network at hand is filed keeps the registered networks
listed. -/
theorem Tracked.sync {device : PushDevice} {a : Attempt} (h : Tracked env w)
    (hfiling : Filing w (.reconcile (some device) a)) :
    Tracked env (Effect.after ((sync env device a).run w)) := by
  have hspread := collect_spread a w
  have hcollected := h.spread hspread
  have hsound : Sound env (Effect.after ((collect a).run w)).Listed
      (Effect.after ((collect a).run w)) (Effect.after ((Notifications.sync env device a).run w)) := by
    refine sync_sound (h.sound.mono fun _ => hspread.listed) ?_
    intro t hrun hon husable network _ hactive
    obtain ⟨active, hactives, hmem⟩ := exists_active hactive
    rw [collect_enabled hrun] at hon
    rw [hrun]
    exact collect_listed hactives hon (hfiling device active rfl husable hactives hon) hrun
      network hmem
  generalize Effect.after ((collect a).run w) = u at hsound hcollected
  refine ⟨hsound.settle.mono ?_, hsound.policyError.trans hcollected.policyError⟩
  rintro network ⟨hmem, policy, hfile, hfiled⟩
  exact ⟨hsound.policy ▸ hmem, policy, hsound.file.trans hfile, hfiled⟩

theorem Push.new_eq {policy : Policy} (hcount : policy.networks.length ≤ 8)
    (hnames : ∀ name ∈ policy.networks, name.utf8ByteSize ≤ 128) :
    Push.new (.ok (some policy)) = ⟨policy, false, 0⟩ := by
  refine if_neg ?_
  rintro (hmany | hlong)
  · exact absurd hcount (Nat.not_le.mpr hmany)
  · obtain ⟨name, hname, hlength⟩ := List.any_eq_true.mp hlong
    exact absurd (hnames name hname) (Nat.not_le.mpr (of_decide_eq_true hlength))

theorem Tracked.restart (h : Tracked env w) {readable : Bool}
    (hfiling : Filing w (.restart readable)) :
    Tracked env (w.step env (.restart readable)) := by
  obtain ⟨rfl, hpolicy⟩ := hfiling
  have hlisted : ∀ network, w.Listed network →
      ({ w with push := Push.new (.ok w.file) } : World).Listed network := by
    rintro network ⟨-, policy, hfile, hmem⟩
    refine ⟨?_, policy, hfile, hmem⟩
    obtain ⟨hcount, hnames⟩ := hpolicy policy hfile
    simp only [hfile, Push.new_eq hcount hnames]
    exact hmem
  have herror : (Push.new (.ok w.file)).policyError = false := by
    cases hfile : w.file with
    | none => rfl
    | some policy =>
        obtain ⟨hcount, hnames⟩ := hpolicy policy hfile
        rw [Push.new_eq hcount hnames]
  exact ⟨(h.sound.restart _).mono hlisted, herror⟩

theorem reachable_tracked (h : ((runs env).restrict Filing).Reachable w) : Tracked env w := by
  refine Machine.Reachable.invariant (I := Tracked env) ?_ ?_ h
  · rintro _ rfl
    exact ⟨sound_fresh _, rfl⟩
  · rintro w step _ - hw ⟨hfiling, rfl⟩
    cases step with
    | configure c => exact hw.spread (configure_spread c w)
    | restart readable => exact hw.restart hfiling
    | reconcile device a =>
        unfold World.step reconcile
        dsimp only
        rw [hw.policyError]
        cases device with
        | none => exact hw
        | some device => exact hw.sync hfiling

/-- In every run each revision sent for a slot was saved before and is above those sent before it,
and a slot for which a registration was sent and no revocation confirmed since says so. If the
policy file is kept as `Filing` says, such a registration is pursued. -/
theorem registrations_are_pursued (env : Env) :
    (∀ w, (runs env).Reachable w → Numbering.Fresh (numbers env w.log) ∧
      ∀ slot, Live env slot w.log → ∃ value, w.vault slot = some value ∧ value.SaysSo) ∧
    ∀ w, ((runs env).restrict Filing).Reachable w → ∀ network r,
      .sent network (.registration r) ∈ w.log → Live env (env.slot network) w.log →
        Pursued env w network := by
  constructor
  · intro w hw
    exact ⟨(reachable_sound hw).fresh, (reachable_sound hw).live⟩
  · intro w hw network r hmem hlive
    have htracked := reachable_tracked hw
    have hlisted := htracked.sound.known network r hmem
    obtain ⟨value, hvault, htells⟩ := htracked.sound.live _ hlive
    refine ⟨hlisted, htracked.policyError, ?_⟩
    intro hoff device a found t hactive hrun
    exact visitNetworks_tries hoff hlisted.1 hactive hvault htells hrun

namespace Sample

def sha256 (bytes : List UInt8) : Bytes 32 :=
  ⟨(bytes ++ List.replicate 32 0).take 32, by simp⟩

def gateway : Url where
  origin := "https://push.gchat.boo"
  scheme := "https"
  host := some "push.gchat.boo"
  username := ""
  password := none
  query := none
  fragment := none
  path := "/"

def library : Env where
  instanceId := "0"
  sha256 := sha256
  parseUrl text := if text = "https://push.gchat.boo" then some gateway else none
  join url path := some { url with path := "/" ++ path }

def device : PushDevice := ⟨true, "granted", "fcm", some "token"⟩

def digits : String := String.ofList (List.replicate 64 'a')

/-- A visit at which everything succeeds. -/
def visit : Visit where
  loaded := .served
  nonce := Bytes.fill 32 0
  first := .stored
  second := .stored
  third := .stored
  bind := .ok ()
  ticket := .ok ⟨"https://push.gchat.boo", "ticket"⟩
  post := .ok ⟨some digits, some digits, some 86400⟩
  clock _ := 1000

def attempt (persist : Saved) : Attempt := ⟨.ok ["primary"], persist, fun _ => visit⟩

def configuration (enabled : Bool) : Configuration :=
  ⟨enabled, .ok ["primary"], .stored, some device, .stored⟩

/-- Notifications are turned on, a network registers, and notifications are turned off. -/
def kept : List Step :=
  [.configure (configuration true), .reconcile (some device) (attempt .stored),
    .configure (configuration false)]

/-- The policy cannot be saved when the network joins it, and the application starts again after
the network registered. -/
def forgotten : List Step :=
  [.configure (configuration true), .reconcile (some device) (attempt (.failed false)),
    .reconcile (some device) (attempt .stored), .restart true, .configure (configuration false)]

def registration : PushRegistrationRequest where
  appId := "boo.gchat.app"
  installationNonce := Bytes.fill 32 0
  platform := .fcm
  token := "token"
  revision := 1
  visible := true

end Sample

theorem sample_pursued :
    Pursued Sample.library (Sample.kept.foldl (World.step Sample.library) .fresh) "primary" := by
  have hfiling : Machine.Meets Filing (World.step Sample.library) .fresh Sample.kept := by
    refine ⟨trivial, ?_, trivial, trivial⟩
    rintro _ active ⟨⟩ - ⟨⟩ -
    exact .inl ⟨"primary", by decide, by decide +kernel⟩
  exact (registrations_are_pursued Sample.library).2 _
    (Machine.Reachable.restrict_foldl (.start rfl) hfiling) "primary" Sample.registration
      (by decide +kernel) (by decide +kernel)

/-- A network that is registered after its policy could not be saved is forgotten when the
application starts again: turning notifications off does not revoke it. -/
theorem unsaved_policy_forgets :
    ¬ ∀ w, (runs Sample.library).Reachable w → ∀ network r,
      .sent network (.registration r) ∈ w.log → Live Sample.library (Sample.library.slot network) w.log →
        Pursued Sample.library w network := by
  intro h
  have hpursued := h _ (Machine.Reachable.foldl (.start rfl) Sample.forgotten) "primary"
    Sample.registration (by decide +kernel) (by decide +kernel)
  exact absurd hpursued.listed.1 (by decide +kernel)

end Notifications

end GChat
