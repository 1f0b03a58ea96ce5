import GChat.Foundation.Machine
import GChat.Notifications.Model

/-!
# Reconciling notifications

A reconciliation adds the networks at hand to the policy, and then visits the networks of the
policy in turn, each attempt from where the last one stopped. It may end at any request or save.
What a later one knows is what the vault and the policy file hold.
-/

namespace GChat

namespace Notifications

open Foundation

variable (env : Env)

/-! ### Notifications off -/

/-- Unbinds and revokes what may be registered. The result is the record, and whether something
is left. -/
def revoke (device : PushDevice) (network : String) (state : Registration) (visit : Visit) :
    Effect World (Registration × Bool) := do
  let state ← Effect.lift state.nextRevision
  save (env.slot network) state visit.first
  let bound ← send network
    (.bind (List.replicate 32 0) state.revision (visit.clock 0 + 3600)) visit.bind
  let next ← Effect.lift state.nextRevision
  let state := { next with registrationPending := true }
  save (env.slot network) state visit.second
  let ticket ← send network (.revocation {
    appId := "boo.gchat.app"
    installationNonce := state.nonce
    platform := device.pushPlatform
    token := String.ofList (List.replicate 64 '0')
    revision := state.revision
    visible := false }) visit.ticket
  match ticket with
  | .error _ => pure (state, true)
  | .ok ticket =>
      let result ← post env ticket.gatewayOrigin "v1/unregister" visit.post
      match result with
      | .error _ => pure (state, true)
      | .ok _ =>
          record (.revoked network)
          pure (state, !bound.isOk)

structure Tally where
  failure : Option String
  bound : ℕ
deriving DecidableEq

/-- The retry that the end of a reconciliation reports. -/
def cleanupRetries : String :=
  "Notifications off; relay cleanup will retry when GChat reconnects"

def isActive (active : Except String (List String)) (network : String) : Bool :=
  match active with
  | .ok networks => networks.contains network
  | .error _ => false

/-- A network with notifications off. -/
def cleanUp (device : PushDevice) (active : Except String (List String)) (network : String)
    (visit : Visit) (tally : Tally) : Effect World Tally := do
  let state ← load (env.slot network) visit
  if state.reference = "" ∧ state.registrationPending = false then
    pure tally
  else do
    let left ← (if isActive active network then revoke env device network state visit
      else pure (state, true))
    if left.2 then
      pure { tally with failure := some cleanupRetries }
    else do
      save (env.slot network) left.1.cleared visit.third
      pure tally

/-! ### Notifications on -/

def required {α : Type} (message : String) : Option α → Except String α
  | some value => .ok value
  | none => .error message

/-- Registers the token of the device with the gateway. -/
def register (device : PushDevice) (token network : String) (state : Registration)
    (visit : Visit) : Effect World Registration := do
  let next ← Effect.lift state.nextRevision
  let state := { next with registrationPending := true }
  save (env.slot network) state visit.first
  let ticket ← send network (.registration {
    appId := "boo.gchat.app"
    installationNonce := state.nonce
    platform := device.pushPlatform
    token := token
    revision := state.revision
    visible := true }) visit.ticket
  let ticket ← Effect.lift ticket
  let _ ← Effect.lift (env.endpoint ticket.gatewayOrigin "v1/register")
  let response ← post env ticket.gatewayOrigin "v1/register" visit.post
  let response ← Effect.lift response
  let reference ← Effect.lift (required "Missing notification reference" response.reference)
  let management ← Effect.lift
    (required "Missing notification receipt" response.managementToken)
  let _ ← Effect.lift (hex32 reference)
  let _ ← Effect.lift (hex32 management)
  let expires ← Effect.lift (required "Invalid notification expiry"
    (response.expires.filter fun value =>
      visit.clock 1 < value && value ≤ visit.clock 2 + 7 * 86400))
  let state := { state with
    reference := reference
    managementToken := management
    expires := expires
    origin := ticket.gatewayOrigin
    tokenHash := env.digest token.toByteArray.data.toList
    registrationPending := false }
  save (env.slot network) state visit.second
  pure state

/-- A network with notifications on. -/
def bindNetwork (device : PushDevice) (active : Except String (List String)) (network : String)
    (visit : Visit) (tally : Tally) : Effect World Tally := do
  let state ← load (env.slot network) visit
  if isActive active network then do
    let token ← Effect.lift (required "Notification token is pending" device.usableToken)
    let state ← (if needsRegistration env state token (visit.clock 0) ||
        state.registrationPending then register env device token network state visit
      else pure state)
    let state ← Effect.lift state.nextRevision
    save (env.slot network) state visit.third
    let reference ← Effect.lift (hex32 state.reference)
    let bound ← send network
      (.bind reference state.revision (min (visit.clock 3 + 23 * 3600) state.expires)) visit.bind
    Effect.lift bound
    pure { tally with bound := tally.bound + 1 }
  else
    pure tally

/-! ### Reconciling -/

def World.advance (w : World) : World :=
  { w with push := { w.push with cursor := (w.push.cursor + 1) % 2 ^ 64 } }

def rounds (device : PushDevice) (enabled : Bool) (active : Except String (List String)) :
    List String → (ℕ → Visit) → Tally → Effect World Tally
  | [], _, tally => pure tally
  | network :: networks, visits, tally => do
      -- The cursor moves first, so that the next attempt starts behind a network that stalls.
      modify World.advance
      let tally ← (if enabled then bindNetwork env device active network (visits 0) tally
        else cleanUp env device active network (visits 0) tally)
      rounds device enabled active networks (fun n => visits (n + 1)) tally

def World.collect (w : World) (networks : List String) : World :=
  { w with push := { w.push with policy := { w.push.policy with
      networks := networks.foldl
        (fun known network => if known.contains network then known else known ++ [network])
        w.push.policy.networks } } }

/-- With notifications on, the networks at hand join the policy. -/
def collect (a : Attempt) : Effect World Unit := do
  let policy := (← get).push.policy
  match policy.enabled, a.active with
  | true, .ok networks =>
      modify fun w => w.collect networks
      if networks.any fun network => !policy.networks.contains network then
        persistPolicy a.persist
      else pure ()
  | _, _ => pure ()

/-- What notifications wait for on a device without a usable token. -/
def PushDevice.waiting (device : PushDevice) : String :=
  if device.enabled && device.permission = "granted" then
    "Waiting for the notification service; normal chat is available"
  else "Allow notifications in system settings, then reopen GChat"

/-- The visits of a reconciliation: whether notifications are on, and what the visits found. -/
def visitNetworks (device : PushDevice) (a : Attempt) : Effect World (Bool × Tally) := do
  collect a
  let push := (← get).push
  let enabled := push.policy.enabled && device.usableToken.isSome
  if push.policy.enabled && !enabled then
    throw device.waiting
  else do
    let _ ← (if enabled then Effect.lift a.active else pure [])
    let networks := push.policy.networks.rotate (push.cursor % push.policy.networks.length)
    let tally ← rounds env device enabled a.active networks a.visits ⟨none, 0⟩
    pure (enabled, tally)

def conclude (enabled : Bool) (tally : Tally) : Except String Unit :=
  if enabled && tally.bound = 0 then
    .error "Waiting for a connected network before registering notifications"
  else
    match tally.failure with
    | some failure => .error failure
    | none => .ok ()

def sync (device : PushDevice) (a : Attempt) : Effect World Unit := do
  let found ← visitNetworks env device a
  Effect.lift (conclude found.1 found.2)

/-- What turning notifications on or off meets. -/
structure Configuration where
  enabled : Bool
  networks : Except String (List String)
  persist : Saved
  device : Option PushDevice
  persistOff : Saved

def World.enable (w : World) (enabled : Bool) : World :=
  { w with push := { w.push with policy := { w.push.policy with enabled := enabled } } }

def configure (c : Configuration) : Effect World Unit := do
  let _ ← (if c.enabled then Effect.lift c.networks else pure [])
  modify fun w => w.enable c.enabled
  persistPolicy c.persist
  modify fun w => { w with push := { w.push with policyError := false } }
  match c.device with
  | none =>
      modify fun w => w.enable false
      persistPolicy c.persistOff
      throw "Notifications are unavailable; ordinary chat still works"
  | some device =>
      if c.enabled && (!device.enabled || device.permission ≠ "granted") then do
        modify fun w => w.enable false
        persistPolicy c.persistOff
      else pure ()

/-- The application as it starts from what the policy file held. -/
def Push.new : Except Unit (Option Policy) → Push
  | .error _ => ⟨.default, true, 0⟩
  | .ok none => ⟨.default, false, 0⟩
  | .ok (some policy) =>
      if 8 < policy.networks.length ∨ policy.networks.any fun name => 128 < name.utf8ByteSize then
        ⟨.default, true, 0⟩
      else ⟨policy, false, 0⟩

def reconcile (device : Option PushDevice) (a : Attempt) (w : World) : World :=
  if w.push.policyError then w
  else
    match device with
    | some device => Effect.after ((sync env device a).run w)
    | none => w

/-! ### Runs -/

inductive Step where
  | configure (c : Configuration)
  | reconcile (device : Option PushDevice) (a : Attempt)
  /-- The application stops or crashes, and starts again. -/
  | restart (readable : Bool)

def World.fresh : World := ⟨fun _ => none, none, ⟨.default, false, 0⟩, []⟩

def World.step (w : World) : Step → World
  | .configure c => Effect.after ((configure c).run w)
  | .reconcile device a => reconcile env device a w
  | .restart readable => { w with push := .new (if readable then .ok w.file else .error ()) }

def runs : Machine World Step := Machine.ofFun .fresh (World.step env)

end Notifications

end GChat
