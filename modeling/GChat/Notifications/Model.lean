import GChat.Foundation.Bytes
import GChat.Foundation.Effect
import Mathlib.Data.List.Basic

/-!
# Notifications of the mobile application

Each network has a slot in the vault of the operating system, with what is registered for it. A
reconciliation goes through the networks of the policy: with notifications on it registers and
binds each, with notifications off it revokes what may be registered. A request carries a revision
of its slot, which is saved before the request is sent.
-/

namespace GChat

namespace Notifications

open Foundation

/-! ### What is kept -/

structure Policy where
  enabled : Bool
  networks : List String
deriving DecidableEq

def Policy.default : Policy := ⟨false, []⟩

/-- What the slot of a network holds. -/
structure Registration where
  nonce : Bytes 32
  revision : ℕ
  tokenHash : String
  origin : String
  reference : String
  managementToken : String
  expires : ℕ
  registrationPending : Bool
deriving DecidableEq

namespace Registration

def default (nonce : Bytes 32) : Registration where
  nonce := nonce
  revision := 0
  tokenHash := ""
  origin := ""
  reference := ""
  managementToken := ""
  expires := 0
  registrationPending := false

/-- The record with its next revision, which stays within a signed 64-bit number. -/
def nextRevision (state : Registration) : Except String Registration :=
  if state.revision + 1 < 2 ^ 63 then .ok { state with revision := state.revision + 1 }
  else .error "Notification revision exhausted"

/-- The record of a slot with nothing registered. -/
def cleared (state : Registration) : Registration :=
  { state with
    reference := ""
    managementToken := ""
    tokenHash := ""
    expires := 0
    registrationPending := false }

/-- The slot tells of a registration: one is pending, or there is a reference. -/
def SaysSo (state : Registration) : Prop :=
  state.registrationPending = true ∨ state.reference ≠ ""

instance : DecidablePred SaysSo := fun _ => inferInstanceAs (Decidable (_ ∨ _))

end Registration

/-! ### Requests -/

inductive PushPlatform where
  | apns
  | fcm
deriving DecidableEq

structure PushRegistrationRequest where
  appId : String
  installationNonce : Bytes 32
  platform : PushPlatform
  token : String
  revision : ℕ
  visible : Bool
deriving DecidableEq

/-- A request with a revision, as it is sent for a network. -/
inductive Request where
  | bind (reference : List UInt8) (revision expires : ℕ)
  | revocation (request : PushRegistrationRequest)
  | registration (request : PushRegistrationRequest)
deriving DecidableEq

def Request.revision : Request → ℕ
  | .bind _ revision _ => revision
  | .revocation request => request.revision
  | .registration request => request.revision

structure Ticket where
  gatewayOrigin : String
  ticket : String
deriving DecidableEq

/-- The members read from the answer of the gateway. -/
structure Answer where
  reference : Option String
  managementToken : Option String
  expires : Option ℕ
deriving DecidableEq

/-- What the check of a gateway reads of a URL. -/
structure Url where
  origin : String
  scheme : String
  host : Option String
  username : String
  password : Option String
  query : Option String
  fragment : Option String
  path : String
deriving DecidableEq

/-- The library functions and the installation. -/
structure Env where
  instanceId : String
  sha256 : List UInt8 → Bytes 32
  parseUrl : String → Option Url
  join : Url → String → Option Url

variable (env : Env)

def Env.digest (bytes : List UInt8) : String := hex (env.sha256 bytes).toList

def Env.slot (network : String) : String :=
  "push_" ++ env.digest (env.instanceId ++ ":" ++ network).toByteArray.data.toList

def Env.endpoint (origin path : String) : Except String Url :=
  match env.parseUrl origin with
  | none => .error "Invalid notification gateway"
  | some url =>
      if url.origin ≠ "https://push.gchat.boo" ∨ url.scheme ≠ "https" ∨ url.host = none ∨
          url.username ≠ "" ∨ url.password ≠ none ∨ url.query ≠ none ∨ url.fragment ≠ none ∨
          (url.path ≠ "" ∧ url.path ≠ "/") then
        .error "Invalid notification gateway"
      else
        match env.join url path with
        | some url => .ok url
        | none => .error "Invalid notification gateway"

def needsRegistration (state : Registration) (token : String) (now : ℕ) : Bool :=
  state.tokenHash != env.digest token.toByteArray.data.toList ||
    state.expires ≤ min (now + 3600) (2 ^ 64 - 1) || state.reference == ""

def hexValue (c : Char) : Option ℕ :=
  if '0' ≤ c ∧ c ≤ '9' then some (c.toNat - 48)
  else if 'a' ≤ c ∧ c ≤ 'f' then some (c.toNat - 87)
  else if 'A' ≤ c ∧ c ≤ 'F' then some (c.toNat - 55)
  else none

def hexPairs : List Char → Option (List UInt8)
  | [] => some []
  | [_] => none
  | high :: low :: chars => do
      let h ← hexValue high
      let l ← hexValue low
      let bytes ← hexPairs chars
      pure (UInt8.ofNat (16 * h + l) :: bytes)

def hex32 (text : String) : Except String (List UInt8) :=
  match hexPairs text.toList with
  | some bytes =>
      if bytes.length = 32 then .ok bytes else .error "Invalid notification reference"
  | none => .error "Invalid notification reference"

/-! ### The device -/

structure PushDevice where
  enabled : Bool
  permission : String
  platform : String
  token : Option String
deriving DecidableEq

def PushDevice.validToken (device : PushDevice) (token : String) : Bool :=
  if device.platform = "apns" then
    32 ≤ token.utf8ByteSize && token.utf8ByteSize ≤ 512 && token.utf8ByteSize % 2 == 0 &&
      token.toList.all fun c => (hexValue c).isSome
  else if device.platform = "fcm" then
    1 ≤ token.utf8ByteSize && token.utf8ByteSize ≤ 4096 &&
      token.toList.all fun c => 33 ≤ c.toNat && c.toNat ≤ 126
  else false

def PushDevice.usableToken (device : PushDevice) : Option String :=
  if !device.enabled || device.permission ≠ "granted" then none
  else device.token.filter device.validToken

def PushDevice.pushPlatform (device : PushDevice) : PushPlatform :=
  if device.platform = "apns" then .apns else .fcm

/-! ### The state -/

structure Push where
  policy : Policy
  policyError : Bool
  cursor : ℕ
deriving DecidableEq

/-- What has happened: a record was saved, a request was sent, a revocation was confirmed. -/
inductive Event where
  | stored (slot : String) (value : Registration)
  | sent (network : String) (request : Request)
  | revoked (network : String)
deriving DecidableEq

/-- The vault, the policy file and the running application, with what has happened so far, newest
first. -/
structure World where
  vault : String → Option Registration
  file : Option Policy
  push : Push
  log : List Event

/-- A save succeeds, or fails or is cut short, with the value kept or not. -/
inductive Saved where
  | stored
  | failed (kept : Bool)
deriving DecidableEq

/-- An answer, a refusal, or none because the reconciliation is cut short. -/
inductive Reply (α : Type) where
  | ok (value : α)
  | refused (message : String)
  | cut

inductive Loaded where
  | served
  | locked
  | damaged
deriving DecidableEq

/-- What a reconciliation meets at one network. -/
structure Visit where
  loaded : Loaded
  nonce : Bytes 32
  first : Saved
  second : Saved
  third : Saved
  bind : Reply Unit
  ticket : Reply Ticket
  post : Reply Answer
  clock : ℕ → ℕ

/-- What a reconciliation meets. -/
structure Attempt where
  active : Except String (List String)
  persist : Saved
  visits : ℕ → Visit

/-! ### Steps of a reconciliation -/

def record (event : Event) : Effect World Unit :=
  modify fun w => { w with log := event :: w.log }

def load (slot : String) (visit : Visit) : Effect World Registration := do
  Effect.lift (match visit.loaded with
    | .served => .ok ()
    | .locked => .error "Notification storage is locked"
    | .damaged => .error "Notification storage is damaged")
  pure (((← get).vault slot).getD (.default visit.nonce))

def World.keep (w : World) (slot : String) (value : Registration) : World :=
  { w with vault := fun s => if s = slot then some value else w.vault s }

def save (slot : String) (value : Registration) (outcome : Saved) : Effect World Unit :=
  Effect.step fun w =>
    match outcome with
    | .stored => ({ w.keep slot value with log := .stored slot value :: w.log }, .ok ())
    | .failed kept =>
        (if kept then w.keep slot value else w, .error "Cannot save notification state")

def persistPolicy (outcome : Saved) : Effect World Unit :=
  Effect.step fun w =>
    match outcome with
    | .stored => ({ w with file := some w.push.policy }, .ok ())
    | .failed kept =>
        (if kept then { w with file := some w.push.policy } else w,
          .error "Cannot save notification policy")

def answer {α : Type} : Reply α → Effect World (Except String α)
  | .ok value => pure (.ok value)
  | .refused message => pure (.error message)
  | .cut => throw "Cut short"

def send {α : Type} (network : String) (request : Request) (reply : Reply α) :
    Effect World (Except String α) := do
  record (.sent network request)
  answer reply

def post (origin path : String) (reply : Reply Answer) : Effect World (Except String Answer) :=
  match env.endpoint origin path with
  | .ok _ => answer reply
  | .error message => pure (.error message)

end Notifications

end GChat
