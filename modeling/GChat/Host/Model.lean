import GChat.Foundation.Machine
import GChat.Foundation.StringMap
import GChat.Foundation.Text
import GChat.Host.Gate

/-!
# The host of an instance and its updates

A host opens and stops one service, which opens child services for further networks
in the background. A view prepares an update: the host then pauses the service, is
disconnected and exits. The calls are cut where they wait: `lifecycle` and `task` say
who holds the lock of the running service and the lock of the maintenance state.
-/

namespace GChat

namespace Host

open Foundation

/-! ### Services -/

/-- A child service that is opened but not yet among the networks: for a request of the
service, or by the background restore of the retained networks. -/
structure Opening where
  name : String
  gate : Gate
  joining : Bool
deriving DecidableEq

structure Service where
  gate : Gate
  networks : StringMap Gate
  opening : Option Opening

namespace Service

def new : Service := ⟨Gate.default, ∅, none⟩

/-- The guard of the request that opens a child. -/
def held (svc : Service) : ℕ := if svc.opening.any (·.joining) then 1 else 0

def childResumed (svc : Service) (name : String) : Service :=
  match svc.networks[name]? with
  | some g => { svc with networks := svc.networks.insert name g.resume }
  | none => svc

def childPaused (svc : Service) (name : String) : Except String Service :=
  match svc.networks[name]? with
  | some g => g.pause.map fun g => { svc with networks := svc.networks.insert name g }
  | none => .ok svc

end Service

/-- A step of the requests and workers of a service. -/
inductive Work where
  | own (w : GateWork)
  | child (name : String) (w : GateWork)
  | opened (w : GateWork)
  | restore (name : String)
  | join (name : String)
  | publish
  | abandon
deriving DecidableEq

/-- One child is opened at a time, a request does so under its guard, and the child is
published among the networks when it is unlocked. -/
def Service.work (svc : Service) : Work → Option Service
  | .own w => (svc.gate.work svc.held w).map fun g => { svc with gate := g }
  | .child name w =>
      match svc.networks[name]? with
      | some g => (g.work 0 w).map fun g => { svc with networks := svc.networks.insert name g }
      | none => none
  | .opened w =>
      match svc.opening with
      | some o => (o.gate.work 0 w).map fun g => { svc with opening := some { o with gate := g } }
      | none => none
  | .restore name =>
      if svc.opening.isNone && !svc.networks.contains name then
        some { svc with opening := some ⟨name, Gate.default, false⟩ }
      else none
  | .join name =>
      if svc.opening.isNone && !svc.networks.contains name && 0 < svc.gate.requests then
        some { svc with opening := some ⟨name, Gate.default, true⟩ }
      else none
  | .publish =>
      svc.opening.map fun o =>
        { svc with networks := svc.networks.insert o.name o.gate, opening := none }
  | .abandon => svc.opening.map fun _ => { svc with opening := none }

/-! ### Requests about updates -/

inductive UpdateRequest where
  | heartbeat (view : String)
  | detach (view : String)
  | prepare (view release : String)
  | exit (view release : String)
  | abort (view release : String)
deriving DecidableEq

def UpdateRequest.view : UpdateRequest → String
  | .heartbeat view => view
  | .detach view => view
  | .prepare view _ => view
  | .exit view _ => view
  | .abort view _ => view

def UpdateRequest.release : UpdateRequest → Option String
  | .heartbeat _ => none
  | .detach _ => none
  | .prepare _ release => some release
  | .exit _ release => some release
  | .abort _ release => some release

inductive ResultState where
  | attached
  | busy (reason : String)
  | ready (processId : ℕ) (bootId : String)
deriving DecidableEq

structure Config where
  usesProtocolIpc : Bool
  fleetConfig : Bool
  processId : ℕ
  boot : String

def validHex (value : String) (length : ℕ) : Bool :=
  value.utf8ByteSize == length &&
    value.toList.all fun c => c.isDigit || (97 ≤ c.toNat && c.toNat ≤ 102)

/-- The checks before the lock of the maintenance state. -/
def UpdateRequest.check (config : Config) (request : UpdateRequest) : Except String Unit := do
  refuse (!config.usesProtocolIpc) "Mobile application updates are managed by the app store"
  refuse (!validHex request.view 32) "Invalid update view identifier"
  refuse (request.release.any fun release => !validHex release 64) "Invalid release identifier"

/-! ### The state of a host -/

/-- Who holds the lock of the running service. -/
inductive Lifecycle where
  | free
  | opening (svc : Service)
  | stopping
  | dispatching
  | updating

/-- What an update call does once a preparation has ended. -/
inductive After where
  | handle (request : UpdateRequest)
  | detach (view : String)
  | done
deriving DecidableEq

/-- Where the update call stands that holds the lock of the maintenance state. -/
inductive Task where
  | handling (request : UpdateRequest)
  | ending (after : After)
  | resuming (after : After) (names : List String)
  | collecting (view release : String)
  | pausing (view release : String) (names : List String)
  | undoing (names : List String) (reason : String)
  | exiting (view release : String)
deriving DecidableEq

structure InstanceHost where
  views : StringMap ℕ
  prepared : Option (String × String)
  running : Option Service
  lifecycle : Lifecycle
  task : Option Task
  /-- Unlock requests that passed the check for a preparation. -/
  checked : ℕ
  /-- Exits that were granted and are signalled after a delay. -/
  exits : List (String × String)
  updateExit : Bool

def InstanceHost.new : InstanceHost := ⟨∅, none, none, .free, none, 0, [], false⟩

/-- What an update call finds outside the host: the error of a save, whether the process
runs as a managed service, and the time. -/
structure Outside where
  failure : Option String
  managed : Bool
  now : ℕ
deriving DecidableEq

abbrev Reply := Except String ResultState

namespace InstanceHost

variable (config : Config)

/-- The call ends and releases the lock of the maintenance state. -/
def reply (s : InstanceHost) (r : Reply) : InstanceHost × Option Reply :=
  ({ s with task := none }, some r)

/-- The call waits, or goes on later. -/
def wait (s : InstanceHost) (t : Task) : InstanceHost × Option Reply :=
  ({ s with task := some t }, none)

def ready : Reply := .ok (.ready config.processId config.boot)

/-- The views that were seen in the last 45 seconds. -/
def attached (s : InstanceHost) (now : ℕ) : StringMap ℕ :=
  s.views.filter fun _ seen => now - seen < 45

/-- The owner of the preparation is no longer attached. -/
def ownerGone (s : InstanceHost) (now : ℕ) : Bool :=
  s.prepared.any fun owner => !(s.attached now).contains owner.1

/-- A call has the lock: it forgets old views, and ends a preparation without an owner. -/
def update (s : InstanceHost) (request : UpdateRequest) (now : ℕ) :
    InstanceHost × Option Reply :=
  match request.check config with
  | .error message => (s, some (.error message))
  | .ok () =>
      { s with views := s.attached now }.wait
        (if s.ownerGone now then .ending (.handle request) else .handling request)

def prepare (s : InstanceHost) (view release : String) (managed : Bool) :
    InstanceHost × Option Reply :=
  if config.fleetConfig && !managed then
    s.reply (.ok (.busy "This fleet-managed instance must be upgraded through its controller."))
  else if !s.views.contains view then
    s.reply (.error "Attach this view before preparing an update")
  else if s.views.toList.any (·.1 != view) then
    s.reply (.ok (.busy "Another GChat window is attached. Close it before restarting."))
  else
    match s.prepared with
    | some owner =>
        if owner != (view, release) then
          s.reply (.ok (.busy "Another update is being prepared."))
        else s.reply (ready config)
    | none =>
        match s.lifecycle with
        | .free =>
            match s.running with
            | none => { s with prepared := some (view, release) }.reply (ready config)
            | some svc =>
                match svc.gate.pause with
                | .error reason => s.reply (.ok (.busy reason))
                | .ok g =>
                    { s with running := some { svc with gate := g }, lifecycle := .updating }.wait
                      (.collecting view release)
        | _ => s.reply (.ok (.busy "The instance is changing state. Retry shortly."))

def handle (s : InstanceHost) (outside : Outside) : UpdateRequest → InstanceHost × Option Reply
  | .heartbeat view =>
      if s.prepared.any (·.1 != view) then
        s.reply (.ok (.busy
          "This instance is preparing an update. Open the new window after it restarts."))
      else if 32 ≤ s.views.size && !s.views.contains view then
        s.reply (.error "Too many attached update views")
      else { s with views := s.views.insert view outside.now }.reply (.ok .attached)
  | .detach view =>
      if s.prepared.any (·.1 == view) then s.wait (.ending (.detach view))
      else { s with views := s.views.erase view }.reply (.ok .attached)
  | .prepare view release => s.prepare config view release outside.managed
  | .exit view release =>
      if s.prepared != some (view, release) then
        s.reply (.error "Update must be prepared and the instance checkpointed before exit")
      else s.wait (.exiting view release)
  | .abort view release =>
      if s.prepared == some (view, release) then s.wait (.ending .done)
      else s.reply (.ok .attached)

/-- The preparation is over. -/
def ended (s : InstanceHost) : After → InstanceHost × Option Reply
  | .handle request => { s with prepared := none }.wait (.handling request)
  | .detach view =>
      { s with prepared := none, views := s.views.erase view }.reply (.ok .attached)
  | .done => { s with prepared := none }.reply (.ok .attached)

/-- The next step of the call that holds the lock of the maintenance state; `none` where
it waits for the lock of the running service. -/
def advance (s : InstanceHost) (outside : Outside) : Option (InstanceHost × Option Reply) :=
  match s.task, s.running with
  | none, _ => none
  | some (.handling request), _ => some (s.handle config outside request)
  | some (.ending after), running =>
      match s.lifecycle, running with
      | .free, none => some (s.ended after)
      | .free, some svc =>
          some ({ s with lifecycle := .updating }.wait (.resuming after svc.networks.keys))
      | _, _ => none
  | some (.resuming after (name :: names)), some svc =>
      some ({ s with running := some (svc.childResumed name) }.wait (.resuming after names))
  | some (.resuming after []), some svc =>
      some ({ s with
        running := some { svc with gate := svc.gate.resume }, lifecycle := .free }.ended after)
  | some (.collecting view release), some svc =>
      some (s.wait (.pausing view release svc.networks.keys))
  | some (.pausing view release (name :: names)), some svc =>
      match svc.childPaused name, outside.failure with
      | .error reason, _ => some (s.wait (.undoing svc.networks.keys reason))
      | .ok _, some reason => some (s.wait (.undoing svc.networks.keys reason))
      | .ok svc, none => some ({ s with running := some svc }.wait (.pausing view release names))
  | some (.pausing view release []), some svc =>
      match outside.failure with
      | some reason => some (s.wait (.undoing svc.networks.keys reason))
      | none =>
          some ({ s with prepared := some (view, release), lifecycle := .free }.reply
            (ready config))
  | some (.undoing (name :: names) reason), some svc =>
      some ({ s with running := some (svc.childResumed name) }.wait (.undoing names reason))
  | some (.undoing [] reason), some svc =>
      some ({ s with
        running := some { svc with gate := svc.gate.resume }, lifecycle := .free }.reply
          (.ok (.busy reason)))
  | some (.exiting view release), running =>
      match s.lifecycle, running with
      | .free, none => some ({ s with exits := (view, release) :: s.exits }.reply (ready config))
      | .free, some _ =>
          some (s.reply
            (.error "Update must be prepared and the instance checkpointed before exit"))
      | _, _ => none
  | some _, none => none

end InstanceHost

/-! ### Steps -/

/-- A step of some call, from one point where it waits to the next. -/
inductive Event where
  | unlock
  | unlockLocked
  | unlocked (success : Bool)
  | disconnect
  | disconnected
  | dispatch
  | dispatched
  | work (w : Work)
  | openingWork (w : Work)
  | update (request : UpdateRequest) (now : ℕ)
  | advance (outside : Outside)
  | signal (owner : String × String)
deriving DecidableEq

namespace InstanceHost

variable (config : Config)

def step (s : InstanceHost) : Event → Option InstanceHost
  -- the check needs the lock of the maintenance state
  | .unlock =>
      if s.task.isNone then
        some (if s.prepared.isSome then s else { s with checked := s.checked + 1 })
      else none
  -- an Unlock that passed the check gets the lock of the running service
  | .unlockLocked =>
      match s.lifecycle, s.checked with
      | .free, n + 1 =>
          some { s with
            checked := n
            lifecycle := if s.running.isSome then .dispatching else .opening Service.new }
      | _, _ => none
  | .unlocked success =>
      match s.lifecycle with
      | .opening svc =>
          some { s with running := if success then some svc else s.running, lifecycle := .free }
      | _ => none
  | .disconnect =>
      match s.lifecycle with
      | .free => some { s with running := none, lifecycle := .stopping }
      | _ => none
  | .disconnected =>
      match s.lifecycle with
      | .stopping => some { s with lifecycle := .free }
      | _ => none
  | .dispatch =>
      match s.lifecycle with
      | .free => some { s with lifecycle := .dispatching }
      | _ => none
  | .dispatched =>
      match s.lifecycle with
      | .dispatching => some { s with lifecycle := .free }
      | _ => none
  | .work w =>
      match s.running with
      | some svc => (svc.work w).map fun svc => { s with running := some svc }
      | none => none
  | .openingWork w =>
      match s.lifecycle with
      | .opening svc => (svc.work w).map fun svc => { s with lifecycle := .opening svc }
      | _ => none
  | .update request now =>
      if s.task.isNone then some (s.update config request now).1 else none
  | .advance outside => (s.advance config outside).map (·.1)
  | .signal owner =>
      if s.exits.contains owner then
        some { s with exits := s.exits.erase owner, updateExit := true }
      else none

def machine : Machine InstanceHost Event := Machine.ofPartial InstanceHost.new (step config)

end InstanceHost

end Host

end GChat
