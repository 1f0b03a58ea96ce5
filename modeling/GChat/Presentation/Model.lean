import GChat.Foundation.Machine
import Mathlib.Algebra.Group.Nat.Defs
import Mathlib.Order.Nat

/-!
# The cached snapshot and its waiters

A snapshot is built under the session lock and cached under the versions that were read before
the build. An invalidation takes the cache and then raises the version, without the session lock;
a change of the client raises the version of the client. A waiter marks the version it has seen,
subscribes to the client of the session, compares the revision, and sleeps.
-/

namespace GChat

namespace Presentation

open Foundation

/-! ### Snapshots -/

/-- The changes completed so far: how often the service was invalidated, and how often its
clients have changed. -/
structure Changes where
  service : ℕ
  client : ℕ
deriving DecidableEq

instance : Preorder Changes where
  le a b := a.service ≤ b.service ∧ a.client ≤ b.client
  le_refl _ := ⟨Nat.le_refl _, Nat.le_refl _⟩
  le_trans _ _ _ hab hbc := ⟨Nat.le_trans hab.1 hbc.1, Nat.le_trans hab.2 hbc.2⟩

/-- Versions are counted modulo this. -/
def versions : ℕ := 2 ^ 64

/-- How long a snapshot may be kept, in nanoseconds. -/
def retention : ℕ := 7 * 24 * 3600 * 1000000000

/-- A snapshot of a session. `begun` are the changes whose versions were read for it, and `epoch`
counts the locks and disconnects before it. -/
structure Snapshot where
  unlocked : Bool
  revision : String
  begun : Changes
  epoch : ℕ
deriving DecidableEq

structure Cached where
  serviceVersion : ℕ
  clientVersion : ℕ
  expires : ℕ
  locked : Bool
  snapshot : Snapshot
deriving DecidableEq

/-! ### Tasks -/

/-- A request for changes. -/
structure Wait where
  after : String
  deadline : ℕ
deriving DecidableEq

/-- The subscriptions of a waiter: the version of the service it has marked, the client of the
session if there was one, and the changes of the clients up to then. -/
structure Watch where
  service : ℕ
  client : Option ℕ
  seen : ℕ
deriving DecidableEq

/-- What a snapshot is for. -/
inductive Caller where
  | request
  | waiter (wait : Wait) (watch : Watch)
deriving DecidableEq

inductive Lifecycle where
  | unlock
  | lock
  | disconnect
deriving DecidableEq

inductive Outcome where
  | failed
  | shown (snapshot : Snapshot)
  | closed (epoch : ℕ)
deriving DecidableEq

/-- What a task does next. A snapshot request starts at `entering` and a waiter at `marking`;
`inside` and `changing` hold the session. After `released` an unlock and a lock wait for the
fleet, and drop their guard, which invalidates. `opener` is that an unlock opened the client. -/
inductive Work where
  | marking (wait : Wait)
  | subscribing (wait : Wait) (service : ℕ)
  | entering (caller : Caller)
  | inside (caller : Caller)
  | finished (caller : Caller) (snapshot : Snapshot) (expires : ℕ)
  | asleep (wait : Wait) (watch : Watch) (snapshot : Snapshot) (expires : ℕ)
  | waiting (kind : Lifecycle)
  | changing (kind : Lifecycle)
  | released (kind : Lifecycle) (opener : Bool) (outcome : Outcome)
  | dropping (opener : Bool) (outcome : Outcome)
  | returning (outcome : Outcome)
  | gone
deriving DecidableEq

/-- `start` are the changes that were complete when the task started. -/
structure Task where
  start : Changes
  work : Work
deriving DecidableEq

/-- An unlock that opened the client and has yet to invalidate. -/
def Task.isOpener (task : Task) : Bool :=
  match task.work with
  | .released _ opener _ => opener
  | .dropping opener _ => opener
  | _ => false

/-- What the task that holds the session is about to do. -/
inductive Held where
  | reading (task : ℕ) (service : ℕ)
  | looking (task : ℕ) (begun : Changes) (clientVersion : ℕ) (locked : Bool)
  | building (task : ℕ) (begun : Changes) (clientVersion : ℕ) (locked : Bool) (now : ℕ)
  | storing (task : ℕ) (cached : Cached)
  | changing (task : ℕ)
  | closing (task : ℕ) (epoch : ℕ)
  | cleared (task : ℕ) (epoch : ℕ)
deriving DecidableEq

/-- Whether the session was locked or closed, and the version is not raised yet. -/
def Held.isClosing : Held → Bool
  | .closing _ _ => true
  | .cleared _ _ => true
  | _ => false

/-! ### The service -/

/-- A session that is open. `base` are the changes of the clients before its own. -/
structure Unlocked where
  uiLocked : Bool
  base : ℕ
deriving DecidableEq

/-- The answer to a request, a waiter or an unlock; `closed` is the last lock or disconnect that
had completed. -/
structure Answer where
  start : Changes
  snapshot : Snapshot
  closed : ℕ
deriving DecidableEq

/-- A service. `clients` counts the clients opened, `invalidating` the workers that have taken the
cache and not raised the version, and `epoch` and `closed` the locks and disconnects that took
effect and the last that completed. -/
structure Service where
  now : ℕ
  stopped : Bool
  session : Option Unlocked
  held : Option Held
  changes : Changes
  clients : ℕ
  cache : Option Cached
  invalidating : ℕ
  tasks : List Task
  epoch : ℕ
  closed : ℕ
  answers : List Answer
deriving DecidableEq

def Service.new : Service where
  now := 0
  stopped := false
  session := none
  held := none
  changes := ⟨0, 0⟩
  clients := 0
  cache := none
  invalidating := 0
  tasks := []
  epoch := 0
  closed := 0
  answers := []

def Service.locked (s : Service) : Bool := s.session.all (·.uiLocked)

def Service.clientVersion (s : Service) : ℕ :=
  match s.session with
  | none => 0
  | some current => (s.changes.client - current.base) % versions

def Service.isClosing (s : Service) : Bool := s.held.any Held.isClosing

/-- An unlock which opened the client is still under way. -/
def Service.opening (s : Service) : Bool := s.tasks.any Task.isOpener

/-- A subscription has a change to report. -/
def Service.woken (s : Service) (watch : Watch) : Bool :=
  s.changes.service != watch.service ||
    (watch.client == some s.clients && s.changes.client != watch.seen)

/-- The client of a subscription is not that of the session any more. -/
def Service.replaced (s : Service) (watch : Watch) : Bool :=
  watch.client.isSome && (s.session.isNone || watch.client != some s.clients)

/-- How a step turns out: whether it succeeds, the revision of what is shown now, and when a
presence or a retained operation expires. -/
structure Turn where
  ok : Bool
  revision : String
  sooner : Option ℕ

section Steps

variable (s : Service) (i : ℕ) (start : Changes)

def Service.put (work : Work) : Service := { s with tasks := s.tasks.set i ⟨start, work⟩ }

def Service.answer (snapshot : Snapshot) : Service :=
  { s.put i start .gone with answers := s.answers ++ [⟨start, snapshot, s.closed⟩] }

/-- Raise the version of the service. No service lives to see the versions come round. -/
def Service.raise : Option Service :=
  if s.changes.service + 1 < versions then
    some { s with changes := { s.changes with service := s.changes.service + 1 } }
  else none

/-- A step of `presentation_snapshot` under the session lock. -/
def Service.present (caller : Caller) (turn : Turn) : Held → Option Service
  | .reading j service =>
      if j = i then
        some { s with
          held := some (.looking i ⟨service, s.changes.client⟩ s.clientVersion s.locked) }
      else none
  | .looking j begun clientVersion locked =>
      if j = i then
        match s.cache with
        | some cached =>
            if cached.serviceVersion = begun.service % versions ∧
                cached.clientVersion = clientVersion ∧ cached.locked = locked ∧
                s.now < cached.expires then
              some ({ s with held := none }.put i start
                (.finished caller cached.snapshot cached.expires))
            else some { s with held := some (.building i begun clientVersion locked s.now) }
        | none => some { s with held := some (.building i begun clientVersion locked s.now) }
      else none
  | .building j begun clientVersion locked now =>
      if j = i then
        if turn.ok then
          some { s with
            held := some (.storing i {
              serviceVersion := begun.service % versions
              clientVersion := clientVersion
              expires := turn.sooner.elim (now + retention) (min (now + retention))
              locked := locked
              snapshot := ⟨!locked, turn.revision, begun, s.epoch⟩ }) }
        else some ({ s with held := none }.put i start .gone)
      else none
  | .storing j cached =>
      if j = i then
        some ({ s with held := none, cache := some cached }.put i start
          (.finished caller cached.snapshot cached.expires))
      else none
  | _ => none

/-- A step of an unlock, a lock or a disconnect under the session lock. -/
def Service.change (kind : Lifecycle) (turn : Turn) : Held → Option Service
  | .changing j =>
      if j = i then
        match kind, turn.ok, s.session with
        | .unlock, true, none =>
            some ({ s with
              held := none
              session := some ⟨false, s.changes.client⟩
              clients := s.clients + 1 }.put i start
                (.released kind true (.shown ⟨true, turn.revision, s.changes, s.epoch⟩)))
        | .unlock, true, some current =>
            some ({ s with held := none, session := some { current with uiLocked := false } }.put
              i start (.released kind false (.shown ⟨true, turn.revision, s.changes, s.epoch⟩)))
        | .lock, _, none =>
            some ({ s with held := none }.put i start (.released kind false (.closed s.epoch)))
        | .lock, true, some current =>
            some { s with
              held := some (.closing i (s.epoch + 1))
              session := some { current with uiLocked := true }
              epoch := s.epoch + 1 }
        | .disconnect, true, _ =>
            some { s with
              held := some (.closing i (s.epoch + 1))
              session := none
              epoch := s.epoch + 1 }
        | .disconnect, false, _ => some ({ s with held := none }.put i start (.returning .failed))
        | _, false, _ => some ({ s with held := none }.put i start (.released kind false .failed))
      else none
  | .closing j epoch =>
      if j = i then some { s with held := some (.cleared i epoch), cache := none } else none
  | .cleared j epoch =>
      if j = i then
        s.raise.map fun s =>
          { s with held := none }.put i start
            (if kind = Lifecycle.disconnect then .returning (.closed epoch)
            else .released kind false (.closed epoch))
      else none
  | _ => none

/-- A step of a task. A task that is blocked has none. -/
def Service.advance (turn : Turn) : Work → Option Service
  | .marking wait => some (s.put i start (.subscribing wait s.changes.service))
  | .subscribing wait service =>
      if s.held = none then
        some (s.put i start (.entering (.waiter wait
          ⟨service, s.session.map fun _ => s.clients, s.changes.client⟩)))
      else none
  | .entering caller =>
      if s.held = none then
        some ({ s with held := some (.reading i s.changes.service) }.put i start (.inside caller))
      else none
  | .inside caller => s.held.bind (s.present i start caller turn)
  | .finished .request snapshot _ => some (s.answer i start snapshot)
  | .finished (.waiter wait watch) snapshot expires =>
      if snapshot.revision ≠ wait.after ∨ wait.deadline ≤ s.now then
        some (s.answer i start snapshot)
      else if s.stopped then some (s.put i start .gone)
      else some (s.put i start (.asleep wait watch snapshot expires))
  | .asleep wait watch _ expires =>
      if s.stopped ∧ turn.ok then some (s.put i start .gone)
      else if s.woken watch ∨ s.replaced watch ∨ min wait.deadline expires ≤ s.now then
        some (s.put i start (.marking wait))
      else none
  | .waiting kind =>
      if s.held = none then
        some ({ s with held := some (.changing i) }.put i start (.changing kind))
      else none
  | .changing kind => s.held.bind (s.change i start kind turn)
  | .released kind opener outcome =>
      some ({ s with cache := none }.put i start (.dropping opener
        (if kind = Lifecycle.lock ∧ turn.ok = false then .failed else outcome)))
  | .dropping opener outcome => s.raise.map fun s => s.put i start (.returning outcome)
  | .returning .failed => some (s.put i start .gone)
  | .returning (.shown snapshot) => some (s.answer i start snapshot)
  | .returning (.closed epoch) => some { s.put i start .gone with closed := max s.closed epoch }
  | .gone => none

/-- A task is dropped where it waits. The guard of an unlock or a lock invalidates. -/
def Service.cancel : Work → Option Service
  | .subscribing _ _ => some (s.put i start .gone)
  | .entering _ => some (s.put i start .gone)
  | .asleep _ _ _ _ => some (s.put i start .gone)
  | .inside _ =>
      match s.held with
      | some (.building j _ _ _ _) =>
          if j = i then some ({ s with held := none }.put i start .gone) else none
      | _ => none
  | .waiting .disconnect => some (s.put i start .gone)
  | .waiting _ => some ({ s with cache := none }.put i start (.dropping false .failed))
  | .changing kind =>
      match s.held with
      | some (.changing j) =>
          if j = i then
            some ({ s with held := none, cache := none }.put i start
              (if kind = Lifecycle.disconnect then .gone else .dropping false .failed))
          else none
      | _ => none
  | .released _ opener _ => some ({ s with cache := none }.put i start (.dropping opener .failed))
  | _ => none

end Steps

inductive Start where
  | snapshot
  | wait (after : String) (waitMs : ℕ)
  | lifecycle (kind : Lifecycle)

inductive Act where
  | elapse (time : ℕ)
  | clientChanged
  | take
  | raise
  | begin (start : Start)
  | work (task : ℕ) (turn : Turn)
  | cancel (task : ℕ)

def Start.work (now : ℕ) : Start → Work
  | .snapshot => .entering .request
  | .wait after waitMs => .marking ⟨after, now + min waitMs 20000 * 1000000⟩
  | .lifecycle kind => .waiting kind

def Service.step (s : Service) : Act → Option Service
  | .elapse time => some { s with now := s.now + time }
  | .clientChanged =>
      if s.session.isSome ∧ s.changes.client + 1 < versions then
        some { s with changes := { s.changes with client := s.changes.client + 1 } }
      else none
  | .take => some { s with cache := none, invalidating := s.invalidating + 1 }
  | .raise =>
      if s.invalidating = 0 then none
      else { s with invalidating := s.invalidating - 1 }.raise
  | .begin start =>
      some { s with
        stopped := s.stopped || start matches .lifecycle .disconnect
        tasks := s.tasks ++ [⟨s.changes, start.work s.now⟩] }
  | .work i turn => s.tasks[i]?.bind fun task => s.advance i task.start turn task.work
  | .cancel i => s.tasks[i]?.bind fun task => s.cancel i task.start task.work

def machine : Machine Service Act := .ofPartial .new Service.step

end Presentation

end GChat
