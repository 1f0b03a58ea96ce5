import GChat.Foundation.Machine
import Mathlib.Algebra.Group.Nat.Defs

/-!
# The lifecycle of a mobile profile

A native event closes the admission of operations and is queued for a worker. For the background
the worker shuts the router down, waits until the admitted operations are done, and flushes the
host; for the foreground it makes a new router, unlocks the host if a secret is remembered, and
opens the admission again if no event came in between.
-/

namespace GChat

namespace Mobile

open Foundation

inductive LifecycleEvent where
  | background
  | foreground
deriving DecidableEq

/-! ### The gate -/

/-- Revisions are counted modulo this. -/
def revisions : ℕ := 2 ^ 64

structure Admission where
  revision : ℕ
  foreground : Bool
  isOpen : Bool
deriving DecidableEq

def Admission.new : Admission := ⟨0, true, true⟩

def Admission.publish (gate : Admission) (event : LifecycleEvent) : Admission where
  revision := (gate.revision + 1) % revisions
  foreground := event == .foreground
  isOpen := false

def Admission.currentForeground (gate : Admission) (revision : ℕ) : Bool :=
  gate.revision == revision && gate.foreground

def Admission.resume (gate : Admission) (revision : ℕ) : Admission × Bool :=
  if gate.currentForeground revision then ({ gate with isOpen := true }, true) else (gate, false)

/-- The gate lets an operation pass. -/
def Admission.admits (gate : Admission) : Bool := gate.isOpen && gate.foreground

/-! ### The attachment -/

/-- An operation of a view. It holds the activity lock from `entered` on until it is `done`; that
its view goes away changes nothing. -/
inductive Operation where
  | waiting
  | entered
  | running
  | done
deriving DecidableEq

def Operation.isActive : Operation → Bool
  | .entered => true
  | .running => true
  | _ => false

/-- An event with its revision; `index` counts the events without a bound. -/
structure Job where
  event : LifecycleEvent
  revision : ℕ
  index : ℕ

/-- Where the worker stands in the work for an event: before the transition lock, in
`background` from `shutting` to `flushing`, or in `foreground`. -/
inductive Phase where
  | waiting
  | shutting
  | draining
  | refreshing
  | flushing
  | checking
  | replacing
  | resolving
  | unlocking
  | resuming
  | closing
  | reflushing
deriving DecidableEq

/-- The attachment. `entering` is an event that closed the gate and is about to be queued, and
`exclusive` is that the worker holds the activity lock alone. The last four fields are what is
observed of a run: the number of events, that of the event whose worker opened the gate last,
that the host was flushed and the gate not opened since, and that a worker of the foreground
unlocked the host and neither opened the gate nor flushed the host since. -/
structure Attachment where
  admission : Admission
  entering : Option Job
  queue : List Job
  worker : Option (Job × Phase)
  transitioning : Bool
  exclusive : Bool
  operations : List Operation
  router : ℕ
  shut : List ℕ
  published : ℕ
  openedBy : ℕ
  drained : Bool
  owed : Bool

def Attachment.created : Attachment where
  admission := .new
  entering := none
  queue := []
  worker := none
  transitioning := false
  exclusive := false
  operations := []
  router := 0
  shut := []
  published := 0
  openedBy := 0
  drained := false
  owed := false

section Worker

variable (s : Attachment) (job : Job)

/-- The worker is done with the event, and releases the transition lock. -/
def Attachment.finish : Attachment := { s with worker := none, transitioning := false }

def Attachment.goto (phase : Phase) : Attachment := { s with worker := some (job, phase) }

def Attachment.shutdownRouter : Attachment := { s with shut := s.router :: s.shut }

/-- One step of the worker. `answer` is how the step turns out: whether a router could be made,
whether a secret is remembered and was found, and whether the host was unlocked. -/
def Attachment.advance (answer : Bool) : Phase → Option Attachment
  | .waiting =>
      if s.transitioning then none
      else
        some (({ s with transitioning := true }).goto job
          (match job.event with
          | .background => .shutting
          | .foreground => .checking))
  | .shutting => some (s.shutdownRouter.goto job .draining)
  | .draining =>
      if s.operations.any Operation.isActive then none
      else some (({ s with exclusive := true }).goto job .refreshing)
  | .refreshing => some (({ s with drained := true }).goto job .flushing)
  | .flushing => some { s.finish with exclusive := false }
  | .checking =>
      if s.admission.currentForeground job.revision then some (s.goto job .replacing)
      else some s.finish
  | .replacing =>
      if answer then some (({ s with router := s.router + 1 }).goto job .resolving)
      else some s.finish
  | .resolving =>
      if answer && s.admission.currentForeground job.revision then some (s.goto job .unlocking)
      else some (s.goto job .resuming)
  | .unlocking => some (({ s with owed := answer }).goto job .resuming)
  | .resuming =>
      match s.admission.resume job.revision with
      | (gate, true) =>
          some { s.finish with
            admission := gate, openedBy := job.index, drained := false, owed := false }
      | (_, false) => some (s.goto job .closing)
  | .closing => some (s.shutdownRouter.goto job .reflushing)
  | .reflushing => some { s.finish with owed := false }

end Worker

inductive Step where
  | native (event : LifecycleEvent)
  | enqueue
  | receive
  | work (answer : Bool)
  | spawn
  | enter (operation : ℕ)
  | check (operation : ℕ)
  | complete (operation : ℕ)

/-- More events than this cannot be queued: the memory for them cannot be had. -/
def queueLimit : ℕ := 2 ^ 60

/-- Native events are delivered one after the other. -/
def Attachment.nativeEvent (s : Attachment) (event : LifecycleEvent) : Option Attachment :=
  if s.entering.isSome || queueLimit ≤ s.queue.length then none
  else
    let gate := s.admission.publish event
    some { s with
      admission := gate
      entering := some ⟨event, gate.revision, s.published + 1⟩
      published := s.published + 1 }

def Attachment.step (s : Attachment) : Step → Option Attachment
  | .native event => s.nativeEvent event
  | .enqueue => s.entering.map fun job => { s with entering := none, queue := s.queue ++ [job] }
  | .receive =>
      match s.worker, s.queue with
      | none, job :: queue => some { s with worker := some (job, .waiting), queue := queue }
      | _, _ => none
  | .work answer => s.worker.bind fun w => s.advance w.1 answer w.2
  | .spawn => some { s with operations := s.operations ++ [.waiting] }
  | .enter i =>
      if s.operations[i]? = some .waiting ∧ s.exclusive = false then
        some { s with operations := s.operations.set i .entered }
      else none
  | .check i =>
      if s.operations[i]? = some .entered then
        some { s with
          operations := s.operations.set i (if s.admission.admits then .running else .done) }
      else none
  | .complete i =>
      if s.operations[i]? = some .running then
        some { s with operations := s.operations.set i .done }
      else none

def attachmentMachine : Machine Attachment Step := .ofPartial .created Attachment.step

end Mobile

end GChat
