import GChat.Dialect.Types
import GChat.Foundation.StringMap

/-!
# The files of an open view

A view keeps a list of the files and an entry for each transfer. Lists are fetched again and
again, actions on a file wait for each other, and replies come in any order. What uploads and
settings ask for enters as calls and refreshes of others.
-/

namespace GChat

namespace FileView

open Foundation Dialect

structure TransferView where
  id : String
  conversation : String
  name : String
  started : ℕ
  pending : Bool
  error : String

structure FileViewState where
  snapshot : Option FileSnapshot
  error : String
  transfers : StringMap TransferView

def emptyFiles : FileViewState := ⟨none, "", ∅⟩

/-- A failure with the code `chatError` gives it and the text that is shown. -/
structure Failure where
  code : String
  text : String

def Failure.retryable (failure : Failure) : Bool :=
  ["transport", "timeout", "unavailable"].contains failure.code

/-- What `assertAlive` throws. -/
def closedFailure : Failure where
  code := "transport"
  text := "Error: Import stopped with this locked or closed view. " ++
    "Reopen Files to resume the retained import."

/-- The list that a refresh has asked for, with the outcome once it has settled. -/
structure Listing where
  revision : ℕ
  outcome : Option (Except Failure Unit)

/-- A refresh that waits for its own list or for that of another one. -/
inductive Refreshing where
  | owning (listing : ℕ)
  | joining (listing : ℕ) (revision : ℕ)

inductive Progress where
  | waits (refreshing : Refreshing)
  | ends (outcome : Except Failure Unit)

/-- Where the action on a file stands. -/
inductive Stage where
  | queued
  | sent (attempt revision : ℕ)
  | resting (attempt : ℕ) (failure : Failure)
  | checking (attempt : ℕ) (failure : Failure) (refreshing : Refreshing)
  | closing (refreshing : Refreshing)
  | done

structure Task where
  id : String
  request : FileRequest
  previous : Option ℕ
  stage : Stage

structure Action where
  action : String
  generation : ℕ

structure Call where
  request : FileRequest
  revision : ℕ

/-- The fields of the controller, and what is in progress: the lists of refreshes, the tasks of
actions under their generations, the calls of others and the refreshes of others. -/
structure Controller where
  value : FileViewState
  alive : Bool
  refreshTask : Option ℕ
  actions : StringMap Action
  revision : ℕ
  mutationRevision : ℕ
  listings : ℕ → Option Listing
  listed : ℕ
  tasks : ℕ → Option Task
  calls : ℕ → Option Call
  called : ℕ
  waiters : ℕ → Option Refreshing
  waited : ℕ

def Controller.new : Controller where
  value := emptyFiles
  alive := true
  refreshTask := none
  actions := ∅
  revision := 0
  mutationRevision := 0
  listings := fun _ => none
  listed := 0
  tasks := fun _ => none
  calls := fun _ => none
  called := 0
  waiters := fun _ => none
  waited := 0

def actionOf : FileRequest → String
  | .list _ => "list"
  | .publications _ => "publications"
  | .prepare _ _ _ _ => "prepare"
  | .commit _ => "commit"
  | .accept _ => "accept"
  | .pause _ => "pause"
  | .resume _ => "resume"
  | .cancel _ => "cancel"
  | .configure _ _ => "configure"

def idOf : FileRequest → Option String
  | .prepare id _ _ _ => some id
  | .commit id => some id
  | .accept id => some id
  | .pause id => some id
  | .resume id => some id
  | .cancel id => some id
  | _ => none

def findFile (s : Controller) (id : String) : Option FileInfo :=
  s.value.snapshot.bind fun snapshot => snapshot.files.find? fun f => f.id == id

/-! ### Replies -/

def isTransfer (state : FileState) : Bool :=
  match state with
  | .downloading => true
  | .waitingForPeers => true
  | .paused => true
  | _ => false

/-- Transfers that the service retained get an entry. -/
def addTransfers (now : ℕ) (transfers : StringMap TransferView) (files : List FileInfo) :
    StringMap TransferView :=
  files.foldl (fun transfers file =>
    if !transfers.contains file.id && isTransfer file.state then
      transfers.insert file.id ⟨file.id, file.conversation, file.name, now, false, ""⟩
    else transfers) transfers

/-- A list is shown unless a mutation has been applied since it was asked for. -/
def listReceived (s : Controller) (revision : ℕ) (reply : FileSnapshot) (now : ℕ) : Controller :=
  if revision = s.mutationRevision then
    { s with value := { s.value with
        snapshot := some reply
        transfers := addTransfers now s.value.transfers reply.files } }
  else s

/-- The reply of a mutation may be filtered; it is merged into the list. -/
def mutationReceived (s : Controller) (reply : FileSnapshot) : Controller :=
  match s.value.snapshot with
  | none => s
  | some old =>
      { s with
        mutationRevision := s.mutationRevision + 1
        value := { s.value with
          snapshot := some { reply with
            files := (old.files.filter fun f => !reply.files.any fun g => g.id == f.id) ++
              reply.files } } }

/-- What `command` does with a reply. -/
def received (s : Controller) (request : FileRequest) (revision : ℕ) (reply : FileSnapshot)
    (now : ℕ) : Controller :=
  match request with
  | .list none => listReceived s revision reply now
  | .list (some _) => s
  | _ => mutationReceived s reply

/-- The reply to the call of another one. -/
def callReceived (s : Controller) (call : Call) (reply : Except Failure FileSnapshot) (now : ℕ) :
    Controller :=
  match reply with
  | .ok value => if s.alive then received s call.request call.revision value now else s
  | .error _ => s

/-! ### Refreshes -/

/-- Call `refresh`. -/
def callRefresh (s : Controller) : Controller × Progress :=
  if s.alive then
    match s.refreshTask with
    | some listing => (s, .waits (.joining listing s.mutationRevision))
    | none =>
        ({ s with
            listings := Function.update s.listings s.listed (some ⟨s.mutationRevision, none⟩)
            listed := s.listed + 1
            refreshTask := some s.listed },
          .waits (.owning s.listed))
  else (s, .ends (.ok ()))

/-- A refresh goes on once the list it waits for has settled. -/
def resumeRefresh (s : Controller) : Refreshing → Option (Controller × Progress)
  | .owning listing =>
      ((s.listings listing).bind Listing.outcome).map fun outcome =>
        ({ s with refreshTask := none }, .ends outcome)
  | .joining listing revision =>
      ((s.listings listing).bind Listing.outcome).map fun outcome =>
        match outcome with
        | .error failure => (s, .ends (.error failure))
        | .ok _ =>
            if s.alive && revision != s.mutationRevision then callRefresh s
            else (s, .ends (.ok ()))

/-- The reply to the list of a refresh. -/
def listReplied (s : Controller) (index : ℕ) (listing : Listing)
    (reply : Except Failure FileSnapshot) (now : ℕ) : Controller :=
  let settled (s : Controller) (outcome : Except Failure Unit) : Controller :=
    { s with listings := Function.update s.listings index (some ⟨listing.revision, some outcome⟩) }
  if s.alive then
    match reply with
    | .ok value => settled (listReceived s listing.revision value now) (.ok ())
    | .error failure =>
        settled { s with value := { s.value with error := failure.text } } (.error failure)
  else settled s (.error closedFailure)

/-! ### Actions -/

def isCurrent (s : Controller) (generation : ℕ) (id : String) : Bool :=
  s.alive && (s.actions[id]?).any fun action => action.generation == generation

def setStage (s : Controller) (generation : ℕ) (task : Task) (stage : Stage) : Controller :=
  { s with tasks := Function.update s.tasks generation (some { task with stage := stage }) }

/-- The entry of the transfer is no longer pending. -/
def settleTransfer (s : Controller) (generation : ℕ) (id error : String) : Controller :=
  if isCurrent s generation id then
    match s.value.transfers[id]? with
    | none => s
    | some transfer =>
        { s with value := { s.value with
            transfers := s.value.transfers.insert id
              { transfer with pending := false, error := error } } }
  else s

/-- The task ends. -/
def finish (s : Controller) (generation : ℕ) (task : Task) : Controller :=
  setStage (if isCurrent s generation task.id then { s with actions := s.actions.erase task.id }
    else s) generation task .done

def fail (s : Controller) (generation : ℕ) (task : Task) (failure : Failure) : Controller :=
  finish (settleTransfer s generation task.id failure.text) generation task

/-- The request is sent, unless another action has superseded it. -/
def proceed (s : Controller) (generation : ℕ) (task : Task) (attempt : ℕ) : Controller :=
  setStage s generation task
    (if isCurrent s generation task.id then .sent attempt s.mutationRevision else .done)

/-- The request has had its effect. -/
def complete (s : Controller) (generation : ℕ) (task : Task) : Controller :=
  if isCurrent s generation task.id then
    match callRefresh (settleTransfer s generation task.id "") with
    | (s, .waits refreshing) => setStage s generation task (.closing refreshing)
    | (s, .ends _) => finish s generation task
  else finish s generation task

def retries (task : Task) (attempt : ℕ) (failure : Failure) : Bool :=
  ["accept", "resume"].contains (actionOf task.request) && failure.retryable && attempt < 2

/-- The request has failed. -/
def retry (s : Controller) (generation : ℕ) (task : Task) (attempt : ℕ) (failure : Failure) :
    Controller :=
  if retries task attempt failure then setStage s generation task (.resting attempt failure)
  else fail s generation task failure

/-- A retry only goes on with a transfer that has not begun. -/
def checked (s : Controller) (generation : ℕ) (task : Task) (attempt : ℕ) (failure : Failure) :
    Controller :=
  match findFile s task.id with
  | none => fail s generation task failure
  | some file =>
      match file.state with
      | .downloading => complete s generation task
      | .waitingForPeers => complete s generation task
      | .complete => complete s generation task
      | .offered => proceed s generation task (attempt + 1)
      | .paused => proceed s generation task (attempt + 1)
      | _ => fail s generation task failure

def act (s : Controller) (id : String) (request : FileRequest) (now : ℕ) : Controller :=
  if !s.alive || (s.actions[id]?).any fun action => action.action == actionOf request then s
  else
    let generation := s.revision + 1
    let value := match findFile s id with
      | none => s.value
      | some file =>
          { s.value with
            transfers := s.value.transfers.insert id
              ⟨id, file.conversation, file.name,
                ((s.value.transfers[id]?).map (·.started)).getD now, true, ""⟩
            error := "" }
    { s with
      revision := generation
      value := value
      actions := s.actions.insert id ⟨actionOf request, generation⟩
      tasks := Function.update s.tasks generation
        (some ⟨id, request, (s.actions[id]?).map (·.generation), .queued⟩) }

/-! ### Steps -/

inductive Event where
  | act (request : FileRequest) (now : ℕ)
  | started (generation : ℕ)
  | replied (generation : ℕ) (reply : Except Failure FileSnapshot) (now : ℕ)
  | woke (generation : ℕ)
  | refreshed (generation : ℕ)
  | called (request : FileRequest)
  | callReplied (call : ℕ) (reply : Except Failure FileSnapshot) (now : ℕ)
  | refresh
  | listReplied (listing : ℕ) (reply : Except Failure FileSnapshot) (now : ℕ)
  | waited (waiter : ℕ)
  | stop

def hasEnded (s : Controller) (generation : ℕ) : Bool :=
  (s.tasks generation).any fun task =>
    match task.stage with
    | .done => true
    | _ => false

/-- The step of a task. -/
def taskStep (s : Controller) (generation : ℕ) (task : Task) : Event → Option Controller
  | .started _ =>
      match task.stage with
      | .queued =>
          if task.previous.all (hasEnded s) then some (proceed s generation task 0) else none
      | _ => none
  | .replied _ reply now =>
      match task.stage with
      | .sent attempt revision =>
          some (if s.alive then
            match reply with
            | .ok value => complete (received s task.request revision value now) generation task
            | .error failure => retry s generation task attempt failure
          else retry s generation task attempt closedFailure)
      | _ => none
  | .woke _ =>
      match task.stage with
      | .resting attempt failure =>
          some (if isCurrent s generation task.id then
            match callRefresh s with
            | (s, .waits refreshing) =>
                setStage s generation task (.checking attempt failure refreshing)
            | (s, .ends _) => checked s generation task attempt failure
          else finish s generation task)
      | _ => none
  | .refreshed _ =>
      match task.stage with
      | .checking attempt failure refreshing =>
          (resumeRefresh s refreshing).map fun next =>
            match next with
            | (s, .waits refreshing) =>
                setStage s generation task (.checking attempt failure refreshing)
            | (s, .ends (.ok _)) => checked s generation task attempt failure
            | (s, .ends (.error other)) => fail s generation task other
      | .closing refreshing =>
          (resumeRefresh s refreshing).map fun next =>
            match next with
            | (s, .waits refreshing) => setStage s generation task (.closing refreshing)
            | (s, .ends (.ok _)) => finish s generation task
            | (s, .ends (.error failure)) => fail s generation task failure
      | _ => none
  | _ => none

/-- One step: an input, a reply or a task that goes on. -/
def step (s : Controller) (event : Event) : Option Controller :=
  match event with
  | .act request now => (idOf request).map fun id => act s id request now
  | .started generation => (s.tasks generation).bind fun task => taskStep s generation task event
  | .replied generation _ _ =>
      (s.tasks generation).bind fun task => taskStep s generation task event
  | .woke generation => (s.tasks generation).bind fun task => taskStep s generation task event
  | .refreshed generation => (s.tasks generation).bind fun task => taskStep s generation task event
  | .called request =>
      if s.alive then
        some { s with
          calls := Function.update s.calls s.called (some ⟨request, s.mutationRevision⟩)
          called := s.called + 1 }
      else none
  | .callReplied index reply now =>
      (s.calls index).map fun call =>
        callReceived { s with calls := Function.update s.calls index none } call reply now
  | .refresh =>
      match callRefresh s with
      | (s, .waits refreshing) =>
          some { s with
            waiters := Function.update s.waiters s.waited (some refreshing)
            waited := s.waited + 1 }
      | (s, .ends _) => some s
  | .listReplied index reply now =>
      (s.listings index).bind fun listing =>
        match listing.outcome with
        | none => some (listReplied s index listing reply now)
        | some _ => none
  | .waited index =>
      (s.waiters index).bind fun refreshing =>
        (resumeRefresh s refreshing).map fun next =>
          match next with
          | (s, .waits refreshing) =>
              { s with waiters := Function.update s.waiters index (some refreshing) }
          | (s, .ends _) => { s with waiters := Function.update s.waiters index none }
  | .stop => some { s with alive := false, value := emptyFiles }

/-- What has happened since the start, the latest first. -/
inductive Run (start : Controller) : List Event → Controller → Prop
  | start : Run start [] start
  | step {past : List Event} {s t : Controller} {event : Event} (h : Run start past s)
      (hstep : step s event = some t) : Run start (event :: past) t

end FileView

end GChat
