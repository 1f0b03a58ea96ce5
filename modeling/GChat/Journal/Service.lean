import GChat.Foundation.Machine
import GChat.Journal.Rpc

/-!
# The service around the journal

The journal in memory and on disk, the requests that wait between their steps, and
the steps in any order: legacy submissions, typed admissions, invocations and
completions, locking, disconnecting and crashing, saves of other operations, and
the wall clock. `history` records what was admitted, started and recorded.
-/

namespace GChat

namespace Journal

open Foundation Api

inductive Event where
  | admitted (id digest : String) (time : ℕ) (key : Option OperationKey)
  | started (id digest : String)
  | responded (id : String) (response : Response)
  | completed (key : OperationKey) (result : ReplyBody)

/-- The unlocked profile. -/
structure Session where
  operations : Operations
  uiLocked : Bool

/-- `waiting` are the typed operations that are admitted and not yet invoked, `pending`
those that are admitted and not yet completed; `executing` are the commands that run. -/
structure Service where
  clock : ℕ
  session : Option Session
  disk : Operations
  waiting : List (OperationKey × String)
  pending : List OperationKey
  executing : List String
  history : List Event

def Service.new : Service :=
  { clock := 0, session := none, disk := ∅, waiting := [], pending := [], executing := [],
    history := [] }

/-- A session whose view is not locked. -/
def Service.unlocked (s : Service) : Option Session :=
  s.session.filter fun session => !session.uiLocked

/-- The service after an access to the journal of a session. -/
def Service.put (s : Service) (session : Session) (journal : Cell Operations) : Service :=
  { s with
    session := some { session with operations := journal.memory }
    disk := journal.disk }

def Session.journal (session : Session) (disk : Operations) : Cell Operations :=
  ⟨session.operations, disk⟩

/-- What a step answers. -/
inductive Reply where
  | done
  | locked
  | submitted (result : Except String Begun)
  | admission (result : Except RpcError Admission)
  | finished (result : Finished)
  | completion (result : Except RpcError Unit)

inductive Label where
  | clock (now : ℕ)
  | unlock (outcome : Written)
  | lock (outcome : Written)
  | disconnect (outcome : Written)
  | crash
  | save (outcome : Written)
  | submit (request : Submit) (aliases : StringMap String) (first second : Written)
  | rpcAdmit (now : ℕ) (key : OperationKey) (digest : String) (deadline : ℕ) (outcome : Written)
  | invoke (key : OperationKey) (digest : String) (conversation : Option String) (text : String)
      (aliases : StringMap String) (outcome : Written)
  | finish (id : String) (response : Response) (outcome : Written)
  | abandon (id : String)
  | complete (key : OperationKey) (result : ReplyBody) (outcome : Written)

/-- Opening the profile reads the journal from disk; a locked view only needs the passphrase. -/
def Service.unlock (s : Service) (outcome : Written) : Service :=
  match s.session with
  | some session => { s with session := some { session with uiLocked := false } }
  | none =>
      match outcome with
      | .saved => { s with session := some ⟨s.disk, false⟩ }
      | _ => s

/-- Save the journal as it is in memory. -/
def Service.save (s : Service) (outcome : Written) : Service :=
  match s.session with
  | none => s
  | some session =>
      s.put session ((session.journal s.disk).write session.operations outcome).1

def Service.lock (s : Service) (outcome : Written) : Service :=
  let s := s.save outcome
  match s.session, outcome with
  | some session, .saved => { s with session := some { session with uiLocked := true } }
  | _, _ => s

def Service.disconnect (s : Service) (outcome : Written) : Service :=
  { s.save outcome with session := none }

/-- What remains after the process died. -/
def Service.crash (s : Service) : Service :=
  { s with session := none, waiting := [], pending := [], executing := [] }

/-- The admission a submission made, once its record was saved. -/
def Host.admissionEvents (host : Host) (now : ℕ) (request : Submit) (first : Written)
    (operations : Operations) : List Event :=
  match host.decide now false request operations, first with
  | .ok (.accept _), .saved =>
      [.admitted request.operationId (host.digest request.conversation request.text) now none]
  | _, _ => []

/-- Enter a submission that started among the running ones. -/
def Host.start (host : Host) (request : Submit) (result : Except String Begun) (s : Service) :
    Service :=
  match result with
  | .ok (.started _) =>
      { s with
        executing := request.operationId :: s.executing
        history := s.history ++ [.started request.operationId
          (host.digest request.conversation request.text)] }
  | _ => s

def Host.submit (host : Host) (s : Service) (request : Submit) (aliases : StringMap String)
    (first second : Written) : Service × Reply :=
  match lifecycleRequest request.text with
  | .lock => (s.lock first, .done)
  | .disconnect => (s.disconnect first, .done)
  | .submit =>
      match s.unlocked with
      | none => (s, .locked)
      | some session =>
          let (journal, result) := host.beginSubmit s.clock false aliases request first second
            (session.journal s.disk)
          let s := { s.put session journal with
            history := s.history ++ host.admissionEvents s.clock request first session.operations }
          (host.start request result s, .submitted result)

/-- A typed session reads the clock before it waits for the journal. -/
def Host.admitTyped (host : Host) (s : Service) (now : ℕ) (key : OperationKey) (digest : String)
    (deadline : ℕ) (outcome : Written) : Service × Reply :=
  match s.unlocked with
  | none => (s, .locked)
  | some session =>
      match host.rpcAdmit now key digest deadline outcome (session.journal s.disk) with
      | (journal, .ok .new) =>
          ({ s.put session journal with
              waiting := (key, digest) :: s.waiting
              pending := key :: s.pending
              history := s.history ++ [.admitted (recordId key) digest now (some key)] },
            .admission (.ok .new))
      | (journal, result) => (s.put session journal, .admission result)

/-- Run the handler of a typed operation, which it may do once after its admission. The
handler of a submission is the legacy one; the others do not use the journal. -/
def Host.invoke (host : Host) (s : Service) (key : OperationKey) (digest : String)
    (conversation : Option String) (text : String) (aliases : StringMap String)
    (outcome : Written) : Service × Reply :=
  if (key, digest) ∉ s.waiting then (s, .done)
  else
    let s := { s with waiting := s.waiting.erase (key, digest) }
    if key.method ≠ "submit" then
      ({ s with history := s.history ++ [.started (recordId key) digest] }, .done)
    else
      match s.unlocked with
      | none => (s, .locked)
      | some session =>
          let request : Submit := ⟨key.operationId, conversation, text⟩
          let (journal, result) := host.beginSubmit s.clock true aliases request .saved outcome
            (session.journal s.disk)
          (host.start request result (s.put session journal), .submitted result)

def Service.finish (s : Service) (id : String) (response : Response) (outcome : Written) :
    Service × Reply :=
  if id ∉ s.executing then (s, .done)
  else
    let s := { s with executing := s.executing.erase id }
    match s.session with
    | none => (s, .finished (.failed "instance disconnected; operation outcome unknown"))
    | some session =>
        match finishSubmit id response outcome (session.journal s.disk) with
        | (journal, .recorded response) =>
            ({ s.put session journal with
                history := s.history ++ [.responded id (retainedResponse response)] },
              .finished (.recorded response))
        | (journal, result) => (s.put session journal, .finished result)

def Host.complete (host : Host) (s : Service) (key : OperationKey) (result : ReplyBody)
    (outcome : Written) : Service × Reply :=
  if key ∉ s.pending then (s, .done)
  else
    let s := { s with pending := s.pending.erase key }
    match s.session with
    | none => (s, .locked)
    | some session =>
        match host.rpcComplete key result outcome (session.journal s.disk) with
        | (journal, .ok _) =>
            ({ s.put session journal with history := s.history ++ [.completed key result] },
              .completion (.ok ()))
        | (journal, .error error) => (s.put session journal, .completion (.error error))

def Host.step (host : Host) (s : Service) : Label → Service × Reply
  | .clock now => ({ s with clock := now }, .done)
  | .unlock outcome => (s.unlock outcome, .done)
  | .lock outcome => (s.lock outcome, .done)
  | .disconnect outcome => (s.disconnect outcome, .done)
  | .crash => (s.crash, .done)
  | .save outcome => (s.save outcome, .done)
  | .submit request aliases first second => host.submit s request aliases first second
  | .rpcAdmit now key digest deadline outcome => host.admitTyped s now key digest deadline outcome
  | .invoke key digest conversation text aliases outcome =>
      host.invoke s key digest conversation text aliases outcome
  | .finish id response outcome => s.finish id response outcome
  | .abandon id => ({ s with executing := s.executing.erase id }, .done)
  | .complete key result outcome => host.complete s key result outcome

/-- The service under any order of steps. -/
def Host.machine (host : Host) : Machine Service Label :=
  Machine.ofFun .new fun s label => (host.step s label).1

end Journal

end GChat
