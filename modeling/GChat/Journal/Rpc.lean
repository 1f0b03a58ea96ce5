import GChat.Journal.Submit

/-!
# Typed operations

The operation store of the typed sessions, over the same journal. A session that
`rpcAdmit` answers with `new` runs the operation and then calls `rpcComplete`.
-/

namespace GChat

namespace Journal

open Foundation Api

/-- The code of a refusal. -/
inductive ErrorCode where
  | unauthorized
  | conflict
  | unavailable
  | busy
  | expired
  | storage
deriving DecidableEq

structure RpcError where
  code : ErrorCode
  message : String
deriving DecidableEq

/-- What a session is told about an operation that was admitted before. -/
structure KnownOperation where
  key : OperationKey
  digest : String
  admittedAt : ℕ
  retainUntil : ℕ
  result : Option ReplyBody
deriving DecidableEq

inductive Admission where
  | new
  | existing (known : KnownOperation)
deriving DecidableEq

def isDurableMethod (method : String) : Bool :=
  method == "submit" || method == "mark_read" || method == "network_operation"

def Host.checkKey (host : Host) (key : OperationKey) : Except RpcError Unit :=
  if key.caller != "local-owner" || key.host != host.id || key.service != serviceName ||
      key.version != serviceVersion || !isDurableMethod key.method then
    .error ⟨.unauthorized, "chat operation binding mismatch"⟩
  else .ok ()

/-- The typed form of a response that was recorded without a typed completion. -/
def Host.legacyResult (host : Host) (response : Response) : ReplyBody :=
  if response.isOutcomeUnknown then .outcomeUnknown
  else
    match host.encodeOutcome (SubmitOutcome.tryFrom response) with
    | .ok outcome => .done outcome
    | .error error => .failed error

/-- A typed completion has its own commit: the legacy response is the result only of
an operation that was admitted without a key. -/
def Host.recordResult (host : Host) (record : OperationRecord) : Option ReplyBody :=
  match record.rpc with
  | some binding => binding.result
  | none => record.response.map host.legacyResult

def Host.rpcRecord (host : Host) (key : OperationKey) (record : OperationRecord) :
    Except RpcError KnownOperation :=
  let known : KnownOperation :=
    { key := key, digest := record.digest, admittedAt := record.admittedAt,
      retainUntil := saturatingAdd record.admittedAt host.retention,
      result := host.recordResult record }
  match record.rpc with
  | some binding =>
      if binding.key ≠ key then
        .error ⟨.conflict, "operation belongs to another method or caller"⟩
      else .ok known
  | none =>
      if key.method ≠ "submit" then .error ⟨.unavailable, "operation unavailable"⟩
      else .ok known

/-- The record of a typed operation that has not expired. -/
def Host.retained (host : Host) (now : ℕ) (key : OperationKey) (operations : Operations) :
    Option OperationRecord :=
  operations[recordId key]?.filter fun record => record.fresh host.retention now

/-- The journal with a new typed operation. -/
def Host.rpcCandidate (host : Host) (now : ℕ) (key : OperationKey) (digest : String)
    (operations : Operations) : Operations :=
  (prune host.retention now operations).insert (recordId key) (.new digest now (some ⟨key, none⟩))

def Host.rpcAdmit (host : Host) (now : ℕ) (key : OperationKey) (digest : String)
    (deadline : ℕ) (outcome : Written) (journal : Cell Operations) :
    Cell Operations × Except RpcError Admission :=
  match host.checkKey key with
  | .error error => (journal, .error error)
  | .ok _ =>
      match host.retained now key journal.memory with
      | some old =>
          if old.digest ≠ digest then
            (journal, .error ⟨.conflict, "operation ID was used with different contents"⟩)
          else (journal, (host.rpcRecord key old).map .existing)
      | none =>
          if deadline ≤ now ∨ saturatingAdd now 600 < deadline then
            (journal, .error ⟨.expired, "submission deadline expired"⟩)
          else if operationLimit ≤ (prune host.retention now journal.memory).size then
            (journal, .error ⟨.busy, "chat operation journal is full"⟩)
          else
            match journal.publish (host.rpcCandidate now key digest journal.memory) outcome with
            | (journal, .ok _) => (journal, .ok .new)
            | (journal, .error message) => (journal, .error ⟨.storage, message⟩)

/-- Record the typed result of an operation. -/
def Host.rpcComplete (host : Host) (key : OperationKey) (result : ReplyBody)
    (outcome : Written) (journal : Cell Operations) : Cell Operations × Except RpcError Unit :=
  match host.checkKey key with
  | .error error => (journal, .error error)
  | .ok _ =>
      match journal.memory[recordId key]? with
      | none => (journal, .error ⟨.storage, "operation admission missing"⟩)
      | some record =>
          match record.rpc with
          | none => (journal, .error ⟨.storage, "RPC admission missing"⟩)
          | some binding =>
              if binding.key ≠ key then
                (journal, .error ⟨.conflict, "operation binding changed"⟩)
              else if binding.result.any (· != result) then
                (journal, .error ⟨.conflict, "operation already completed"⟩)
              else
                let candidate := journal.memory.insert (recordId key)
                  { record with rpc := some { binding with result := some result } }
                match journal.publish candidate outcome with
                | (journal, .ok _) => (journal, .ok ())
                | (journal, .error message) => (journal, .error ⟨.storage, message⟩)

end Journal

end GChat
