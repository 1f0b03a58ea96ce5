import GChat.Commands.Completions
import GChat.Dialect.Types
import GChat.Files.Frames
import GChat.Foundation.Effect
import GChat.Foundation.StringMap
import GChat.Foundation.FirstMatch
import GChat.Hosted.Apply
import GChat.Recovery.RoundTrip
import GChat.Unlock.Model

/-!
# Requests about files

Files are shared over two caches: that of the channels and that of contacts and hosted channels.
A request names a file by an identifier, and goes to the cache that has it. The service records an
activity when a file appears, and numbers the files it has published.
-/

namespace GChat

namespace Files

open Foundation Dialect Archive
open Unlock (Capability)

abbrev ShareId := Bytes 16

/-- The scope of a file of a channel; without participants it is the whole channel. -/
structure Scope where
  channel : Bytes 32
  participants : List (Bytes 32)
deriving DecidableEq

inductive ModernScope where
  | hosted (channel : Bytes 32)
  | contact (peer : Bytes 32)
deriving DecidableEq

/-- A file as a cache lists it. -/
structure View (S : Type) where
  id : ShareId
  scope : S
  name : String
  sizeBytes : UInt64
  verifiedBytes : UInt64
  status : FileState
  sources : UInt16
  verifiedSources : UInt16
  completedBy : UInt16
  error : Option String

structure CacheConfig where
  quotaBytes : UInt64
  retentionSecs : UInt64

structure Snapshot (S : Type) where
  files : List (View S)
  config : CacheConfig
  usedBytes : UInt64

structure Metadata where
  id : ShareId
  name : String
  sizeBytes : UInt64
  sha256 : Bytes 32

/-- What a cache is asked to do. -/
inductive Operation (S : Type) where
  | list
  | prepare (id : ShareId) (scope : S) (name : String) (sizeBytes : UInt64)
  | commit (id : ShareId)
  | accept (id : ShareId)
  | pause (id : ShareId)
  | resume (id : ShareId)
  | cancel (id : ShareId)
  | configure (config : CacheConfig)
  | inspect (id : ShareId)

inductive Reply (S : Type) where
  | snapshot (value : Snapshot S)
  | committed (original canonical : ShareId) (value : Snapshot S)
  | metadata (value : Metadata)
  | piece (bytes : List UInt8)

/-! ### Handles, numbers and conversations -/

/-- The identifier behind a handle of 32 digits, which is read as in a recovery preview. -/
def parseId (value : String) : Except String ShareId :=
  match Recovery.bytes 16 value.toList with
  | .ok id => .ok id
  | .error _ => .error "Invalid file handle"

def number (value : String) : Except String UInt64 := do
  refuse (value.toList.isEmpty || (1 < value.toList.length && value.toList.head? == some '0') ||
    !value.toList.all Char.isDigit) "Invalid byte count"
  (okOr (fromStrRadix 10 (2 ^ 64) value.toList) "Invalid byte count").map UInt64.ofNat

/-- The identifiers of a private conversation in their order. -/
def sortTwo (a b : Bytes 32) : List (Bytes 32) :=
  if b.toList.map UInt8.toNat < a.toList.map UInt8.toNat then [b, a] else [a, b]

def scope (archive : ArchiveData) (conversation : String) : Except String Scope := do
  let channel ← Commands.contextChannel archive (some conversation)
  match archive.scopedPms.find? fun p => p.active && queryKey p.id == conversation with
  | some pm => .ok ⟨channel.id, sortTwo pm.id.selfMemberId pm.id.remoteMemberId⟩
  | none =>
      if conversation = channelKey channel.id then .ok ⟨channel.id, []⟩
      else .error "Conversation is not active"

/-- The conversation of a file: that of the last record of the channel whose own member belongs to
the scope. -/
def conversation (archive : ArchiveData) (scope : Scope) : Option String := do
  let channel ← archive.channels.reverse.find? fun c => c.id == scope.channel &&
    c.selfMemberId.any fun own => scope.participants.isEmpty || scope.participants.contains own
  if scope.participants.isEmpty then some (channelKey channel.id)
  else
    let own ← channel.selfMemberId
    let remote ← scope.participants.find? (· != own)
    some (queryKey ⟨channel.id, own, remote⟩)

def modernConversation : ModernScope → String
  | .hosted channel => "hosted/" ++ hex channel.toList
  | .contact peer => "contact/" ++ hex peer.toList

def fileCapability (conversation : String) : Capability :=
  if Commands.isContact conversation then .directMessage
  else if Commands.isHosted conversation then .hostedChannels
  else .channelMember

/-! ### Listing -/

def View.info {S : Type} (view : View S) (conversation : String) : FileInfo where
  id := hex view.id.toList
  aliases := none
  publication := none
  conversation := conversation
  name := view.name
  sizeBytes := toString view.sizeBytes.toNat
  verifiedBytes := toString view.verifiedBytes.toNat
  state := view.status
  sources := view.sources
  verifiedSources := view.verifiedSources
  completedBy := view.completedBy
  error := view.error

/-- The files of the conversations that are known, with their conversations. -/
def inConversations {S : Type} (conversationOf : S → Option String) (filter : Option String)
    (files : List (View S)) : List FileInfo :=
  files.filterMap fun view => do
    let conversation ← conversationOf view.scope
    if filter.any (· != conversation) then none else some (view.info conversation)

def snapshot (value : Snapshot Scope) (archive : ArchiveData) (filter : Option String) :
    FileSnapshot where
  files := inConversations (conversation archive) filter value.files
  quotaBytes := toString value.config.quotaBytes.toNat
  usedBytes := toString value.usedBytes.toNat
  retentionDays := UInt16.ofNat (min (value.config.retentionSecs.toNat / 86400) 65535)

/-- Sums of 64 bits that stay at their greatest value. -/
def saturatingAdd (a b : ℕ) : ℕ := min (a + b) (2 ^ 64 - 1)

def appendModern (result : FileSnapshot) (value : Snapshot ModernScope) (filter : Option String) :
    FileSnapshot :=
  { result with
    usedBytes := toString (saturatingAdd ((fromStrRadix 10 (2 ^ 64) result.usedBytes.toList).getD 0)
      value.usedBytes.toNat)
    files := result.files ++ inConversations (some ∘ modernConversation) filter value.files }

/-! ### Admission -/

def saturatingMul (a b : ℕ) : ℕ := min (a * b) (2 ^ 64 - 1)

def hasFile {S : Type} (value : Snapshot S) (handle : String) : Bool :=
  value.files.any fun f => hex f.id.toList == handle

def offeredSize {S : Type} (value : Snapshot S) (handle : String) : Option ℕ :=
  (value.files.find? fun f => hex f.id.toList == handle && f.status == .offered).map
    (·.sizeBytes.toNat)

/-- The bytes that a request would add to the caches. -/
def extraBytes (request : FileRequest) (legacy : Snapshot Scope) (modern : Snapshot ModernScope) :
    Except String ℕ :=
  let accepted (handle : String) : Except String ℕ :=
    .ok (((offeredSize legacy handle).or (offeredSize modern handle)).elim 0 fun bytes =>
      saturatingAdd bytes (saturatingMul ((bytes + pieceBytes - 1) / pieceBytes) 1016))
  match request with
  | .prepare handle _ _ sizeBytes =>
      if hasFile legacy handle || hasFile modern handle then .ok 0
      else
        (number sizeBytes).map fun bytes => saturatingAdd (saturatingAdd bytes.toNat
          (saturatingMul ((bytes.toNat + pieceBytes - 1) / pieceBytes) 1024)) 4096
  | .accept handle => accepted handle
  | .resume handle => accepted handle
  | _ => .ok 0

def combinedAdmission (request : FileRequest) (legacy : Snapshot Scope)
    (modern : Snapshot ModernScope) (quota : ℕ) : Except String Unit := do
  let extra ← extraBytes request legacy modern
  refuse (0 < extra && quota <
    saturatingAdd (saturatingAdd legacy.usedBytes.toNat modern.usedBytes.toNat) extra)
    "Combined file cache quota exceeded"

/-! ### The service -/

/-- What the service keeps about files. `drawn` counts the identifiers that were drawn. -/
structure FilesState where
  sharedFiles : Finset String
  filesObserved : Bool
  publications : StringMap FilePublication
  publicationSequence : ℕ
  config : CacheConfig
  activity : List Hosted.Activity
  drawn : ℕ

/-- Record an activity; `stamp` are the identifiers and times in the order they are drawn. -/
def FilesState.recordActivity (state : FilesState) (stamp : ℕ → String × ℕ)
    (conversation text : String) : FilesState :=
  { state with
    activity := Hosted.trim (state.activity ++
      [⟨(stamp state.drawn).1, conversation, "file", text, (stamp state.drawn).2⟩])
    drawn := state.drawn + 1 }

/-- The operations that were sent to the caches; what only looks at a file is left out. -/
inductive Sent where
  | legacy (operation : Operation Scope)
  | modern (operation : Operation ModernScope)

structure Desk where
  state : FilesState
  sent : List Sent

/-- What a request meets: the session, the rooms and contacts, and the answers of the caches. -/
structure Setting where
  grants : Capability → Bool
  cache : Except String Unit
  contacts : Except String Unit
  archive : ArchiveData
  filePeer : String → Except String (Bytes 32)
  hostedRoom : String → Option (Bytes 32)
  safetyNumber : String
  stamp : ℕ → String × ℕ
  now : ℕ
  validConfig : CacheConfig → Except String Unit
  save : Except String Unit
  modernList : Except String (Snapshot ModernScope)
  admissionList : Except String (Reply Scope)
  conflictList : Except String (Reply Scope)
  modernReply : Operation ModernScope → Except String (Reply ModernScope)
  reply : Operation Scope → Except String (Reply Scope)
  inspect : ShareId → Except String (Reply Scope)
  modernListAfter : Except String (Snapshot ModernScope)

section

variable (m : Setting)

def sharedText (name sizeBytes : String) : String :=
  "File shared: " ++ name ++ " (" ++ sizeBytes ++ " bytes)"

def require (capability : Capability) : Except String Unit :=
  refuse (!m.grants capability) "this instance does not grant the requested operation"

def requireFiles : Except String Unit :=
  refuse (!(m.grants .directMessage || m.grants .hostedChannels || m.grants .channelMember))
    "File conversations are not permitted"

def restrictFiles (value : FileSnapshot) : FileSnapshot :=
  { value with files := value.files.filter fun f => m.grants (fileCapability f.conversation) }

/-- The identifier a request acts on. -/
def handleOf : FileRequest → Option String
  | .commit id => some id
  | .accept id => some id
  | .pause id => some id
  | .resume id => some id
  | .cancel id => some id
  | _ => none

def requireFor (modern : Snapshot ModernScope) (request : FileRequest) : Except String Unit :=
  match request with
  | .prepare _ conversation _ _ => require m (fileCapability conversation)
  | .list (some conversation) => require m (fileCapability conversation)
  | .publications _ => require m .channelMember
  | request =>
      match handleOf request with
      | none => .ok ()
      | some id =>
          require m (((modern.files.find? fun f => hex f.id.toList == id).map fun f =>
            fileCapability (modernConversation f.scope)).getD .channelMember)

def admits : FileRequest → Bool
  | .prepare _ _ _ _ => true
  | .accept _ => true
  | .resume _ => true
  | _ => false

def modernScope (conversation : String) : Except String (Option ModernScope) :=
  if Commands.isContact conversation then (m.filePeer conversation).map fun peer => some (.contact peer)
  else if Commands.isHosted conversation then
    (okOr (m.hostedRoom conversation) "Channel is not active").map fun room => some (.hosted room)
  else .ok none

/-- The operation of a request that acts on an identifier. -/
def operationOf {S : Type} (request : FileRequest) (id : ShareId) : Operation S :=
  match request with
  | .commit _ => .commit id
  | .accept _ => .accept id
  | .pause _ => .pause id
  | .resume _ => .resume id
  | _ => .cancel id

/-- The operation on the cache of contacts and hosted channels, if the request belongs there. -/
def modernOperation (modern : Snapshot ModernScope) (request : FileRequest) :
    Except String (Option (Operation ModernScope)) :=
  match request with
  | .prepare handle conversation name sizeBytes => do
      match ← modernScope m conversation with
      | none => .ok none
      | some scope => .ok (some (.prepare (← parseId handle) scope name (← number sizeBytes)))
  | request =>
      match handleOf request with
      | none => .ok none
      | some handle =>
          if hasFile modern handle then
            (parseId handle).map fun id => some (operationOf request id)
          else .ok none

def snapshotReply {S : Type} (reply : Reply S) : Except String (Snapshot S) :=
  match reply with
  | .snapshot value => .ok value
  | _ => .error "Invalid file service reply"

def Operation.idOf {S : Type} : Operation S → Option ShareId
  | .prepare id _ _ _ => some id
  | .commit id => some id
  | .accept id => some id
  | .pause id => some id
  | .resume id => some id
  | .cancel id => some id
  | .inspect id => some id
  | _ => none

def send (sent : Sent) : Effect Desk Unit := modify fun d => { d with sent := d.sent ++ [sent] }

/-- Save a state, and work with it if that succeeded. -/
def saveState (candidate : FilesState) : Effect Desk Unit := do
  Effect.lift m.save
  modify fun d => { d with state := candidate }

def performModern (operation : Operation ModernScope) : Effect Desk FileSnapshot := do
  let legacy ← Effect.lift (m.conflictList >>= snapshotReply)
  Effect.lift (refuse (legacy.files.any fun f => operation.idOf == some f.id)
    "File identity conflicts across profiles")
  send (.modern operation)
  let value ← Effect.lift (m.modernReply operation >>= snapshotReply)
  pure (restrictFiles m (appendModern (snapshot legacy m.archive none) value none))

def filterOf : FileRequest → Option String
  | .list conversation => conversation
  | .publications conversation => conversation
  | _ => none

/-- The operation on the cache of the channels. A new configuration is saved and sent to the other
cache before. -/
def legacyOperation (request : FileRequest) : Effect Desk (Operation Scope) :=
  match request with
  | .list _ => pure .list
  | .publications _ => pure .list
  | .prepare handle conversation name sizeBytes => do
      let id ← Effect.lift (parseId handle)
      let scope ← Effect.lift (scope m.archive conversation)
      let size ← Effect.lift (number sizeBytes)
      pure (.prepare id scope name size)
  | .configure quotaBytes retentionDays => do
      let quota ← Effect.lift (number quotaBytes)
      let config : CacheConfig := ⟨quota, UInt64.ofNat (retentionDays.toNat * 86400)⟩
      Effect.lift (m.validConfig config)
      saveState m { (← get).state with config := config }
      send (.modern (.configure config))
      let _ ← Effect.lift (m.modernReply (.configure config))
      pure (.configure config)
  | request => do
      let id ← Effect.lift (parseId ((handleOf request).getD ""))
      pure (operationOf request id)

/-! ### Commits -/

structure Candidate where
  state : FilesState
  changed : Bool

/-- Number the publication of an original that has none. A service that cannot inspect the file
does not publish it. -/
def publish (original canonical : ShareId) (file : FileInfo) (state : FilesState) :
    Except String Candidate :=
  if state.publications.contains (hex original.toList) then .ok ⟨state, false⟩
  else
    match m.inspect original with
    | .ok (.metadata metadata) => do
        refuse (metadata.id ≠ original || toString metadata.sizeBytes.toNat ≠ file.sizeBytes)
          "Committed file does not match its manifest"
        refuse (2 ^ 64 ≤ state.publicationSequence + 1) "File publication sequence exhausted"
        .ok ⟨{ state with
          publicationSequence := state.publicationSequence + 1
          publications := state.publications.insert (hex original.toList) {
            name := metadata.name
            canonicalId := hex canonical.toList
            sha256 := hex metadata.sha256.toList
            publisherSafetyNumber := m.safetyNumber
            sequence := toString (state.publicationSequence + 1)
            committedUnix := toString m.now } }, true⟩
    | _ => .ok ⟨state, false⟩

/-- Record the activity of a file that is shared for the first time. -/
def announce (file : FileInfo) (candidate : Candidate) : Candidate :=
  if file.id ∈ candidate.state.sharedFiles then candidate
  else
    ⟨({ candidate.state with
      sharedFiles := insert file.id candidate.state.sharedFiles }).recordActivity m.stamp
        file.conversation (sharedText file.name file.sizeBytes), true⟩

/-- Drop the publications whose file is no longer listed. -/
def retainPublications (files : List FileInfo) (state : FilesState) : FilesState :=
  { state with
    publications := state.publications.filter fun _ p =>
      files.any fun f => f.id == p.canonicalId }

/-- The state after a commit, where it has changed. -/
def commitCandidate (original canonical : ShareId) (value : FileSnapshot) (state : FilesState) :
    Except String Candidate :=
  match value.files.find? fun f => f.id == hex canonical.toList with
  | none => .ok ⟨state, false⟩
  | some file => do
      let candidate := announce m file (← publish m original canonical file state)
      .ok (if candidate.changed then
        ⟨retainPublications value.files candidate.state, true⟩ else candidate)

/-- The listing in which the committed file names its original. -/
def withAlias (original canonical : ShareId) (value : FileSnapshot) : FileSnapshot :=
  { value with
    files := modifyFirst (fun f => f.id == hex canonical.toList)
      (fun f => { f with aliases := some [hex original.toList] }) value.files }

def committed (original canonical : ShareId) (value : FileSnapshot) :
    Effect Desk FileSnapshot := do
  let candidate ← Effect.lift (commitCandidate m original canonical value (← get).state)
  if candidate.changed then saveState m candidate.state
  pure (withAlias original canonical value)

/-! ### Requests -/

/-- The published files of a listing, each under its original. -/
def publishedFiles (state : FilesState) (files : List FileInfo) : List FileInfo :=
  state.publications.toList.filterMap fun entry =>
    (files.find? fun f => f.id == entry.2.canonicalId).map fun file =>
      { file with id := entry.1, name := entry.2.name, publication := some entry.2 }

def isPublications : FileRequest → Bool
  | .publications _ => true
  | _ => false

def performLegacy (request : FileRequest) : Effect Desk FileSnapshot := do
  let operation ← legacyOperation m request
  send (.legacy operation)
  let result ← (match ← Effect.lift (m.reply operation) with
    | .snapshot value => pure (snapshot value m.archive (filterOf request))
    | .committed original canonical value =>
        committed m original canonical (snapshot value m.archive (filterOf request))
    | _ => Effect.lift (.error "Invalid file service reply"))
  if isPublications request then do
    let state := (← get).state
    pure (restrictFiles m { result with files := publishedFiles state result.files })
  else do
    let after ← Effect.lift m.modernListAfter
    pure (restrictFiles m (appendModern result after (filterOf request)))

def isPrepareOf (modern : Snapshot ModernScope) : FileRequest → Bool
  | .prepare handle _ _ _ => hasFile modern handle
  | _ => false

/-- Check a request and choose the cache it goes to. -/
def admitRequest (request : FileRequest) (quota : ℕ) :
    Except String (Snapshot ModernScope × Option (Operation ModernScope)) := do
  requireFiles m
  m.cache
  m.contacts
  let modern ← m.modernList
  requireFor m modern request
  if admits request then
    combinedAdmission request (← m.admissionList >>= snapshotReply) modern quota
  let operation ← modernOperation m modern request
  .ok (modern, operation)

def filesRequest (request : FileRequest) : Effect Desk FileSnapshot := do
  let (modern, operation) ← Effect.lift
    (admitRequest m request (← get).state.config.quotaBytes.toNat)
  match operation with
  | some operation => performModern m operation
  | none => do
      Effect.lift (refuse (isPrepareOf modern request) "File identity conflicts across profiles")
      performLegacy m request

end

end Files

end GChat
