import GChat.Api.Message
import GChat.Api.Response

/-!
# The message language of version 3

The requests and the responses of the service, with all that they carry. A response can hold
the response of another network, and a request one for another network, to any depth.
-/

namespace GChat

namespace Dialect

open Api (CommandSpec DirectoryEntry MessageKind Delivery)

/-! ### The parts of responses -/

inductive NetworkState where
  | locked
  | localOnly
  | invitationRequired
  | connecting
  | connected
  | reconnecting
  | invitationExpired
  | unavailable
deriving DecidableEq

structure NetworkStatus where
  state : NetworkState
  message : String
deriving DecidableEq

structure BuildInfo where
  releaseId : String
  gchatCommit : String
  gcomsCommit : String
  version : String
deriving DecidableEq

structure InstanceInfo where
  build : Option BuildInfo
  id : String
  label : String
  bootId : String
  locked : Bool
  protocolLocked : Bool
  profileExists : Bool
  archiveExists : Bool
  safetyNumber : String
  capabilities : List String
deriving DecidableEq

inductive MemberPresence where
  | available
  | away (reason : String)
  | unknown
deriving DecidableEq

structure ChannelPolicy where
  profile : String
  capacity : UInt32
  moderated : Bool
  inviteOnly : Bool
  topicOperators : Bool
  presenceEnabled : Bool
deriving DecidableEq

structure ChannelCatchUp where
  appliedRecords : UInt64
deriving DecidableEq

structure Member where
  presence : Option MemberPresence
  id : String
  nickname : String
  isSelf : Bool
  recentlyActive : Option Bool
  capabilities : List String
deriving DecidableEq

inductive ConversationKind where
  | channel
  | query
  | archive
deriving DecidableEq

structure Conversation where
  catchUp : Option ChannelCatchUp
  muted : Option Bool
  policy : Option ChannelPolicy
  provider : Option String
  id : String
  channelId : String
  kind : ConversationKind
  name : String
  topic : String
  active : Bool
  owner : Bool
  visibility : Option String
  directory : Option String
  members : List Member
  unread : UInt32
  lastMessageId : Option String
  inputLimitBytes : UInt64
  commands : List CommandSpec
deriving DecidableEq

structure Artifact where
  name : String
  url : String
deriving DecidableEq

structure ActionResult where
  id : String
  messageId : Option String
  state : String
  outputBase64 : Option String
  stderr : Bool
  details : List String
  artifacts : List Artifact
deriving DecidableEq

structure Message where
  highlighted : Option Bool
  messageKind : Option MessageKind
  id : String
  conversationId : String
  memberId : Option String
  nickname : String
  body : String
  timestamp : UInt64
  mine : Bool
  operationId : Option String
  delivery : Option Delivery
  result : Option ActionResult
deriving DecidableEq

structure RecoveryMember where
  id : String
  nickname : String
  isSelf : Bool
  missingCommit : Bool
  pendingMessages : UInt32
deriving DecidableEq

structure InvitationRecord where
  id : String
  expires : Option UInt64
  limit : Option UInt64
  admitted : UInt64
  pending : UInt32
  revoked : Bool
deriving DecidableEq

inductive CommandOutput where
  | invitationOptions (channel : String)
  | invitations (channel : String) (records : List InvitationRecord)
  | reusableInvitation (channel link id : String) (expires limit : Option UInt64)
      (localOnly : Bool)
  | enrollment (id channel phase : String) (attempts : UInt32) (message : Option String)
  | enrollments (entries : List CommandOutput)
  | help (commands : List CommandSpec)
  | directory (channels : List DirectoryEntry)
  | invitation (channel link : String) (expires : UInt64) (localOnly : Bool)
  | text (title text : String)
  | status (text : String)
  | close (conversation : String)
  | membershipRecovery (channel expected epoch : String) (pending : Bool)
      (retainedMessages : UInt32) (members : List RecoveryMember)

structure InputHistoryEntry where
  conversation : Option String
  text : String
deriving DecidableEq

structure ProviderStatus where
  id : String
  code : String
  message : String
  retryable : Bool
deriving DecidableEq

structure Activity where
  id : String
  conversation : String
  kind : String
  text : String
  timestamp : UInt64
deriving DecidableEq

structure OperationDetail where
  network : Option String
  id : String
  instanceId : String
  conversation : Option String
  action : String
  started : UInt64
  state : String
  output : Option CommandOutput
  message : Option String

structure Snapshot where
  instanceInfo : InstanceInfo
  revision : String
  conversations : List Conversation
  commandHistory : List String
  inputHistory : List InputHistoryEntry
  providerErrors : List ProviderStatus
  operations : Option (List OperationDetail)
  activity : Option (List Activity)
  presenceEnabled : Option Bool

structure HistoryPage where
  messages : List Message
  before : Option String
deriving DecidableEq

structure Completion where
  text : String
  description : String
deriving DecidableEq

structure JoinedNetwork where
  id : String
  name : String
  fingerprint : String
  primary : Bool
  status : NetworkStatus
deriving DecidableEq

structure InvitationPreview where
  network : JoinedNetwork
  channel : Option String
  newNetwork : Bool
  expires : Option UInt64
deriving DecidableEq

structure FilePublication where
  name : String
  canonicalId : String
  sha256 : String
  publisherSafetyNumber : String
  sequence : String
  committedUnix : String
deriving DecidableEq

inductive FileState where
  | offered
  | importing
  | downloading
  | waitingForPeers
  | paused
  | complete
  | failed
  | cancelled
deriving DecidableEq

structure FileInfo where
  id : String
  aliases : Option (List String)
  publication : Option FilePublication
  conversation : String
  name : String
  sizeBytes : String
  verifiedBytes : String
  state : FileState
  sources : UInt16
  verifiedSources : UInt16
  completedBy : UInt16
  error : Option String
deriving DecidableEq

structure FileSnapshot where
  files : List FileInfo
  quotaBytes : String
  usedBytes : String
  retentionDays : UInt16
deriving DecidableEq

inductive PrepareUpdateResult where
  | attached
  | ready (processId : UInt32) (bootId : String)
  | busy (reason : String)
deriving DecidableEq

/-! ### Responses and requests -/

mutual

inductive Response where
  | update (result : PrepareUpdateResult)
  | networks (response : NetworkResponse)
  | files (snapshot : FileSnapshot)
  | networkStatus (status : NetworkStatus)
  | instanceInfo (info : InstanceInfo)
  | snapshot (snapshot : Snapshot)
  | history (page : HistoryPage)
  | completed (items : List Completion)
  | catalogue (commands : List CommandSpec)
  | projection (conversations : List Conversation) (revision : String)
  | output (conversation : Option String) (output : CommandOutput)
  | applied (conversation notice : Option String)
  | changed (revision : String)
  | error (code message : String)

inductive NetworkResponse where
  | list (networks : List JoinedNetwork)
  | preview (preview : InvitationPreview)
  | result (network : String) (response : Response)

end

inductive FileRequest where
  | list (conversation : Option String)
  | publications (conversation : Option String)
  | prepare (id conversation name sizeBytes : String)
  | commit (id : String)
  | accept (id : String)
  | pause (id : String)
  | resume (id : String)
  | cancel (id : String)
  | configure (quotaBytes : String) (retentionDays : UInt16)
deriving DecidableEq

inductive UpdateRequest where
  | heartbeat (view : String)
  | detach (view : String)
  | prepare (view release : String)
  | abort (view release : String)
  | exit (view release : String)
deriving DecidableEq

mutual

inductive Request where
  | enrollment (id action : String)
  | update (request : UpdateRequest)
  | networks (request : NetworkRequest)
  | files (request : FileRequest)
  | identify
  | unlock (passphrase : String) (create : Bool)
  | lock
  | disconnect
  | snapshot
  | networkStatus
  | importNetworkInvitation (code : String)
  | catalogue (conversation : Option String)
  | history (conversation : String) (before : Option String) (limit : UInt16)
  | search (conversation text : String) (before : Option String) (limit : UInt16)
  | submit (operationId : String) (conversation : Option String) (text : String)
  | complete (conversation : Option String) (text : String)
  | markRead (conversation messageId : String)
  | events (after : String) (waitMs : UInt16)

inductive NetworkRequest where
  | list
  | inspect (code : String)
  | join (code nickname acceptedNetwork operationId : String)
  | call (network : String) (request : Request)

end

end Dialect

end GChat
