import GChat.Dialect.Encoding

/-!
# The message language of version 2

The released types. They are frozen: a member has no presence, a conversation no policy, and a
message was only accepted here, or delivered.
-/

namespace GChat

namespace Dialect

namespace V2

open Foundation
open Foundation.Fields (required optional omitted defaulted)
open Api (CommandSpec)

/-! ### Conversations -/

structure Member where
  id : String
  nickname : String
  isSelf : Bool
  recentlyActive : Option Bool
  capabilities : List String

def memberShape : Shape Member :=
  .record (((required "id" .text).pair <| (required "nickname" .text).pair <|
      (required "isSelf" .bool).pair <| (optional "recentlyActive" .bool).pair <|
      defaulted "capabilities" [] (.list .text)).map
    (fun (id, nickname, isSelf, recentlyActive, capabilities) =>
      ⟨id, nickname, isSelf, recentlyActive, capabilities⟩)
    (fun member => (member.id, member.nickname, member.isSelf, member.recentlyActive,
      member.capabilities))
    fun _ => rfl) (by decide)

structure Conversation where
  provider : Option String
  id : String
  channelId : String
  kind : ConversationKind
  name : String
  topic : String
  active : Bool
  owner : Bool
  visibility : Option String
  directory : Option String
  members : List Member
  unread : UInt32
  lastMessageId : Option String
  inputLimitBytes : UInt64
  commands : List CommandSpec

def conversationShape : Shape Conversation :=
  .record (((optional "provider" .text).pair <| (required "id" .text).pair <|
      (required "channelId" .text).pair <| (required "kind" conversationKindShape).pair <|
      (required "name" .text).pair <| (required "topic" .text).pair <|
      (required "active" .bool).pair <| (required "owner" .bool).pair <|
      (optional "visibility" .text).pair <| (optional "directory" .text).pair <|
      (required "members" (.list memberShape)).pair <| (required "unread" .u32).pair <|
      (optional "lastMessageId" .text).pair <| (defaulted "inputLimitBytes" 12000 .u64).pair <|
      defaulted "commands" [] (.list commandSpecShape)).map
    (fun (provider, id, channelId, kind, name, topic, active, owner, visibility, directory,
        members, unread, lastMessageId, inputLimitBytes, commands) =>
      ⟨provider, id, channelId, kind, name, topic, active, owner, visibility, directory,
        members, unread, lastMessageId, inputLimitBytes, commands⟩)
    (fun row => (row.provider, row.id, row.channelId, row.kind, row.name, row.topic, row.active,
      row.owner, row.visibility, row.directory, row.members, row.unread, row.lastMessageId,
      row.inputLimitBytes, row.commands))
    fun _ => rfl) (by decide)

/-! ### Messages -/

inductive Delivery where
  | localAccepted
  | delivered

def Delivery.name : Delivery → String
  | .localAccepted => "local_accepted"
  | .delivered => "delivered"

def deliveryShape : Shape Delivery :=
  .named [.localAccepted, .delivered] Delivery.name fun delivery => by cases delivery <;> rfl

structure Message where
  id : String
  conversationId : String
  memberId : Option String
  nickname : String
  body : String
  timestamp : UInt64
  mine : Bool
  operationId : Option String
  delivery : Option Delivery
  result : Option ActionResult

def messageShape : Shape Message :=
  .record (((required "id" .text).pair <| (required "conversationId" .text).pair <|
      (optional "memberId" .text).pair <| (required "nickname" .text).pair <|
      (required "body" .text).pair <| (required "timestamp" .u64).pair <|
      (required "mine" .bool).pair <| (optional "operationId" .text).pair <|
      (optional "delivery" deliveryShape).pair <| optional "result" actionResultShape).map
    (fun (id, conversationId, memberId, nickname, body, timestamp, mine, operationId, delivery,
        result) =>
      ⟨id, conversationId, memberId, nickname, body, timestamp, mine, operationId, delivery,
        result⟩)
    (fun row => (row.id, row.conversationId, row.memberId, row.nickname, row.body,
      row.timestamp, row.mine, row.operationId, row.delivery, row.result))
    fun _ => rfl) (by decide)

/-! ### Responses -/

structure Snapshot where
  instanceInfo : InstanceInfo
  revision : String
  conversations : List Conversation
  commandHistory : List String
  inputHistory : List InputHistoryEntry
  providerErrors : List ProviderStatus
  operations : Option (List OperationDetail)
  activity : Option (List Activity)
  presenceEnabled : Option Bool

def snapshotShape : Shape Snapshot :=
  .record (((required "instance" instanceInfoShape).pair <| (required "revision" .text).pair <|
      (required "conversations" (.list conversationShape)).pair <|
      (required "commandHistory" (.list .text)).pair <|
      (required "inputHistory" (.list inputHistoryEntryShape)).pair <|
      (defaulted "providerErrors" [] (.list providerStatusShape)).pair <|
      (optional "operations" (.list operationDetailShape)).pair <|
      (optional "activity" (.list activityShape)).pair <| optional "presenceEnabled" .bool).map
    (fun (instanceInfo, revision, conversations, commandHistory, inputHistory, providerErrors,
        operations, activity, presenceEnabled) =>
      ⟨instanceInfo, revision, conversations, commandHistory, inputHistory, providerErrors,
        operations, activity, presenceEnabled⟩)
    (fun snapshot => (snapshot.instanceInfo, snapshot.revision, snapshot.conversations,
      snapshot.commandHistory, snapshot.inputHistory, snapshot.providerErrors,
      snapshot.operations, snapshot.activity, snapshot.presenceEnabled))
    fun _ => rfl) (by decide)

structure HistoryPage where
  messages : List Message
  before : Option String

def historyPageShape : Shape HistoryPage :=
  .record (((required "messages" (.list messageShape)).pair <| optional "before" .text).map
    (fun (messages, before) => ⟨messages, before⟩)
    (fun page => (page.messages, page.before)) fun _ => rfl) (by decide)

mutual

inductive Response where
  | update (result : PrepareUpdateResult)
  | networks (response : NetworkResponse)
  | files (snapshot : FileSnapshot)
  | networkStatus (status : NetworkStatus)
  | instanceInfo (info : InstanceInfo)
  | snapshot (snapshot : Snapshot)
  | history (page : HistoryPage)
  | completed (items : List Completion)
  | catalogue (commands : List CommandSpec)
  | projection (conversations : List Conversation) (revision : String)
  | output (conversation : Option String) (output : CommandOutput)
  | applied (conversation notice : Option String)
  | changed (revision : String)
  | error (code message : String)

inductive NetworkResponse where
  | list (networks : List JoinedNetwork)
  | preview (preview : InvitationPreview)
  | result (network : String) (response : Response)

end

def projectionFields : Fields (List Conversation × String) :=
  (required "conversations" (.list conversationShape)).pair <| required "revision" .text

mutual

def Response.encode : Response → Json
  | .update result => Json.tagged "kind" "update"
      ((required "result" prepareUpdateResultShape).write result)
  | .networks response => Json.tagged "kind" "networks" [("response", response.encode)]
  | .files snapshot => Json.tagged "kind" "files"
      ((required "snapshot" fileSnapshotShape).write snapshot)
  | .networkStatus status => Json.tagged "kind" "network_status"
      ((required "status" networkStatusShape).write status)
  | .instanceInfo info => Json.tagged "kind" "instance"
      ((required "instance" instanceInfoShape).write info)
  | .snapshot snapshot => Json.tagged "kind" "snapshot"
      ((required "snapshot" snapshotShape).write snapshot)
  | .history page => Json.tagged "kind" "history"
      ((required "page" historyPageShape).write page)
  | .completed items => Json.tagged "kind" "completed"
      ((required "items" (.list completionShape)).write items)
  | .catalogue commands => Json.tagged "kind" "catalogue"
      ((required "commands" (.list commandSpecShape)).write commands)
  | .projection conversations revision => Json.tagged "kind" "projection"
      (projectionFields.write (conversations, revision))
  | .output conversation output => Json.tagged "kind" "output"
      (outputFields.write (conversation, output))
  | .applied conversation notice => Json.tagged "kind" "applied"
      (appliedFields.write (conversation, notice))
  | .changed revision => Json.tagged "kind" "changed"
      ((required "revision" .text).write revision)
  | .error code message => Json.tagged "kind" "error" (errorFields.write (code, message))

def NetworkResponse.encode : NetworkResponse → Json
  | .list networks => Json.tagged "kind" "list"
      ((required "networks" (.list joinedNetworkShape)).write networks)
  | .preview preview => Json.tagged "kind" "preview"
      ((required "preview" invitationPreviewShape).write preview)
  | .result network response => Json.tagged "kind" "result"
      [("network", .string network), ("response", response.encode)]

end

/-- The responses that hold no other response. -/
def Response.decodeFlat (json : Json) : Option Response :=
  match json.tag "kind" with
  | some "update" => (required "result" prepareUpdateResultShape).readOpen json |>.map .update
  | some "files" => (required "snapshot" fileSnapshotShape).readOpen json |>.map .files
  | some "network_status" =>
      (required "status" networkStatusShape).readOpen json |>.map .networkStatus
  | some "instance" => (required "instance" instanceInfoShape).readOpen json |>.map .instanceInfo
  | some "snapshot" => (required "snapshot" snapshotShape).readOpen json |>.map .snapshot
  | some "history" => (required "page" historyPageShape).readOpen json |>.map .history
  | some "completed" => (required "items" (.list completionShape)).readOpen json |>.map .completed
  | some "catalogue" =>
      (required "commands" (.list commandSpecShape)).readOpen json |>.map .catalogue
  | some "projection" => projectionFields.readOpen json |>.map
      fun (conversations, revision) => .projection conversations revision
  | some "output" => outputFields.readOpen json |>.map
      fun (conversation, value) => .output conversation value
  | some "applied" => appliedFields.readOpen json |>.map
      fun (conversation, notice) => .applied conversation notice
  | some "changed" => (required "revision" .text).readOpen json |>.map .changed
  | some "error" => errorFields.readOpen json |>.map fun (code, message) => .error code message
  | _ => none

def NetworkResponse.decodeFlat (json : Json) : Option NetworkResponse :=
  match json.tag "kind" with
  | some "list" => (required "networks" (.list joinedNetworkShape)).readOpen json |>.map .list
  | some "preview" => (required "preview" invitationPreviewShape).readOpen json |>.map .preview
  | _ => none

mutual

def Response.decode (json : Json) : Option Response :=
  if json.tag "kind" = some "networks" then
    match _h : json.field "response" with
    | some inner => (NetworkResponse.decode inner).map .networks
    | none => none
  else Response.decodeFlat json
termination_by sizeOf json
decreasing_by exact Json.sizeOf_field ‹_›

def NetworkResponse.decode (json : Json) : Option NetworkResponse :=
  if json.tag "kind" = some "result" then
    match _h : json.field "response" with
    | some inner =>
        ((required "network" .text).readOpen json).bind fun network =>
          (Response.decode inner).map (.result network)
    | none => none
  else NetworkResponse.decodeFlat json
termination_by sizeOf json
decreasing_by exact Json.sizeOf_field ‹_›

end

theorem Response.decode_of_flat {json : Json} {tag : String} (htag : json.tag "kind" = some tag)
    (h : tag ≠ "networks") : Response.decode json = Response.decodeFlat json := by
  rw [Response.decode, htag, if_neg]
  exact fun hsome => h (Option.some.inj hsome)

theorem Response.decode_networks {inner : Json} {response : NetworkResponse}
    (h : NetworkResponse.decode inner = some response) :
    Response.decode (Json.tagged "kind" "networks" [("response", inner)]) =
      some (.networks response) := by
  rw [Response.decode, if_pos (Json.tag_tagged ..)]
  have hfield : (Json.tagged "kind" "networks" [("response", inner)]).field "response" =
      some inner := rfl
  split
  next found hfound =>
    rw [hfield] at hfound
    cases hfound
    rw [h, Option.map_some]
  next hnone =>
    rw [hfield] at hnone
    cases hnone

theorem NetworkResponse.decode_of_flat {json : Json} {tag : String}
    (htag : json.tag "kind" = some tag) (h : tag ≠ "result") :
    NetworkResponse.decode json = NetworkResponse.decodeFlat json := by
  rw [NetworkResponse.decode, htag, if_neg]
  exact fun hsome => h (Option.some.inj hsome)

theorem NetworkResponse.decode_result {network : String} {inner : Json} {response : Response}
    (h : Response.decode inner = some response) :
    NetworkResponse.decode (Json.tagged "kind" "result"
        [("network", .string network), ("response", inner)]) =
      some (.result network response) := by
  rw [NetworkResponse.decode, if_pos (Json.tag_tagged ..)]
  have hfield : (Json.tagged "kind" "result"
      [("network", .string network), ("response", inner)]).field "response" = some inner := rfl
  have hnetwork : (required "network" .text).readOpen (Json.tagged "kind" "result"
      [("network", .string network), ("response", inner)]) = some network := rfl
  split
  next found hfound =>
    rw [hfield] at hfound
    cases hfound
    rw [h, hnetwork]
    rfl
  next hnone =>
    rw [hfield] at hnone
    cases hnone

/-! ### What is written is read back -/

mutual

theorem Response.decode_encode (response : Response) :
    Response.decode response.encode = some response := by
  cases response with
  | networks response =>
      rw [Response.encode]
      exact Response.decode_networks (NetworkResponse.decode_encode response)
  | _ =>
      rw [Response.encode, Response.decode_of_flat (Json.tag_tagged ..) (by decide)]
      simp (disch := decide) only [Response.decodeFlat, Json.tag_tagged, Fields.readOpen_tagged,
        Option.map_some]

theorem NetworkResponse.decode_encode (response : NetworkResponse) :
    NetworkResponse.decode response.encode = some response := by
  cases response with
  | result network response =>
      rw [NetworkResponse.encode]
      exact NetworkResponse.decode_result (Response.decode_encode response)
  | _ =>
      rw [NetworkResponse.encode, NetworkResponse.decode_of_flat (Json.tag_tagged ..) (by decide)]
      simp (disch := decide) only [NetworkResponse.decodeFlat, Json.tag_tagged,
        Fields.readOpen_tagged, Option.map_some]

end

def responseShape : Shape Response where
  encode := Response.encode
  decode := Response.decode
  decode_encode := Response.decode_encode
  encode_ne_null response := by cases response <;> rw [Response.encode] <;> exact nofun

structure ResponseEnvelope where
  version : UInt16
  instanceId : String
  response : Response

def responseEnvelopeShape : Shape ResponseEnvelope :=
  .record (((required "version" .u16).pair <| (required "instance_id" .text).pair <|
      required "response" responseShape).map
    (fun (version, instanceId, response) => ⟨version, instanceId, response⟩)
    (fun envelope => (envelope.version, envelope.instanceId, envelope.response))
    fun _ => rfl) (by decide)

end V2

end Dialect

end GChat
