import GChat.Dialect.Encoding

/-!
# Responses of version 3

The records that version 3 has extended, and how its responses are written.
-/

namespace GChat

namespace Dialect

open Foundation
open Foundation.Fields (required optional omitted defaulted)
open Api (CommandSpec Delivery MessageKind)

/-! ### Conversations -/

def memberPresenceShape : Shape MemberPresence where
  encode
    | .available => Json.tagged "state" "available" []
    | .away reason => Json.tagged "state" "away" ((required "reason" .text).write reason)
    | .unknown => Json.tagged "state" "unknown" []
  decode json :=
    match json.tag "state" with
    | some "available" => some .available
    | some "away" => (required "reason" .text).readOpen json |>.map .away
    | some "unknown" => some .unknown
    | _ => none
  decode_encode presence := by
    cases presence <;>
      simp (disch := decide) only [Json.tag_tagged, Fields.readOpen_tagged, Option.map_some]
  encode_ne_null presence := by cases presence <;> exact nofun

def channelPolicyShape : Shape ChannelPolicy :=
  .record (((required "profile" .text).pair <| (required "capacity" .u32).pair <|
      (required "moderated" .bool).pair <| (required "inviteOnly" .bool).pair <|
      (required "topicOperators" .bool).pair <| required "presenceEnabled" .bool).map
    (fun (profile, capacity, moderated, inviteOnly, topicOperators, presenceEnabled) =>
      ⟨profile, capacity, moderated, inviteOnly, topicOperators, presenceEnabled⟩)
    (fun policy => (policy.profile, policy.capacity, policy.moderated, policy.inviteOnly,
      policy.topicOperators, policy.presenceEnabled))
    fun _ => rfl) (by decide)

def channelCatchUpShape : Shape ChannelCatchUp :=
  .record ((required "appliedRecords" .u64).map ChannelCatchUp.mk ChannelCatchUp.appliedRecords
    fun _ => rfl) (by decide)

def memberShape : Shape Member :=
  .record (((omitted "presence" memberPresenceShape).pair <| (required "id" .text).pair <|
      (required "nickname" .text).pair <| (required "isSelf" .bool).pair <|
      (optional "recentlyActive" .bool).pair <| defaulted "capabilities" [] (.list .text)).map
    (fun (presence, id, nickname, isSelf, recentlyActive, capabilities) =>
      ⟨presence, id, nickname, isSelf, recentlyActive, capabilities⟩)
    (fun member => (member.presence, member.id, member.nickname, member.isSelf,
      member.recentlyActive, member.capabilities))
    fun _ => rfl) (by decide)

def conversationShape : Shape Conversation :=
  .record (((omitted "catchUp" channelCatchUpShape).pair <| (omitted "muted" .bool).pair <|
      (omitted "policy" channelPolicyShape).pair <| (optional "provider" .text).pair <|
      (required "id" .text).pair <| (required "channelId" .text).pair <|
      (required "kind" conversationKindShape).pair <| (required "name" .text).pair <|
      (required "topic" .text).pair <| (required "active" .bool).pair <|
      (required "owner" .bool).pair <| (optional "visibility" .text).pair <|
      (optional "directory" .text).pair <| (required "members" (.list memberShape)).pair <|
      (required "unread" .u32).pair <| (optional "lastMessageId" .text).pair <|
      (defaulted "inputLimitBytes" 12000 .u64).pair <|
      defaulted "commands" [] (.list commandSpecShape)).map
    (fun (catchUp, muted, policy, provider, id, channelId, kind, name, topic, active, owner,
        visibility, directory, members, unread, lastMessageId, inputLimitBytes, commands) =>
      ⟨catchUp, muted, policy, provider, id, channelId, kind, name, topic, active, owner,
        visibility, directory, members, unread, lastMessageId, inputLimitBytes, commands⟩)
    (fun row => (row.catchUp, row.muted, row.policy, row.provider, row.id, row.channelId, row.kind,
      row.name, row.topic, row.active, row.owner, row.visibility, row.directory, row.members,
      row.unread, row.lastMessageId, row.inputLimitBytes, row.commands))
    fun _ => rfl) (by decide)

/-! ### Messages -/

def deliveryName : Delivery → String
  | .localAccepted => "local_accepted"
  | .delivered => "delivered"
  | .serviceAccepted => "service_accepted"
  | .failed => "failed"

def deliveryShape : Shape Delivery :=
  .named [.localAccepted, .delivered, .serviceAccepted, .failed] deliveryName
    fun delivery => by cases delivery <;> rfl

def messageKindName : MessageKind → String
  | .text => "text"
  | .action => "action"
  | .notice => "notice"

def messageKindShape : Shape MessageKind :=
  .named [.text, .action, .notice] messageKindName fun kind => by cases kind <;> rfl

def messageShape : Shape Message :=
  .record (((omitted "highlighted" .bool).pair <| (omitted "messageKind" messageKindShape).pair <|
      (required "id" .text).pair <| (required "conversationId" .text).pair <|
      (optional "memberId" .text).pair <| (required "nickname" .text).pair <|
      (required "body" .text).pair <| (required "timestamp" .u64).pair <|
      (required "mine" .bool).pair <| (optional "operationId" .text).pair <|
      (optional "delivery" deliveryShape).pair <| optional "result" actionResultShape).map
    (fun (highlighted, messageKind, id, conversationId, memberId, nickname, body, timestamp, mine,
        operationId, delivery, result) =>
      ⟨highlighted, messageKind, id, conversationId, memberId, nickname, body, timestamp, mine,
        operationId, delivery, result⟩)
    (fun row => (row.highlighted, row.messageKind, row.id, row.conversationId, row.memberId,
      row.nickname, row.body, row.timestamp, row.mine, row.operationId, row.delivery, row.result))
    fun _ => rfl) (by decide)

/-! ### Responses -/

def snapshotShape : Shape Snapshot :=
  .record (((required "instance" instanceInfoShape).pair <| (required "revision" .text).pair <|
      (required "conversations" (.list conversationShape)).pair <|
      (required "commandHistory" (.list .text)).pair <|
      (required "inputHistory" (.list inputHistoryEntryShape)).pair <|
      (defaulted "providerErrors" [] (.list providerStatusShape)).pair <|
      (optional "operations" (.list operationDetailShape)).pair <|
      (optional "activity" (.list activityShape)).pair <| optional "presenceEnabled" .bool).map
    (fun (instanceInfo, revision, conversations, commandHistory, inputHistory, providerErrors,
        operations, activity, presenceEnabled) =>
      ⟨instanceInfo, revision, conversations, commandHistory, inputHistory, providerErrors,
        operations, activity, presenceEnabled⟩)
    (fun snapshot => (snapshot.instanceInfo, snapshot.revision, snapshot.conversations,
      snapshot.commandHistory, snapshot.inputHistory, snapshot.providerErrors,
      snapshot.operations, snapshot.activity, snapshot.presenceEnabled))
    fun _ => rfl) (by decide)

def historyPageShape : Shape HistoryPage :=
  .record (((required "messages" (.list messageShape)).pair <| optional "before" .text).map
    (fun (messages, before) => ⟨messages, before⟩)
    (fun page => (page.messages, page.before)) fun _ => rfl) (by decide)

def projectionFields : Fields (List Conversation × String) :=
  (required "conversations" (.list conversationShape)).pair <| required "revision" .text

mutual

def Response.encode : Response → Json
  | .update result => Json.tagged "kind" "update"
      ((required "result" prepareUpdateResultShape).write result)
  | .networks response => Json.tagged "kind" "networks" [("response", response.encode)]
  | .files snapshot => Json.tagged "kind" "files"
      ((required "snapshot" fileSnapshotShape).write snapshot)
  | .networkStatus status => Json.tagged "kind" "network_status"
      ((required "status" networkStatusShape).write status)
  | .instanceInfo info => Json.tagged "kind" "instance"
      ((required "instance" instanceInfoShape).write info)
  | .snapshot snapshot => Json.tagged "kind" "snapshot"
      ((required "snapshot" snapshotShape).write snapshot)
  | .history page => Json.tagged "kind" "history"
      ((required "page" historyPageShape).write page)
  | .completed items => Json.tagged "kind" "completed"
      ((required "items" (.list completionShape)).write items)
  | .catalogue commands => Json.tagged "kind" "catalogue"
      ((required "commands" (.list commandSpecShape)).write commands)
  | .projection conversations revision => Json.tagged "kind" "projection"
      (projectionFields.write (conversations, revision))
  | .output conversation output => Json.tagged "kind" "output"
      (outputFields.write (conversation, output))
  | .applied conversation notice => Json.tagged "kind" "applied"
      (appliedFields.write (conversation, notice))
  | .changed revision => Json.tagged "kind" "changed"
      ((required "revision" .text).write revision)
  | .error code message => Json.tagged "kind" "error" (errorFields.write (code, message))

def NetworkResponse.encode : NetworkResponse → Json
  | .list networks => Json.tagged "kind" "list"
      ((required "networks" (.list joinedNetworkShape)).write networks)
  | .preview preview => Json.tagged "kind" "preview"
      ((required "preview" invitationPreviewShape).write preview)
  | .result network response => Json.tagged "kind" "result"
      [("network", .string network), ("response", response.encode)]

end

structure ResponseEnvelope where
  version : UInt16
  instanceId : String
  response : Response

def ResponseEnvelope.encode (envelope : ResponseEnvelope) : Json :=
  .object [("version", .number envelope.version.toNat),
    ("instance_id", .string envelope.instanceId), ("response", envelope.response.encode)]

end Dialect

end GChat
