import GChat.Dialect.Types
import GChat.Foundation.Json

/-!
# How the parts of the message language are written

The records and the variants that version 2 has in common with version 3. Both versions write
them alike.
-/

namespace GChat

namespace Dialect

open Foundation
open Foundation.Fields (required optional omitted defaulted)
open Api (CommandSpec DirectoryEntry)

/-! ### Instances -/

def NetworkState.name : NetworkState → String
  | .locked => "locked"
  | .localOnly => "local_only"
  | .invitationRequired => "invitation_required"
  | .connecting => "connecting"
  | .connected => "connected"
  | .reconnecting => "reconnecting"
  | .invitationExpired => "invitation_expired"
  | .unavailable => "unavailable"

def networkStateShape : Shape NetworkState :=
  .named [.locked, .localOnly, .invitationRequired, .connecting, .connected, .reconnecting,
    .invitationExpired, .unavailable] NetworkState.name fun state => by cases state <;> rfl

def networkStatusShape : Shape NetworkStatus :=
  .record (((required "state" networkStateShape).pair <| required "message" .text).map
    (fun (state, message) => ⟨state, message⟩)
    (fun status => (status.state, status.message)) fun _ => rfl) (by decide)

def buildInfoShape : Shape BuildInfo :=
  .record (((required "releaseId" .text).pair <| (required "gchatCommit" .text).pair <|
      (required "gcomsCommit" .text).pair <| required "version" .text).map
    (fun (releaseId, gchatCommit, gcomsCommit, version) =>
      ⟨releaseId, gchatCommit, gcomsCommit, version⟩)
    (fun info => (info.releaseId, info.gchatCommit, info.gcomsCommit, info.version))
    fun _ => rfl) (by decide)

def instanceInfoShape : Shape InstanceInfo :=
  .record (((omitted "build" buildInfoShape).pair <| (required "id" .text).pair <|
      (required "label" .text).pair <| (required "bootId" .text).pair <|
      (required "locked" .bool).pair <| (required "protocolLocked" .bool).pair <|
      (required "profileExists" .bool).pair <| (required "archiveExists" .bool).pair <|
      (required "safetyNumber" .text).pair <| required "capabilities" (.list .text)).map
    (fun (build, id, label, bootId, locked, protocolLocked, profileExists, archiveExists,
        safetyNumber, capabilities) =>
      ⟨build, id, label, bootId, locked, protocolLocked, profileExists, archiveExists,
        safetyNumber, capabilities⟩)
    (fun info => (info.build, info.id, info.label, info.bootId, info.locked, info.protocolLocked,
      info.profileExists, info.archiveExists, info.safetyNumber, info.capabilities))
    fun _ => rfl) (by decide)

def prepareUpdateResultShape : Shape PrepareUpdateResult where
  encode
    | .attached => Json.tagged "state" "attached" []
    | .ready processId bootId => Json.tagged "state" "ready"
        (((required "process_id" .u32).pair <| required "boot_id" .text).write
          (processId, bootId))
    | .busy reason => Json.tagged "state" "busy" ((required "reason" .text).write reason)
  decode json :=
    match json.tag "state" with
    | some "attached" => some .attached
    | some "ready" => do
        let (processId, bootId) ←
          ((required "process_id" .u32).pair <| required "boot_id" .text).readOpen json
        some (.ready processId bootId)
    | some "busy" => (required "reason" .text).readOpen json |>.map .busy
    | _ => none
  decode_encode result := by
    cases result <;>
      simp (disch := decide) only [Json.tag_tagged, Fields.readOpen_tagged, Option.map_some,
        Option.bind_eq_bind, Option.bind_some]
  encode_ne_null result := by cases result <;> exact nofun

def joinedNetworkShape : Shape JoinedNetwork :=
  .record (((required "id" .text).pair <| (required "name" .text).pair <|
      (required "fingerprint" .text).pair <| (required "primary" .bool).pair <|
      required "status" networkStatusShape).map
    (fun (id, name, fingerprint, primary, status) => ⟨id, name, fingerprint, primary, status⟩)
    (fun network =>
      (network.id, network.name, network.fingerprint, network.primary, network.status))
    fun _ => rfl) (by decide)

def invitationPreviewShape : Shape InvitationPreview :=
  .record (((required "network" joinedNetworkShape).pair <| (optional "channel" .text).pair <|
      (required "newNetwork" .bool).pair <| optional "expires" .u64).map
    (fun (network, channel, newNetwork, expires) => ⟨network, channel, newNetwork, expires⟩)
    (fun preview => (preview.network, preview.channel, preview.newNetwork, preview.expires))
    fun _ => rfl) (by decide)

/-! ### Conversations -/

def ConversationKind.name : ConversationKind → String
  | .channel => "channel"
  | .query => "query"
  | .archive => "archive"

def conversationKindShape : Shape ConversationKind :=
  .named [.channel, .query, .archive] ConversationKind.name fun kind => by cases kind <;> rfl

def commandSpecShape : Shape CommandSpec :=
  .record (((required "name" .text).pair <| (required "usage" .text).pair <|
      (required "description" .text).pair <| (required "scope" .text).pair <|
      (optional "capability" .text).pair <| required "available" .bool).map
    (fun (name, usage, description, scope, capability, available) =>
      ⟨name, usage, description, scope, capability, available⟩)
    (fun spec => (spec.name, spec.usage, spec.description, spec.scope, spec.capability,
      spec.available))
    fun _ => rfl) (by decide)

def artifactShape : Shape Artifact :=
  .record (((required "name" .text).pair <| required "url" .text).map
    (fun (name, url) => ⟨name, url⟩) (fun artifact => (artifact.name, artifact.url))
    fun _ => rfl) (by decide)

def actionResultShape : Shape ActionResult :=
  .record (((required "id" .text).pair <| (optional "messageId" .text).pair <|
      (required "state" .text).pair <| (optional "outputBase64" .text).pair <|
      (required "stderr" .bool).pair <| (required "details" (.list .text)).pair <|
      required "artifacts" (.list artifactShape)).map
    (fun (id, messageId, state, outputBase64, stderr, details, artifacts) =>
      ⟨id, messageId, state, outputBase64, stderr, details, artifacts⟩)
    (fun result => (result.id, result.messageId, result.state, result.outputBase64,
      result.stderr, result.details, result.artifacts))
    fun _ => rfl) (by decide)

/-! ### Outputs of commands -/

def directoryEntryShape : Shape DirectoryEntry :=
  .record (((required "name" .text).pair <| (required "joined" .bool).pair <|
      optional "conversation" .text).map
    (fun (name, joined, conversation) => ⟨name, joined, conversation⟩)
    (fun entry => (entry.name, entry.joined, entry.conversation)) fun _ => rfl) (by decide)

def recoveryMemberShape : Shape RecoveryMember :=
  .record (((required "id" .text).pair <| (required "nickname" .text).pair <|
      (required "isSelf" .bool).pair <| (required "missingCommit" .bool).pair <|
      required "pendingMessages" .u32).map
    (fun (id, nickname, isSelf, missingCommit, pendingMessages) =>
      ⟨id, nickname, isSelf, missingCommit, pendingMessages⟩)
    (fun member => (member.id, member.nickname, member.isSelf, member.missingCommit,
      member.pendingMessages))
    fun _ => rfl) (by decide)

def invitationRecordShape : Shape InvitationRecord :=
  .record (((required "id" .text).pair <| (optional "expires" .u64).pair <|
      (optional "limit" .u64).pair <| (required "admitted" .u64).pair <|
      (required "pending" .u32).pair <| required "revoked" .bool).map
    (fun (id, expires, limit, admitted, pending, revoked) =>
      ⟨id, expires, limit, admitted, pending, revoked⟩)
    (fun invitation => (invitation.id, invitation.expires, invitation.limit, invitation.admitted,
      invitation.pending, invitation.revoked))
    fun _ => rfl) (by decide)

namespace CommandOutput

def invitationsFields : Fields (String × List InvitationRecord) :=
  (required "channel" .text).pair <| required "records" (.list invitationRecordShape)

def reusableInvitationFields :
    Fields (String × String × String × Option UInt64 × Option UInt64 × Bool) :=
  (required "channel" .text).pair <| (required "link" .text).pair <| (required "id" .text).pair <|
    (optional "expires" .u64).pair <| (optional "limit" .u64).pair <| required "localOnly" .bool

def enrollmentFields : Fields (String × String × String × UInt32 × Option String) :=
  (required "id" .text).pair <| (required "channel" .text).pair <| (required "phase" .text).pair <|
    (required "attempts" .u32).pair <| optional "message" .text

def invitationFields : Fields (String × String × UInt64 × Bool) :=
  (required "channel" .text).pair <| (required "link" .text).pair <|
    (required "expires" .u64).pair <| defaulted "localOnly" false .bool

def textFields : Fields (String × String) :=
  (required "title" .text).pair <| required "text" .text

def membershipRecoveryFields :
    Fields (String × String × String × Bool × UInt32 × List RecoveryMember) :=
  (required "channel" .text).pair <| (required "expected" .text).pair <|
    (required "epoch" .text).pair <| (required "pending" .bool).pair <|
    (required "retained_messages" .u32).pair <| required "members" (.list recoveryMemberShape)

mutual

def encode : CommandOutput → Json
  | .invitationOptions channel => Json.tagged "kind" "invitation_options"
      ((required "channel" .text).write channel)
  | .invitations channel records => Json.tagged "kind" "invitations"
      (invitationsFields.write (channel, records))
  | .reusableInvitation channel link id expires limit localOnly =>
      Json.tagged "kind" "reusable_invitation"
        (reusableInvitationFields.write (channel, link, id, expires, limit, localOnly))
  | .enrollment id channel phase attempts message => Json.tagged "kind" "enrollment"
      (enrollmentFields.write (id, channel, phase, attempts, message))
  | .enrollments entries => Json.tagged "kind" "enrollments"
      [("entries", .array (encodeAll entries))]
  | .help commands => Json.tagged "kind" "help"
      ((required "commands" (.list commandSpecShape)).write commands)
  | .directory channels => Json.tagged "kind" "directory"
      ((required "channels" (.list directoryEntryShape)).write channels)
  | .invitation channel link expires localOnly => Json.tagged "kind" "invitation"
      (invitationFields.write (channel, link, expires, localOnly))
  | .text title body => Json.tagged "kind" "text" (textFields.write (title, body))
  | .status body => Json.tagged "kind" "status" ((required "text" .text).write body)
  | .close conversation => Json.tagged "kind" "close"
      ((required "conversation" .text).write conversation)
  | .membershipRecovery channel expected epoch pending retainedMessages members =>
      Json.tagged "kind" "membership_recovery"
        (membershipRecoveryFields.write
          (channel, expected, epoch, pending, retainedMessages, members))

def encodeAll : List CommandOutput → List Json
  | [] => []
  | entry :: entries => encode entry :: encodeAll entries

end

/-- The outputs that hold no other output. -/
def decodeFlat (json : Json) : Option CommandOutput :=
  match json.tag "kind" with
  | some "invitation_options" =>
      (required "channel" .text).readOpen json |>.map .invitationOptions
  | some "invitations" => invitationsFields.readOpen json |>.map
      fun (channel, records) => .invitations channel records
  | some "reusable_invitation" => reusableInvitationFields.readOpen json |>.map
      fun (channel, link, id, expires, limit, localOnly) =>
        .reusableInvitation channel link id expires limit localOnly
  | some "enrollment" => enrollmentFields.readOpen json |>.map
      fun (id, channel, phase, attempts, message) => .enrollment id channel phase attempts message
  | some "help" => (required "commands" (.list commandSpecShape)).readOpen json |>.map .help
  | some "directory" =>
      (required "channels" (.list directoryEntryShape)).readOpen json |>.map .directory
  | some "invitation" => invitationFields.readOpen json |>.map
      fun (channel, link, expires, localOnly) => .invitation channel link expires localOnly
  | some "text" => textFields.readOpen json |>.map fun (title, body) => .text title body
  | some "status" => (required "text" .text).readOpen json |>.map .status
  | some "close" => (required "conversation" .text).readOpen json |>.map .close
  | some "membership_recovery" => membershipRecoveryFields.readOpen json |>.map
      fun (channel, expected, epoch, pending, retainedMessages, members) =>
        .membershipRecovery channel expected epoch pending retainedMessages members
  | _ => none

mutual

def decode (json : Json) : Option CommandOutput :=
  if json.tag "kind" = some "enrollments" then
    match _h : json.field "entries" with
    | some (.array entries) => (decodeAll entries).map .enrollments
    | _ => none
  else decodeFlat json
termination_by sizeOf json
decreasing_by
  have hlt := Json.sizeOf_field ‹_›
  rw [Json.array.sizeOf_spec] at hlt
  omega

def decodeAll : List Json → Option (List CommandOutput)
  | [] => some []
  | entry :: entries =>
      (decode entry).bind fun entry => (decodeAll entries).map (entry :: ·)
termination_by entries => sizeOf entries

end

theorem decode_of_flat {json : Json} {tag : String} (htag : json.tag "kind" = some tag)
    (h : tag ≠ "enrollments") : decode json = decodeFlat json := by
  rw [decode, htag, if_neg]
  exact fun hsome => h (Option.some.inj hsome)

theorem decode_enrollments {entries : List Json} {outputs : List CommandOutput}
    (h : decodeAll entries = some outputs) :
    decode (Json.tagged "kind" "enrollments" [("entries", .array entries)]) =
      some (.enrollments outputs) := by
  rw [decode, if_pos (Json.tag_tagged ..)]
  have hfield : (Json.tagged "kind" "enrollments" [("entries", .array entries)]).field
      "entries" = some (.array entries) := rfl
  split
  next found hfound =>
    rw [hfield] at hfound
    cases hfound
    rw [h, Option.map_some]
  next hother => exact absurd hfield (hother _)

mutual

theorem decode_encode (output : CommandOutput) : decode (encode output) = some output := by
  cases output with
  | enrollments entries =>
      rw [encode]
      exact decode_enrollments (decodeAll_encodeAll entries)
  | _ =>
      rw [encode, decode_of_flat (Json.tag_tagged ..) (by decide)]
      simp (disch := decide) only [decodeFlat, Json.tag_tagged, Fields.readOpen_tagged,
        Option.map_some]

theorem decodeAll_encodeAll (outputs : List CommandOutput) :
    decodeAll (encodeAll outputs) = some outputs := by
  cases outputs with
  | nil => rw [encodeAll, decodeAll]
  | cons output outputs =>
      rw [encodeAll, decodeAll, decode_encode output, decodeAll_encodeAll outputs]
      rfl

end

end CommandOutput

def commandOutputShape : Shape CommandOutput where
  encode := CommandOutput.encode
  decode := CommandOutput.decode
  decode_encode := CommandOutput.decode_encode
  encode_ne_null output := by
    cases output <;> rw [CommandOutput.encode] <;> exact nofun

/-! ### Snapshots -/

def inputHistoryEntryShape : Shape InputHistoryEntry :=
  .record (((optional "conversation" .text).pair <| required "text" .text).map
    (fun (conversation, text) => ⟨conversation, text⟩)
    (fun entry => (entry.conversation, entry.text)) fun _ => rfl) (by decide)

def providerStatusShape : Shape ProviderStatus :=
  .record (((required "id" .text).pair <| (required "code" .text).pair <|
      (required "message" .text).pair <| required "retryable" .bool).map
    (fun (id, code, message, retryable) => ⟨id, code, message, retryable⟩)
    (fun status => (status.id, status.code, status.message, status.retryable))
    fun _ => rfl) (by decide)

def activityShape : Shape Activity :=
  .record (((required "id" .text).pair <| (required "conversation" .text).pair <|
      (required "kind" .text).pair <| (required "text" .text).pair <|
      required "timestamp" .u64).map
    (fun (id, conversation, kind, text, timestamp) => ⟨id, conversation, kind, text, timestamp⟩)
    (fun activity => (activity.id, activity.conversation, activity.kind, activity.text,
      activity.timestamp))
    fun _ => rfl) (by decide)

def operationDetailShape : Shape OperationDetail :=
  .record (((optional "network" .text).pair <| (required "id" .text).pair <|
      (required "instance" .text).pair <| (optional "conversation" .text).pair <|
      (required "action" .text).pair <| (required "started" .u64).pair <|
      (required "state" .text).pair <| (optional "output" commandOutputShape).pair <|
      optional "message" .text).map
    (fun (network, id, instanceId, conversation, action, started, state, output, message) =>
      ⟨network, id, instanceId, conversation, action, started, state, output, message⟩)
    (fun detail => (detail.network, detail.id, detail.instanceId, detail.conversation,
      detail.action, detail.started, detail.state, detail.output, detail.message))
    fun _ => rfl) (by decide)

def completionShape : Shape Completion :=
  .record (((required "text" .text).pair <| required "description" .text).map
    (fun (text, description) => ⟨text, description⟩)
    (fun completion => (completion.text, completion.description)) fun _ => rfl) (by decide)

/-! ### Responses without a nested response -/

def outputFields : Fields (Option String × CommandOutput) :=
  (optional "conversation" .text).pair <| required "output" commandOutputShape

def appliedFields : Fields (Option String × Option String) :=
  (optional "conversation" .text).pair <| optional "notice" .text

def errorFields : Fields (String × String) :=
  (required "code" .text).pair <| required "message" .text

/-! ### Files -/

def filePublicationShape : Shape FilePublication :=
  .closedRecord (((required "name" .text).pair <| (required "canonical_id" .text).pair <|
      (required "sha256" .text).pair <| (required "publisher_safety_number" .text).pair <|
      (required "sequence" .text).pair <| required "committed_unix" .text).map
    (fun (name, canonicalId, sha256, publisherSafetyNumber, sequence, committedUnix) =>
      ⟨name, canonicalId, sha256, publisherSafetyNumber, sequence, committedUnix⟩)
    (fun publication => (publication.name, publication.canonicalId, publication.sha256,
      publication.publisherSafetyNumber, publication.sequence, publication.committedUnix))
    fun _ => rfl) (by decide)

def FileState.name : FileState → String
  | .offered => "offered"
  | .importing => "importing"
  | .downloading => "downloading"
  | .waitingForPeers => "waiting_for_peers"
  | .paused => "paused"
  | .complete => "complete"
  | .failed => "failed"
  | .cancelled => "cancelled"

def fileStateShape : Shape FileState :=
  .named [.offered, .importing, .downloading, .waitingForPeers, .paused, .complete, .failed,
    .cancelled] FileState.name fun state => by cases state <;> rfl

def fileInfoShape : Shape FileInfo :=
  .closedRecord (((required "id" .text).pair <| (optional "aliases" (.list .text)).pair <|
      (omitted "publication" filePublicationShape).pair <| (required "conversation" .text).pair <|
      (required "name" .text).pair <| (required "size_bytes" .text).pair <|
      (required "verified_bytes" .text).pair <| (required "state" fileStateShape).pair <|
      (required "sources" .u16).pair <| (defaulted "verified_sources" 0 .u16).pair <|
      (required "completed_by" .u16).pair <| optional "error" .text).map
    (fun (id, aliases, publication, conversation, name, sizeBytes, verifiedBytes, state, sources,
        verifiedSources, completedBy, error) =>
      ⟨id, aliases, publication, conversation, name, sizeBytes, verifiedBytes, state, sources,
        verifiedSources, completedBy, error⟩)
    (fun info => (info.id, info.aliases, info.publication, info.conversation, info.name,
      info.sizeBytes, info.verifiedBytes, info.state, info.sources, info.verifiedSources,
      info.completedBy, info.error))
    fun _ => rfl) (by decide)

def fileSnapshotShape : Shape FileSnapshot :=
  .closedRecord (((required "files" (.list fileInfoShape)).pair <|
      (required "quota_bytes" .text).pair <| (required "used_bytes" .text).pair <|
      required "retention_days" .u16).map
    (fun (files, quotaBytes, usedBytes, retentionDays) =>
      ⟨files, quotaBytes, usedBytes, retentionDays⟩)
    (fun snapshot => (snapshot.files, snapshot.quotaBytes, snapshot.usedBytes,
      snapshot.retentionDays))
    fun _ => rfl) (by decide)

/-! ### Requests without a nested request -/

namespace FileRequest

def prepareFields : Fields (String × String × String × String) :=
  (required "id" .text).pair <| (required "conversation" .text).pair <|
    (required "name" .text).pair <| required "size_bytes" .text

def configureFields : Fields (String × UInt16) :=
  (required "quota_bytes" .text).pair <| required "retention_days" .u16

end FileRequest

def fileRequestShape : Shape FileRequest where
  encode
    | .list conversation => Json.tagged "action" "list"
        ((optional "conversation" .text).write conversation)
    | .publications conversation => Json.tagged "action" "publications"
        ((optional "conversation" .text).write conversation)
    | .prepare id conversation name sizeBytes => Json.tagged "action" "prepare"
        (FileRequest.prepareFields.write (id, conversation, name, sizeBytes))
    | .commit id => Json.tagged "action" "commit" ((required "id" .text).write id)
    | .accept id => Json.tagged "action" "accept" ((required "id" .text).write id)
    | .pause id => Json.tagged "action" "pause" ((required "id" .text).write id)
    | .resume id => Json.tagged "action" "resume" ((required "id" .text).write id)
    | .cancel id => Json.tagged "action" "cancel" ((required "id" .text).write id)
    | .configure quotaBytes retentionDays => Json.tagged "action" "configure"
        (FileRequest.configureFields.write (quotaBytes, retentionDays))
  decode json :=
    match json.tag "action" with
    | some "list" => (optional "conversation" .text).readClosed "action" json |>.map .list
    | some "publications" =>
        (optional "conversation" .text).readClosed "action" json |>.map .publications
    | some "prepare" => FileRequest.prepareFields.readClosed "action" json |>.map
        fun (id, conversation, name, sizeBytes) => .prepare id conversation name sizeBytes
    | some "commit" => (required "id" .text).readClosed "action" json |>.map .commit
    | some "accept" => (required "id" .text).readClosed "action" json |>.map .accept
    | some "pause" => (required "id" .text).readClosed "action" json |>.map .pause
    | some "resume" => (required "id" .text).readClosed "action" json |>.map .resume
    | some "cancel" => (required "id" .text).readClosed "action" json |>.map .cancel
    | some "configure" => FileRequest.configureFields.readClosed "action" json |>.map
        fun (quotaBytes, retentionDays) => .configure quotaBytes retentionDays
    | _ => none
  decode_encode request := by
    cases request <;>
      simp (disch := decide) only [Json.tag_tagged, Fields.readClosed_tagged, Option.map_some]
  encode_ne_null request := by cases request <;> exact nofun

/-- A request about an update that names the view, and the release it is about. -/
def releaseFields : Fields (String × String) :=
  (required "view" .text).pair <| required "release" .text

def updateRequestShape : Shape UpdateRequest where
  encode
    | .heartbeat view => Json.tagged "action" "heartbeat" ((required "view" .text).write view)
    | .detach view => Json.tagged "action" "detach" ((required "view" .text).write view)
    | .prepare view release => Json.tagged "action" "prepare" (releaseFields.write (view, release))
    | .abort view release => Json.tagged "action" "abort" (releaseFields.write (view, release))
    | .exit view release => Json.tagged "action" "exit" (releaseFields.write (view, release))
  decode json :=
    match json.tag "action" with
    | some "heartbeat" => (required "view" .text).readClosed "action" json |>.map .heartbeat
    | some "detach" => (required "view" .text).readClosed "action" json |>.map .detach
    | some "prepare" => releaseFields.readClosed "action" json |>.map
        fun (view, release) => .prepare view release
    | some "abort" => releaseFields.readClosed "action" json |>.map
        fun (view, release) => .abort view release
    | some "exit" => releaseFields.readClosed "action" json |>.map
        fun (view, release) => .exit view release
    | _ => none
  decode_encode request := by
    cases request <;>
      simp (disch := decide) only [Json.tag_tagged, Fields.readClosed_tagged, Option.map_some]
  encode_ne_null request := by cases request <;> exact nofun

end Dialect

end GChat
