import GChat.Dialect.Released
import GChat.Dialect.Requests
import GChat.Dialect.Responses
import Mathlib.Data.List.Forall2

/-!
# The released dialect

A client of version 2 is answered in the types of its version: what they do not have is taken out
of a response, and its requests are read by them before anything else is done.
-/

namespace GChat

namespace Dialect

namespace Compat

open Foundation
open Api (Delivery)

def apiVersion : UInt16 := 3

def legacyVersion : UInt16 := 2

def supported (version : UInt16) : Bool := [legacyVersion, apiVersion].contains version

/-- Whether a request is read by the types of a version. -/
def accepts (version : UInt16) (request : Request) : Bool :=
  if !supported version then false
  else if version = apiVersion then true
  else
    let nested : Bool :=
      match request with
      | .networks (.call _ inner) => accepts version inner
      | _ => true
    if nested then (V2.Request.decode request.encode).isSome else false
termination_by structural request

def message (value : Message) : Message :=
  { value with
    messageKind := none
    highlighted := none
    delivery :=
      match value.delivery with
      | some .serviceAccepted => some .localAccepted
      | some .failed => none
      | delivery => delivery }

def conversation (value : Conversation) : Conversation :=
  { value with
    policy := none
    catchUp := none
    muted := none
    members := value.members.map fun member => { member with presence := none } }

def project : Response → Response
  | .history page => .history { page with messages := page.messages.map message }
  | .snapshot snapshot =>
      .snapshot { snapshot with
        presenceEnabled := none
        conversations := snapshot.conversations.map conversation }
  | .projection conversations revision => .projection (conversations.map conversation) revision
  | .networks (.result network response) => .networks (.result network (project response))
  | response => response

def response (version : UInt16) (envelope : ResponseEnvelope) : ResponseEnvelope :=
  if !supported version then envelope
  else
    { envelope with
      version := version
      response := if version = legacyVersion then project envelope.response
        else envelope.response }

/-! ### What projection keeps -/

/-- A member keeps all but its presence. -/
def MemberKept (before after : Member) : Prop :=
  { after with presence := before.presence } = before

/-- A conversation keeps all but what version 2 does not have. -/
structure ConversationKept (before after : Conversation) : Prop where
  fields : { after with
    policy := before.policy
    catchUp := before.catchUp
    muted := before.muted
    members := before.members } = before
  members : List.Forall₂ MemberKept before.members after.members

/-- The states of a delivery that version 2 has. -/
def expressible : Delivery → Bool
  | .localAccepted => true
  | .delivered => true
  | .serviceAccepted => false
  | .failed => false

/-- A message keeps all but what version 2 does not have, its delivery too where that can be
expressed. -/
structure MessageKept (before after : Message) : Prop where
  fields : { after with
    messageKind := before.messageKind
    highlighted := before.highlighted
    delivery := before.delivery } = before
  delivery : (∀ delivery ∈ before.delivery, expressible delivery = true) →
    after.delivery = before.delivery

/-- A response keeps all but what version 2 does not have. What becomes of a snapshot's own
presence is said by `presence`. -/
inductive Kept (presence : Option Bool → Option Bool → Prop) : Response → Response → Prop where
  | same (response : Response) : Kept presence response response
  | history {before after : HistoryPage}
      (messages : List.Forall₂ MessageKept before.messages after.messages)
      (cursor : after.before = before.before) :
      Kept presence (.history before) (.history after)
  | snapshot {before after : Snapshot}
      (fields : { after with
        conversations := before.conversations
        presenceEnabled := before.presenceEnabled } = before)
      (conversations : List.Forall₂ ConversationKept before.conversations after.conversations)
      (own : presence before.presenceEnabled after.presenceEnabled) :
      Kept presence (.snapshot before) (.snapshot after)
  | projection {before after : List Conversation} (revision : String)
      (conversations : List.Forall₂ ConversationKept before after) :
      Kept presence (.projection before revision) (.projection after revision)
  | result {before after : Response} (network : String) (response : Kept presence before after) :
      Kept presence (.networks (.result network before)) (.networks (.result network after))

theorem conversation_kept (value : Conversation) : ConversationKept value (conversation value) := by
  refine ⟨rfl, ?_⟩
  rw [conversation, List.forall₂_map_right_iff, List.forall₂_same]
  exact fun _ _ => rfl

theorem message_kept (value : Message) : MessageKept value (message value) := by
  refine ⟨rfl, fun hexpressible => ?_⟩
  unfold message
  cases hdelivery : value.delivery with
  | none => rfl
  | some delivery =>
      have hone := hexpressible delivery hdelivery
      cases delivery with
      | localAccepted => rfl
      | delivered => rfl
      | serviceAccepted => cases hone
      | failed => cases hone

theorem conversations_kept (rows : List Conversation) :
    List.Forall₂ ConversationKept rows (rows.map conversation) := by
  rw [List.forall₂_map_right_iff, List.forall₂_same]
  exact fun row _ => conversation_kept row

/-- Projection keeps all but what version 2 does not have, and the presence of a snapshot. -/
theorem project_kept (response : Response) :
    Kept (fun _ after => after = none) response (project response) := by
  cases response with
  | history page =>
      refine .history ?_ rfl
      rw [List.forall₂_map_right_iff, List.forall₂_same]
      exact fun row _ => message_kept row
  | snapshot snapshot => exact .snapshot rfl (conversations_kept _) rfl
  | projection rows revision => exact .projection revision (conversations_kept rows)
  | networks response =>
      cases response with
      | result network response => exact .result network (project_kept response)
      | _ => exact .same _
  | _ => exact .same _
termination_by structural response

/-! ### Projection does no more the second time -/

theorem message_message (value : Message) : message (message value) = message value := by
  unfold message
  rcases hdelivery : value.delivery with _ | delivery
  · rfl
  · cases delivery <;> rfl

theorem conversation_conversation (value : Conversation) :
    conversation (conversation value) = conversation value := by
  unfold conversation
  rw [List.map_map]
  rfl

theorem conversations_idempotent (rows : List Conversation) :
    (rows.map conversation).map conversation = rows.map conversation := by
  rw [List.map_map]
  exact List.map_congr_left fun row _ => conversation_conversation row

theorem project_project (response : Response) : project (project response) = project response := by
  cases response with
  | history page =>
      have hmessages : (page.messages.map message).map message = page.messages.map message := by
        rw [List.map_map]
        exact List.map_congr_left fun row _ => message_message row
      simp only [project, hmessages]
  | snapshot snapshot => simp only [project, conversations_idempotent]
  | projection rows revision => simp only [project, conversations_idempotent]
  | networks response =>
      cases response with
      | result network response => simp only [project, project_project response]
      | _ => rfl
  | _ => rfl
termination_by structural response

/-! ### What version 2 reads of a projected response -/

def memberReleased (member : Member) : V2.Member where
  id := member.id
  nickname := member.nickname
  isSelf := member.isSelf
  recentlyActive := member.recentlyActive
  capabilities := member.capabilities

def conversationReleased (row : Conversation) : V2.Conversation where
  provider := row.provider
  id := row.id
  channelId := row.channelId
  kind := row.kind
  name := row.name
  topic := row.topic
  active := row.active
  owner := row.owner
  visibility := row.visibility
  directory := row.directory
  members := row.members.map memberReleased
  unread := row.unread
  lastMessageId := row.lastMessageId
  inputLimitBytes := row.inputLimitBytes
  commands := row.commands

def deliveryReleased : Delivery → Option V2.Delivery
  | .localAccepted => some .localAccepted
  | .delivered => some .delivered
  | .serviceAccepted => some .localAccepted
  | .failed => none

def messageReleased (row : Message) : V2.Message where
  id := row.id
  conversationId := row.conversationId
  memberId := row.memberId
  nickname := row.nickname
  body := row.body
  timestamp := row.timestamp
  mine := row.mine
  operationId := row.operationId
  delivery := row.delivery.bind deliveryReleased
  result := row.result

def snapshotReleased (snapshot : Snapshot) : V2.Snapshot where
  instanceInfo := snapshot.instanceInfo
  revision := snapshot.revision
  conversations := snapshot.conversations.map conversationReleased
  commandHistory := snapshot.commandHistory
  inputHistory := snapshot.inputHistory
  providerErrors := snapshot.providerErrors
  operations := snapshot.operations
  activity := snapshot.activity
  presenceEnabled := none

mutual

def responseReleased : Response → V2.Response
  | .update result => .update result
  | .networks response => .networks (networkResponseReleased response)
  | .files snapshot => .files snapshot
  | .networkStatus status => .networkStatus status
  | .instanceInfo info => .instanceInfo info
  | .snapshot snapshot => .snapshot (snapshotReleased snapshot)
  | .history page => .history ⟨page.messages.map messageReleased, page.before⟩
  | .completed items => .completed items
  | .catalogue commands => .catalogue commands
  | .projection conversations revision =>
      .projection (conversations.map conversationReleased) revision
  | .output conversation output => .output conversation output
  | .applied conversation notice => .applied conversation notice
  | .changed revision => .changed revision
  | .error code message => .error code message

def networkResponseReleased : NetworkResponse → V2.NetworkResponse
  | .list networks => .list networks
  | .preview preview => .preview preview
  | .result network response => .result network (responseReleased response)

end

theorem encode_member (member : Member) :
    memberShape.encode { member with presence := none } =
      V2.memberShape.encode (memberReleased member) := rfl

theorem encode_conversation (row : Conversation) :
    conversationShape.encode (conversation row) =
      V2.conversationShape.encode (conversationReleased row) := by
  have hmembers : (conversation row).members.map memberShape.encode =
      (row.members.map memberReleased).map V2.memberShape.encode := by
    rw [conversation, List.map_map, List.map_map]
    exact List.map_congr_left fun member _ => encode_member member
  simp only [conversationShape, V2.conversationShape, Shape.record, Fields.map, Fields.pair,
    Fields.required, Fields.optional, Fields.omitted, Fields.defaulted, conversationReleased,
    Shape.list, hmembers]
  rfl

theorem encode_conversations (rows : List Conversation) :
    (rows.map conversation).map conversationShape.encode =
      (rows.map conversationReleased).map V2.conversationShape.encode := by
  rw [List.map_map, List.map_map]
  exact List.map_congr_left fun row _ => encode_conversation row

theorem encode_message (row : Message) :
    messageShape.encode (message row) = V2.messageShape.encode (messageReleased row) := by
  obtain ⟨_, _, _, _, _, _, _, _, _, _, delivery, _⟩ := row
  rcases delivery with _ | delivery
  · rfl
  · cases delivery <;> rfl

theorem encode_messages (rows : List Message) :
    (rows.map message).map messageShape.encode =
      (rows.map messageReleased).map V2.messageShape.encode := by
  rw [List.map_map, List.map_map]
  exact List.map_congr_left fun row _ => encode_message row

/-- A projected response is written as the response that version 2 reads. -/
theorem encode_project (response : Response) :
    (project response).encode = (responseReleased response).encode := by
  cases response with
  | history page =>
      simp only [project, responseReleased, Response.encode, V2.Response.encode, historyPageShape,
        V2.historyPageShape, Shape.record, Fields.map, Fields.pair, Fields.required,
        Fields.optional, Shape.list, encode_messages]
  | snapshot snapshot =>
      simp only [project, responseReleased, snapshotReleased, Response.encode, V2.Response.encode,
        snapshotShape, V2.snapshotShape, Shape.record, Fields.map, Fields.pair, Fields.required,
        Fields.optional, Fields.defaulted, Shape.list, encode_conversations]
  | projection rows revision =>
      simp only [project, responseReleased, Response.encode, V2.Response.encode,
        projectionFields, V2.projectionFields, Fields.pair, Fields.required, Shape.list,
        encode_conversations]
  | networks response =>
      cases response with
      | result network response =>
          simp only [project, responseReleased, networkResponseReleased, Response.encode,
            NetworkResponse.encode, V2.Response.encode, V2.NetworkResponse.encode,
            encode_project response]
      | _ => rfl
  | _ => rfl
termination_by structural response

/-! ### The legacy dialect -/

theorem accepts_legacy (request : Request) : accepts legacyVersion request = true := by
  have hdecodes : (V2.Request.decode request.encode).isSome = true := by
    rw [← Request.encode_released, V2.Request.decode_encode, Option.isSome_some]
  have hsupported : (!supported legacyVersion) = false := rfl
  have hlegacy : ¬ legacyVersion = apiVersion := by decide
  cases request with
  | networks request =>
      cases request with
      | call network inner =>
          rw [accepts, hsupported, if_neg Bool.false_ne_true, if_neg hlegacy]
          dsimp only
          rw [accepts_legacy inner, if_pos rfl, hdecodes]
      | _ =>
          unfold accepts
          rw [hsupported, if_neg Bool.false_ne_true, if_neg hlegacy]
          exact hdecodes
  | _ =>
      unfold accepts
      rw [hsupported, if_neg Bool.false_ne_true, if_neg hlegacy]
      exact hdecodes
termination_by structural request

/-- The request can be said in the types of version 2. -/
def Expressible (request : Request) : Prop :=
  ∃ released : V2.Request, released.encode = request.encode

/-- A response in version 2 is read in full by the types of version 2, is not changed by another
projection, and keeps all that these types have. -/
structure Faithful (presence : Option Bool → Option Bool → Prop) (envelope : ResponseEnvelope) :
    Prop where
  decodes : ∃ released,
    V2.responseEnvelopeShape.decode (response legacyVersion envelope).encode = some released ∧
      V2.responseEnvelopeShape.encode released = (response legacyVersion envelope).encode
  idempotent : response legacyVersion (response legacyVersion envelope) =
    response legacyVersion envelope
  kept : (response legacyVersion envelope).instanceId = envelope.instanceId ∧
    Kept presence envelope.response (response legacyVersion envelope).response

theorem response_legacy (envelope : ResponseEnvelope) : response legacyVersion envelope =
    { envelope with version := legacyVersion, response := project envelope.response } := rfl

theorem response_faithful (envelope : ResponseEnvelope) :
    Faithful (fun _ after => after = none) envelope := by
  have hencode : (response legacyVersion envelope).encode = V2.responseEnvelopeShape.encode
      ⟨legacyVersion, envelope.instanceId, responseReleased envelope.response⟩ := by
    rw [response_legacy, ResponseEnvelope.encode, encode_project]
    rfl
  refine ⟨⟨_, ?_, hencode.symm⟩, ?_, rfl, project_kept envelope.response⟩
  · rw [hencode, V2.responseEnvelopeShape.decode_encode]
  · rw [response_legacy, response_legacy, project_project]

/-- The legacy dialect is closed, and it is faithful but for the presence of a snapshot, which is
not sent. -/
theorem legacy_dialect :
    (∀ envelope, Faithful (fun _ after => after = none) envelope) ∧
      ∀ request, accepts legacyVersion request = true ↔ Expressible request :=
  ⟨response_faithful, fun request =>
    ⟨fun _ => ⟨request.released, request.encode_released⟩, fun _ => accepts_legacy request⟩⟩

/-! ### A snapshot that says whether presence is shared -/

namespace Sample

def snapshot : Snapshot where
  instanceInfo := ⟨none, "a", "Alice", "boot", false, false, true, true, "1234", []⟩
  revision := "1"
  conversations := []
  commandHistory := []
  inputHistory := []
  providerErrors := []
  operations := none
  activity := none
  presenceEnabled := some true

end Sample

theorem Kept.presence {presence : Option Bool → Option Bool → Prop} {before after : Response}
    (h : Kept presence before after) {first last : Snapshot} (hbefore : before = .snapshot first)
    (hafter : after = .snapshot last) :
    first = last ∨ presence first.presenceEnabled last.presenceEnabled := by
  cases h with
  | same response =>
      rw [hbefore] at hafter
      exact Or.inl (Response.snapshot.inj hafter)
  | snapshot fields conversations own =>
      cases hbefore
      cases hafter
      exact Or.inr own
  | _ => cases hbefore

/-- The types of version 2 have the presence of a snapshot, and it is not kept. -/
theorem snapshot_presence_not_kept :
    ¬ ((∀ envelope, Faithful (fun before after => after = before) envelope) ∧
      ∀ request, accepts legacyVersion request = true ↔ Expressible request) := by
  rintro ⟨hfaithful, -⟩
  have hkept := (hfaithful ⟨apiVersion, "a", .snapshot Sample.snapshot⟩).kept.2
  obtain hsame | hpresence := hkept.presence rfl rfl
  · cases congrArg Snapshot.presenceEnabled hsame
  · cases hpresence

end Compat

end Dialect

end GChat
