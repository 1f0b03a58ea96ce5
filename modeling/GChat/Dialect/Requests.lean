import GChat.Dialect.Encoding

/-!
# Requests of version 2 and version 3

A request can hold a request for another network. The requests of version 2 refuse fields that
they do not know.
-/

namespace GChat

namespace Dialect

open Foundation
open Foundation.Fields (required optional)

/-! ### The fields of requests -/

def enrollmentFields : Fields (String × String) :=
  (required "id" .text).pair <| required "action" .text

def unlockFields : Fields (String × Bool) :=
  (required "passphrase" .text).pair <| required "create" .bool

def historyFields : Fields (String × Option String × UInt16) :=
  (required "conversation" .text).pair <| (optional "before" .text).pair <| required "limit" .u16

def searchFields : Fields (String × String × Option String × UInt16) :=
  (required "conversation" .text).pair <| (required "text" .text).pair <|
    (optional "before" .text).pair <| required "limit" .u16

def submitFields : Fields (String × Option String × String) :=
  (required "operation_id" .text).pair <| (optional "conversation" .text).pair <|
    required "text" .text

def completeFields : Fields (Option String × String) :=
  (optional "conversation" .text).pair <| required "text" .text

def markReadFields : Fields (String × String) :=
  (required "conversation" .text).pair <| required "message_id" .text

def eventsFields : Fields (String × UInt16) :=
  (required "after" .text).pair <| required "wait_ms" .u16

def joinFields : Fields (String × String × String × String) :=
  (required "code" .text).pair <| (required "nickname" .text).pair <|
    (required "accepted_network" .text).pair <| required "operation_id" .text

/-! ### Version 3 -/

mutual

def Request.encode : Request → Json
  | .enrollment id action => Json.tagged "kind" "enrollment" (enrollmentFields.write (id, action))
  | .update request => Json.tagged "kind" "update"
      ((required "request" updateRequestShape).write request)
  | .networks request => Json.tagged "kind" "networks" [("request", request.encode)]
  | .files request => Json.tagged "kind" "files"
      ((required "request" fileRequestShape).write request)
  | .identify => Json.tagged "kind" "identify" []
  | .unlock passphrase create => Json.tagged "kind" "unlock"
      (unlockFields.write (passphrase, create))
  | .lock => Json.tagged "kind" "lock" []
  | .disconnect => Json.tagged "kind" "disconnect" []
  | .snapshot => Json.tagged "kind" "snapshot" []
  | .networkStatus => Json.tagged "kind" "network_status" []
  | .importNetworkInvitation code => Json.tagged "kind" "import_network_invitation"
      ((required "code" .text).write code)
  | .catalogue conversation => Json.tagged "kind" "catalogue"
      ((optional "conversation" .text).write conversation)
  | .history conversation before limit => Json.tagged "kind" "history"
      (historyFields.write (conversation, before, limit))
  | .search conversation text before limit => Json.tagged "kind" "search"
      (searchFields.write (conversation, text, before, limit))
  | .submit operationId conversation text => Json.tagged "kind" "submit"
      (submitFields.write (operationId, conversation, text))
  | .complete conversation text => Json.tagged "kind" "complete"
      (completeFields.write (conversation, text))
  | .markRead conversation messageId => Json.tagged "kind" "mark_read"
      (markReadFields.write (conversation, messageId))
  | .events after waitMs => Json.tagged "kind" "events" (eventsFields.write (after, waitMs))

def NetworkRequest.encode : NetworkRequest → Json
  | .list => Json.tagged "kind" "list" []
  | .inspect code => Json.tagged "kind" "inspect" ((required "code" .text).write code)
  | .join code nickname acceptedNetwork operationId => Json.tagged "kind" "join"
      (joinFields.write (code, nickname, acceptedNetwork, operationId))
  | .call network request => Json.tagged "kind" "call"
      [("network", .string network), ("request", request.encode)]

end

/-! ### Version 2 -/

namespace V2

mutual

inductive Request where
  | enrollment (id action : String)
  | update (request : UpdateRequest)
  | networks (request : NetworkRequest)
  | files (request : FileRequest)
  | identify
  | unlock (passphrase : String) (create : Bool)
  | lock
  | disconnect
  | snapshot
  | networkStatus
  | importNetworkInvitation (code : String)
  | catalogue (conversation : Option String)
  | history (conversation : String) (before : Option String) (limit : UInt16)
  | search (conversation text : String) (before : Option String) (limit : UInt16)
  | submit (operationId : String) (conversation : Option String) (text : String)
  | complete (conversation : Option String) (text : String)
  | markRead (conversation messageId : String)
  | events (after : String) (waitMs : UInt16)

inductive NetworkRequest where
  | list
  | inspect (code : String)
  | join (code nickname acceptedNetwork operationId : String)
  | call (network : String) (request : Request)

end

mutual

def Request.encode : Request → Json
  | .enrollment id action => Json.tagged "kind" "enrollment" (enrollmentFields.write (id, action))
  | .update request => Json.tagged "kind" "update"
      ((required "request" updateRequestShape).write request)
  | .networks request => Json.tagged "kind" "networks" [("request", request.encode)]
  | .files request => Json.tagged "kind" "files"
      ((required "request" fileRequestShape).write request)
  | .identify => Json.tagged "kind" "identify" []
  | .unlock passphrase create => Json.tagged "kind" "unlock"
      (unlockFields.write (passphrase, create))
  | .lock => Json.tagged "kind" "lock" []
  | .disconnect => Json.tagged "kind" "disconnect" []
  | .snapshot => Json.tagged "kind" "snapshot" []
  | .networkStatus => Json.tagged "kind" "network_status" []
  | .importNetworkInvitation code => Json.tagged "kind" "import_network_invitation"
      ((required "code" .text).write code)
  | .catalogue conversation => Json.tagged "kind" "catalogue"
      ((optional "conversation" .text).write conversation)
  | .history conversation before limit => Json.tagged "kind" "history"
      (historyFields.write (conversation, before, limit))
  | .search conversation text before limit => Json.tagged "kind" "search"
      (searchFields.write (conversation, text, before, limit))
  | .submit operationId conversation text => Json.tagged "kind" "submit"
      (submitFields.write (operationId, conversation, text))
  | .complete conversation text => Json.tagged "kind" "complete"
      (completeFields.write (conversation, text))
  | .markRead conversation messageId => Json.tagged "kind" "mark_read"
      (markReadFields.write (conversation, messageId))
  | .events after waitMs => Json.tagged "kind" "events" (eventsFields.write (after, waitMs))

def NetworkRequest.encode : NetworkRequest → Json
  | .list => Json.tagged "kind" "list" []
  | .inspect code => Json.tagged "kind" "inspect" ((required "code" .text).write code)
  | .join code nickname acceptedNetwork operationId => Json.tagged "kind" "join"
      (joinFields.write (code, nickname, acceptedNetwork, operationId))
  | .call network request => Json.tagged "kind" "call"
      [("network", .string network), ("request", request.encode)]

end

/-- The requests that hold no other request. -/
def Request.decodeFlat (json : Json) : Option Request :=
  match json.tag "kind" with
  | some "enrollment" => enrollmentFields.readClosed "kind" json |>.map
      fun (id, action) => .enrollment id action
  | some "update" => (required "request" updateRequestShape).readClosed "kind" json |>.map .update
  | some "files" => (required "request" fileRequestShape).readClosed "kind" json |>.map .files
  | some "identify" => some .identify
  | some "unlock" => unlockFields.readClosed "kind" json |>.map
      fun (passphrase, create) => .unlock passphrase create
  | some "lock" => some .lock
  | some "disconnect" => some .disconnect
  | some "snapshot" => some .snapshot
  | some "network_status" => some .networkStatus
  | some "import_network_invitation" =>
      (required "code" .text).readClosed "kind" json |>.map .importNetworkInvitation
  | some "catalogue" => (optional "conversation" .text).readClosed "kind" json |>.map .catalogue
  | some "history" => historyFields.readClosed "kind" json |>.map
      fun (conversation, before, limit) => .history conversation before limit
  | some "search" => searchFields.readClosed "kind" json |>.map
      fun (conversation, text, before, limit) => .search conversation text before limit
  | some "submit" => submitFields.readClosed "kind" json |>.map
      fun (operationId, conversation, text) => .submit operationId conversation text
  | some "complete" => completeFields.readClosed "kind" json |>.map
      fun (conversation, text) => .complete conversation text
  | some "mark_read" => markReadFields.readClosed "kind" json |>.map
      fun (conversation, messageId) => .markRead conversation messageId
  | some "events" => eventsFields.readClosed "kind" json |>.map
      fun (after, waitMs) => .events after waitMs
  | _ => none

def NetworkRequest.decodeFlat (json : Json) : Option NetworkRequest :=
  match json.tag "kind" with
  | some "list" => some .list
  | some "inspect" => (required "code" .text).readClosed "kind" json |>.map .inspect
  | some "join" => joinFields.readClosed "kind" json |>.map
      fun (code, nickname, acceptedNetwork, operationId) =>
        .join code nickname acceptedNetwork operationId
  | _ => none

mutual

def Request.decode (json : Json) : Option Request :=
  if json.tag "kind" = some "networks" then
    match _h : json.field "request" with
    | some inner =>
        if json.closedTo ["kind", "request"] then (NetworkRequest.decode inner).map .networks
        else none
    | none => none
  else Request.decodeFlat json
termination_by sizeOf json
decreasing_by exact Json.sizeOf_field ‹_›

def NetworkRequest.decode (json : Json) : Option NetworkRequest :=
  if json.tag "kind" = some "call" then
    match _h : json.field "request" with
    | some inner =>
        if json.closedTo ["kind", "network", "request"] then
          ((required "network" .text).readOpen json).bind fun network =>
            (Request.decode inner).map (.call network)
        else none
    | none => none
  else NetworkRequest.decodeFlat json
termination_by sizeOf json
decreasing_by exact Json.sizeOf_field ‹_›

end

theorem Request.decode_of_flat {json : Json} {tag : String} (htag : json.tag "kind" = some tag)
    (h : tag ≠ "networks") : Request.decode json = Request.decodeFlat json := by
  rw [Request.decode, htag, if_neg]
  exact fun hsome => h (Option.some.inj hsome)

theorem Request.decode_networks {inner : Json} {request : NetworkRequest}
    (h : NetworkRequest.decode inner = some request) :
    Request.decode (Json.tagged "kind" "networks" [("request", inner)]) =
      some (.networks request) := by
  rw [Request.decode, if_pos (Json.tag_tagged ..)]
  have hfield : (Json.tagged "kind" "networks" [("request", inner)]).field "request" =
      some inner := rfl
  have hclosed : (Json.tagged "kind" "networks" [("request", inner)]).closedTo
      ["kind", "request"] = true := rfl
  split
  next found hfound =>
    rw [hfield] at hfound
    cases hfound
    rw [if_pos hclosed, h, Option.map_some]
  next hnone =>
    rw [hfield] at hnone
    cases hnone

theorem NetworkRequest.decode_of_flat {json : Json} {tag : String}
    (htag : json.tag "kind" = some tag) (h : tag ≠ "call") :
    NetworkRequest.decode json = NetworkRequest.decodeFlat json := by
  rw [NetworkRequest.decode, htag, if_neg]
  exact fun hsome => h (Option.some.inj hsome)

theorem NetworkRequest.decode_call {network : String} {inner : Json} {request : Request}
    (h : Request.decode inner = some request) :
    NetworkRequest.decode (Json.tagged "kind" "call"
        [("network", .string network), ("request", inner)]) =
      some (.call network request) := by
  rw [NetworkRequest.decode, if_pos (Json.tag_tagged ..)]
  have hfield : (Json.tagged "kind" "call"
      [("network", .string network), ("request", inner)]).field "request" = some inner := rfl
  have hnetwork : (required "network" .text).readOpen (Json.tagged "kind" "call"
      [("network", .string network), ("request", inner)]) = some network := rfl
  have hclosed : (Json.tagged "kind" "call"
      [("network", .string network), ("request", inner)]).closedTo
        ["kind", "network", "request"] = true := rfl
  split
  next found hfound =>
    rw [hfield] at hfound
    cases hfound
    rw [if_pos hclosed, h, hnetwork]
    rfl
  next hnone =>
    rw [hfield] at hnone
    cases hnone

mutual

theorem Request.decode_encode (request : Request) :
    Request.decode request.encode = some request := by
  cases request with
  | networks request =>
      rw [Request.encode]
      exact Request.decode_networks (NetworkRequest.decode_encode request)
  | _ =>
      rw [Request.encode, Request.decode_of_flat (Json.tag_tagged ..) (by decide)]
      simp (disch := decide) only [Request.decodeFlat, Json.tag_tagged, Fields.readClosed_tagged,
        Option.map_some]

theorem NetworkRequest.decode_encode (request : NetworkRequest) :
    NetworkRequest.decode request.encode = some request := by
  cases request with
  | call network request =>
      rw [NetworkRequest.encode]
      exact NetworkRequest.decode_call (Request.decode_encode request)
  | _ =>
      rw [NetworkRequest.encode, NetworkRequest.decode_of_flat (Json.tag_tagged ..) (by decide)]
      simp (disch := decide) only [NetworkRequest.decodeFlat, Json.tag_tagged,
        Fields.readClosed_tagged, Option.map_some]

end

end V2

/-! ### The request that version 2 reads -/

mutual

def Request.released : Request → V2.Request
  | .enrollment id action => .enrollment id action
  | .update request => .update request
  | .networks request => .networks request.released
  | .files request => .files request
  | .identify => .identify
  | .unlock passphrase create => .unlock passphrase create
  | .lock => .lock
  | .disconnect => .disconnect
  | .snapshot => .snapshot
  | .networkStatus => .networkStatus
  | .importNetworkInvitation code => .importNetworkInvitation code
  | .catalogue conversation => .catalogue conversation
  | .history conversation before limit => .history conversation before limit
  | .search conversation text before limit => .search conversation text before limit
  | .submit operationId conversation text => .submit operationId conversation text
  | .complete conversation text => .complete conversation text
  | .markRead conversation messageId => .markRead conversation messageId
  | .events after waitMs => .events after waitMs

def NetworkRequest.released : NetworkRequest → V2.NetworkRequest
  | .list => .list
  | .inspect code => .inspect code
  | .join code nickname acceptedNetwork operationId =>
      .join code nickname acceptedNetwork operationId
  | .call network request => .call network request.released

end

mutual

theorem Request.encode_released (request : Request) : request.released.encode = request.encode := by
  cases request with
  | networks request =>
      rw [Request.released, V2.Request.encode, Request.encode, NetworkRequest.encode_released]
  | _ => rw [Request.released, V2.Request.encode, Request.encode]

theorem NetworkRequest.encode_released (request : NetworkRequest) :
    request.released.encode = request.encode := by
  cases request with
  | call network request =>
      rw [NetworkRequest.released, V2.NetworkRequest.encode, NetworkRequest.encode,
        Request.encode_released]
  | _ => rw [NetworkRequest.released, V2.NetworkRequest.encode, NetworkRequest.encode]

end

end Dialect

end GChat
