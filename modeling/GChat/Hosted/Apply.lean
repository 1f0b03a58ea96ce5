import GChat.Hosted.Model

/-!
# Applying events to a hosted archive

`apply` merges the channel, runs through the events in the order of their
sequence numbers and moves the cursor. Events at or below the cursor are passed
over, and a gap or an event of another channel refuses the whole list.
-/

namespace GChat

namespace Hosted

open Foundation Api

/-- The bound on retained activity. -/
def maxActivity : ℕ := 2000

/-- Keep the newest entries within the bound. -/
def trim (activity : List Activity) : List Activity := activity.drop (activity.length - maxActivity)

/-- The author of a retained message. -/
def author (m : Message) : Option Id :=
  m.memberId.bind fun id => (directoryCursor id).toOption

/-- Names for an archive that has none: the authors of its messages, then its members. -/
def Archive.seed (room : Archive) : Archive :=
  if room.names.isEmpty then
    let retained := room.messages.filterMap fun m => (author m).map fun id => (id, m)
    let names := retained.foldl (fun names e => observe names e.1 e.2.nickname e.2.timestamp) []
    { room with
      names := room.channel.members.foldl (fun names m => observe names m.id m.nickname 0) names }
  else room

/-- Show an accepted text in the conversation, unless it is already there. -/
def Archive.pushMessage (room : Archive) (conversation : String) (kind : MessageKind)
    (id sender : Id) (body : String) (status : Status) (acceptedAt : ℕ) : Archive :=
  let id := hex id.toList
  if room.messages.any (·.id == id) then room
  else
    let mine := sender == room.channel.selfMember
    { room with
      messages := room.messages ++
        [{ messageKind := some kind
           id := id
           conversationId := conversation
           memberId := some (hex sender.toList)
           nickname := room.observedNickname sender
           body := body
           timestamp := acceptedAt
           mine := mine
           operationId := room.operations[id]?
           delivery := if mine then some (Hosted.delivery status) else none }] }

/-- Set the delivery of the first message with an identifier. -/
def setDelivery (id : String) (value : Delivery) : List Message → List Message
  | [] => []
  | m :: messages =>
      if m.id == id then { m with delivery := some value } :: messages
      else m :: setDelivery id value messages

section Apply

-- the content type by which the protocol library marks a completed transfer
variable (completionType : String)

/-- The effect of a message event, with the activity it leaves. -/
def Archive.receive (room : Archive) (conversation : String) (id sender : Id)
    (content : Content) (status : Status) (acceptedAt : ℕ) :
    Archive × Option (String × String) :=
  match content with
  | .text body => (room.pushMessage conversation .text id sender body status acceptedAt, none)
  | .action body => (room.pushMessage conversation .action id sender body status acceptedAt, none)
  | .notice body => (room.pushMessage conversation .notice id sender body status acceptedAt, none)
  | .file contentType _ =>
      if contentType == completionType then (room, none)
      else ({ room with files := room.files.insert (hex id.toList) content }, none)
  | .topic topic =>
      (room, some ("topic", room.observedNickname sender ++ " set the topic: " ++ topic))
  | .nickname name =>
      (room.observeName sender name acceptedAt,
        some ("nickname", room.observedNickname sender ++ " is now " ++ name))
  | .presence => (room, none)
  | .topicState => (room, none)

/-- The effect of an event, with the activity it leaves. -/
def Archive.perform (room : Archive) (conversation : String) (event : Event) :
    Archive × Option (String × String) :=
  match event.kind with
  | .message id sender content status =>
      room.receive completionType conversation id sender content status event.acceptedAt
  | .delivery id status =>
      ({ room with messages := setDelivery (hex id.toList) (Hosted.delivery status) room.messages },
        match status with
        | .failed reason => some ("send_failed", reason)
        | _ => none)
  | .activity actor change reason =>
      (room, some ("policy", room.observedNickname actor ++ " (" ++ hex actor.toList ++ ") " ++
        describeChange change room.observedNickname ++
        (match reason with
        | none => ""
        | some r => ": " ++ r)))
  | .joined member nickname =>
      (room.observeName member nickname event.acceptedAt,
        some ("join", nickname ++ " (" ++ hex member.toList ++ ") joined"))
  | .removed => (room, some ("removed", "Your channel membership ended; history is retained"))
  | .unavailable sender reason =>
      (room, some ("unavailable",
        "Message from " ++ room.observedNickname sender ++ " unavailable: " ++ reason))
  | .operationFailed reason => (room, some ("operation_failed", reason))

def activityOf (conversation : String) (event : Event) (entry : String × String) : Activity :=
  { id := conversation ++ "/" ++ toString event.sequence
    conversation := conversation
    kind := entry.1
    text := entry.2
    timestamp := event.acceptedAt }

/-- One turn of the loop over the events. -/
def applyEvent (conversation : String) (state : Archive × List Activity) (event : Event) :
    Except String (Archive × List Activity) :=
  let (room, activity) := state
  if event.channel != room.channel.id then
    .error "Hosted event belongs to a different channel"
  else if event.sequence ≤ room.cursor then .ok state
  else if event.sequence != room.cursor + 1 then
    .error "Hosted archive event gap; refusing acknowledgement"
  else
    let (room, entry) := room.perform completionType conversation event
    .ok ({ room with cursor := event.sequence },
      activity ++ (entry.map (activityOf conversation event)).toList)

/-- Recover the operation behind a message that was stored before it was recorded. -/
def fill (operations : StringMap String) (m : Message) : Message :=
  match m.operationId with
  | none => { m with operationId := operations[m.id]? }
  | some _ => m

def Archive.fillOperations (room : Archive) : Archive :=
  { room with messages := room.messages.map (fill room.operations) }

/-- The archive of a channel as a batch finds it: created if it is new, with names, and
with the channel as it is now. -/
def UiState.enter (state : UiState) (channel : Channel) : Archive :=
  { (state.hosted[key channel.id]?.getD (Archive.opened channel)).seed with channel := channel }

/-- The state after a batch. -/
def UiState.leave (state : UiState) (channel : Channel) (room : Archive)
    (activity : List Activity) : UiState :=
  { state with
    hosted := state.hosted.insert (key channel.id) room.fillOperations
    activity := trim activity }

def apply (state : UiState) (channel : Channel) (events : List Event) :
    Except String (UiState × ℕ) := do
  let (room, activity) ← events.foldlM (applyEvent completionType (key channel.id))
    (state.enter channel, state.activity)
  pure (state.leave channel room activity, room.cursor)

/-- Forget the error of a channel that was recovered. -/
def UiState.recovered (state : UiState) (channel : Channel) : UiState :=
  match state.hosted[key channel.id]? with
  | none => state
  | some room =>
      { state with hosted := state.hosted.insert (key channel.id) { room with error := none } }

/-- Archive a fetched batch. The work is done on a copy, which replaces the stored state
once it is saved. -/
def archiveHosted (save : UiState → Except String Unit) (stored : UiState) (channel : Channel)
    (recovered : Bool) (events : List Event) : UiState × Except String ℕ :=
  match apply completionType stored channel events with
  | .error e => (stored, .error e)
  | .ok (candidate, through) =>
      let candidate := if recovered then candidate.recovered channel else candidate
      if candidate != stored then
        match save candidate with
        | .error e => (stored, .error e)
        | .ok () => (candidate, .ok through)
      else (stored, .ok through)

end Apply

/-- Record the operation of a message that was queued, and show the message. -/
def Archive.rememberQueued (room : Archive) (id : Id) (content : Content) (operation : String)
    (now : ℕ) : Archive :=
  let id := hex id.toList
  let room := { room with operations := room.operations.insert id operation }
  let push (kind : MessageKind) (body : String) : Archive :=
    if room.messages.any (·.id == id) then room
    else
      { room with
        messages := room.messages ++
          [{ messageKind := some kind
             id := id
             conversationId := key room.channel.id
             memberId := some (hex room.channel.selfMember.toList)
             nickname := room.observedNickname room.channel.selfMember
             body := body
             timestamp := now
             mine := true
             operationId := some operation
             delivery := some .localAccepted }] }
  match content with
  | .text body => push .text body
  | .action body => push .action body
  | .notice body => push .notice body
  | _ => room

end Hosted

end GChat
