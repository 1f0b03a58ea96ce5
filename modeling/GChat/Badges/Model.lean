import GChat.Foundation.Backwards
import GChat.Foundation.Machine
import GChat.Foundation.Text
import GChat.Foundation.Upsert
import GChat.Irc.Model

/-!
# Badges of unread conversations

A conversation with unread messages gets a badge if one of them calls attention. The messages are
read page by page, newest first, one conversation after another, while snapshots keep coming in.
What a snapshot says of the unread messages is its stamp. A reply counts only as long as the stamp
it was requested for is the one of the conversation.
-/

namespace GChat

namespace Badges

open Foundation

structure Member where
  nickname : List ℕ
  isSelf : Bool

structure Message where
  mine : Bool
  highlighted : Bool
  body : List ℕ

structure Conversation where
  id : String
  unread : ℕ
  lastMessageId : Option String
  muted : Bool
  members : List Member

structure Instance where
  id : String
  bootId : String
  locked : Bool

structure Snapshot where
  instance' : Instance
  conversations : List Conversation

/-! ### Attention -/

def isSpaceUnit (u : ℕ) : Bool := isSpace (Char.ofNat u)

/-- The units that no mentioned name holds: white space and `@.,;:!?()[]` with the other
brackets. -/
def endsName (u : ℕ) : Bool :=
  isSpaceUnit u || [64, 46, 44, 59, 58, 33, 63, 40, 41, 91, 93, 123, 125, 60, 62].contains u

/-- The units before which a mention can begin: white space and opening brackets. -/
def opensMention (u : ℕ) : Bool := isSpaceUnit u || [40, 91, 123].contains u

/-- The name of a mention that begins at the front, behind its `@`. -/
def mentionAt : List ℕ → Option (List ℕ)
  | 64 :: text =>
      let name := text.takeWhile fun u => !endsName u
      if name = [] then none else some name
  | _ => none

/-- The mentioned names, found one behind another. `start` is the beginning of the whole text. -/
def mentions : ℕ → Bool → List ℕ → List (List ℕ)
  | 0, _, _ => []
  | _ + 1, _, [] => []
  | n + 1, start, u :: text =>
      match (if start then mentionAt (u :: text) else none) with
      | some name => name :: mentions n false (text.drop name.length)
      | none =>
          match (if opensMention u then mentionAt text else none) with
          | some name => name :: mentions n false (text.drop (name.length + 1))
          | none => mentions n false text

def callsAttention (lowercase : List ℕ → List ℕ) (message : Message)
    (conversation : Conversation) : Bool :=
  if message.mine then false
  else if message.highlighted then true
  else
    let text := lowercase ((Irc.ircFormat message.body).flatMap fun segment => segment.text)
    let mentioned := mentions (text.length + 1) true text
    (conversation.members.filter (·.isSelf)).any fun member =>
      let name := lowercase member.nickname
      !name.isEmpty && (mentioned.contains name || (name ++ [58]).isPrefixOf text ||
        (name ++ [44]).isPrefixOf text)

/-! ### The tracker -/

/-- What a snapshot says of the unread messages of a conversation. -/
structure Stamp where
  instanceId : String
  bootId : String
  lastMessageId : Option String
  unread : ℕ
deriving DecidableEq

def stampOf (instance' : Instance) (conversation : Conversation) : Stamp :=
  ⟨instance'.id, instance'.bootId, conversation.lastMessageId, conversation.unread⟩

structure Job (Transport : Type) where
  stamp : Stamp
  conversation : Conversation
  transport : Transport

/-- The job that waits for a page. -/
structure Scan (Transport : Type) where
  id : String
  job : Job Transport
  generation : ℕ
  remaining : ℕ
  before : Option String
  cursors : List String

structure Highlights (Transport : Type) where
  stamps : String → Option Stamp
  queue : List (String × Job Transport)
  badges : String → Bool
  generation : ℕ
  scan : Option (Scan Transport)

/-- What a request for a page ends with. -/
inductive Reply where
  | history (page : Page Message)
  | other
  | failed

section Tracker

variable {Transport : Type} (lowercase : List ℕ → List ℕ)

namespace Highlights

def empty : Highlights Transport := ⟨fun _ => none, [], fun _ => false, 0, none⟩

def clear (s : Highlights Transport) : Highlights Transport :=
  { s with
    generation := s.generation + 1
    stamps := fun _ => none
    queue := []
    badges := fun _ => false }

/-- Whether the reply to a scan still counts. -/
def current (s : Highlights Transport) (scan : Scan Transport) : Bool :=
  scan.generation == s.generation && s.stamps scan.id == some scan.job.stamp

/-- The end of a scan. -/
def settle (s : Highlights Transport) (scan : Scan Transport) (found : Bool) :
    Highlights Transport :=
  if s.current scan then { s with badges := Function.update s.badges scan.id found } else s

/-- The scan of the first job that has something to read. -/
def drainFrom : List (String × Job Transport) → Highlights Transport → Highlights Transport
  | [], s => { s with queue := [], scan := none }
  | (id, job) :: queue, s =>
      let scan : Scan Transport := ⟨id, job, s.generation, job.conversation.unread, none, []⟩
      if 0 < scan.remaining ∧ s.current scan then { s with queue := queue, scan := some scan }
      else drainFrom queue (s.settle scan false)

def drain (s : Highlights Transport) : Highlights Transport :=
  match s.scan with
  | some _ => s
  | none => drainFrom s.queue s

def forget (s : Highlights Transport) (id : String) : Highlights Transport :=
  { s with
    stamps := Function.update s.stamps id none
    queue := s.queue.filter fun entry => entry.1 != id
    badges := Function.update s.badges id false }

/-- Forget the conversations with a stamp that are not available. -/
def prune (s : Highlights Transport) (available : String → Bool) : Highlights Transport :=
  let keeps := fun id => (s.stamps id).isNone || available id
  { s with
    stamps := fun id => if keeps id then s.stamps id else none
    queue := s.queue.filter fun entry => keeps entry.1
    badges := fun id => keeps id && s.badges id }

def observe (instance' : Instance) (transport : Transport) (s : Highlights Transport)
    (conversation : Conversation) : Highlights Transport :=
  if conversation.unread = 0 ∨ conversation.muted then s.forget conversation.id
  else
    let stamp := stampOf instance' conversation
    if s.stamps conversation.id = some stamp then s
    else
      let entry := (conversation.id, (⟨stamp, conversation, transport⟩ : Job Transport))
      { s with
        stamps := Function.update s.stamps conversation.id (some stamp)
        queue := upsert (fun other => other.1 == conversation.id) (fun _ => entry) entry s.queue }

def update (s : Highlights Transport) (snapshot : Snapshot) (transport : Transport) :
    Highlights Transport :=
  if snapshot.instance'.locked then s.clear
  else
    let available := fun id => snapshot.conversations.any fun c => c.id == id
    drain (snapshot.conversations.foldl (observe snapshot.instance' transport) (s.prune available))

/-- One page of a scan that still counts: the next request, or the end. -/
def read (s : Highlights Transport) (scan : Scan Transport) (page : Page Message) :
    Highlights Transport :=
  let incoming := (page.entries.filter fun m => !m.mine).rtake scan.remaining
  if incoming.any fun m => callsAttention lowercase m scan.job.conversation then
    s.settle scan true
  else
    let remaining := scan.remaining - incoming.length
    match page.before with
    | none => s.settle scan false
    | some before =>
        if before = "" ∨ before ∈ scan.cursors then s.settle scan false
        else
          let scan := { scan with
            remaining := remaining, before := some before, cursors := before :: scan.cursors }
          if 0 < remaining ∧ s.current scan then { s with scan := some scan }
          else s.settle scan false

/-- The reply to the request of the scan. The next job starts where the scan has ended. -/
def receive (s : Highlights Transport) (reply : Reply) : Highlights Transport :=
  match s.scan with
  | none => s
  | some scan =>
      let idle := { s with scan := none }
      match reply with
      | .history page => drain (if s.current scan then idle.read lowercase scan page else idle)
      | _ => drain idle

end Highlights

inductive Event (Transport : Type) where
  | update (snapshot : Snapshot) (transport : Transport)
  | clear
  | reply (reply : Reply)

def Highlights.step (s : Highlights Transport) : Event Transport → Highlights Transport
  | .update snapshot transport => s.update snapshot transport
  | .clear => s.clear
  | .reply reply => s.receive lowercase reply

end Tracker

end Badges

end GChat
