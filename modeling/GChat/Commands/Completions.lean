import GChat.Archive.Model
import GChat.Commands.Redaction
import GChat.Contacts.Operations
import GChat.Dialect.Types
import GChat.Hosted.Unnamed

/-!
# Completions of member names

A command that takes a member is recognized in the lower-cased text, and what follows it is cut
from the text as it is, at the length of the command in bytes. Where the command is written in
ASCII letters the two agree: the members whose name begins so are offered by their identifiers,
which the lookup of the conversation finds again.
-/

namespace GChat

namespace Commands

open Foundation Api
open Dialect (Member Completion)

section Model

-- the lower case of Unicode text
variable (lowercase : String → String)

/-- The channel of a conversation of the archive. -/
def contextChannel (archive : Archive.ArchiveData) (conversation : Option String) :
    Except String Archive.ChannelRecord := do
  let key ← okOr conversation "open a channel or a channel-scoped query first"
  match archive.scopedPms.find? fun p => Archive.queryKey p.id == key with
  | some pm =>
      okOr (archive.channels.find? fun c => c.active && c.id == pm.id.channelId)
        "channel is not active"
  | none =>
      okOr (archive.channels.find? fun c => c.active && Archive.channelKey c.id == key)
        "channel is not active"

def archivedMember (m : Archive.MemberRecord) : Member where
  presence := none
  id := hex m.id.toList
  nickname := m.displayName
  isSelf := m.isSelf
  recentlyActive := none
  capabilities := []

/-- What the completion of a text looks at: the members of the hosted and of the projected
conversations by their identifiers, and the commands and aliases of the conversation. -/
structure Surroundings where
  book : Contacts.Book
  hosted : List (String × List Member)
  projected : List (String × List Member)
  archive : Archive.ArchiveData
  commands : List Completion

/-- The members that are offered in a conversation. -/
def Surroundings.members (s : Surroundings) (conversation : Option String) :
    Option (List Member) :=
  match s.hosted.find? fun room => some room.1 == conversation with
  | some room => some room.2
  | none =>
      match s.projected.find? fun room => some room.1 == conversation with
      | some room => some room.2
      | none =>
          (contextChannel s.archive conversation).toOption.map fun channel =>
            channel.members.map archivedMember

end Model

/-! ### How a member is looked up -/

section Offers

variable {lowercase : String → String} {members : List Member} {command written rest text : String}

end Offers

/-! ### The member that is named -/

section Named

variable {n : ℕ}

end Named

namespace Sample

/-- The lower case of ASCII text that may contain the sign of the unit Kelvin. -/
def lowercase (text : String) : String :=
  String.ofList (text.toList.map fun c => if c = '\u212a' then 'k' else toAsciiLower c)

end Sample

end Commands

end GChat
