import GChat.Foundation.Words
import GChat.Journal.Model

/-!
# Commands

A submitted text is read four times: to route it, to choose its lock, to keep it for
recall without secrets, and to execute it. `handles` trims the text before it looks for
the command, the lock and the executing parsers do not; the lock compares with the case of
the letters, the others without. Aliases are expanded for routing and execution only.
-/

namespace GChat

namespace Commands

open Foundation
open Journal (expand)

def startsWith (text beginning : String) : Bool := beginning.toList.isPrefixOf text.toList

theorem startsWith_iff (text beginning : String) :
    startsWith text beginning = true ↔ beginning.toList <+: text.toList :=
  List.isPrefixOf_iff_prefix

/-- The command of a text, in lower case. -/
def headWord (text : String) : String := toAsciiLowercase (splitHead text).1

/-! ### Preferences -/

def preferenceCommands : List String :=
  ["/mute", "/ignore", "/unignore", "/highlight", "/alias", "/unalias"]

def preferencesHandles (text : String) : Bool := preferenceCommands.contains (headWord text)

/-- Commands an alias may stand for. -/
def aliasTargets : List String :=
  ["/say", "/me", "/notice", "/who", "/whois", "/names", "/topic", "/away", "/back", "/ping",
    "/help", "/status", "/refresh"]

/-- Aliases stand for chat and information commands only. -/
structure Aliases where
  table : StringMap String
  targets : ∀ (name expansion : String), table[name]? = some expansion →
    aliasTargets.contains (headWord expansion) = true

def Aliases.empty : Aliases where
  table := ∅
  targets name expansion h := by
    rw [Std.ExtTreeMap.getElem?_empty] at h
    cases h

def isAliasChar (c : Char) : Bool := c.isAlphanum || c == '-'

/-- Define an alias, or with `define` off remove it. -/
def Aliases.edit (builtin : List String) (aliases : Aliases) (define : Bool) (args : String) :
    Except String Aliases :=
  let (name, expansion) := splitHead args
  let name := "/" ++ toAsciiLowercase (String.ofList (name.toList.dropWhile (· == '/')))
  if name.utf8ByteSize < 2 || 33 < name.utf8ByteSize || !(name.toList.drop 1).all isAliasChar then
    .error "Use an alias name of 1–32 letters, numbers or dashes"
  else if !define then
    .ok {
      table := aliases.table.erase name
      targets := by
        intro other expansion h
        rw [StringMap.get_erase] at h
        split at h
        · cases h
        · exact aliases.targets other expansion h }
  else if builtin.contains name then .error "An alias cannot replace a built-in command"
  else if htarget : aliasTargets.contains (headWord expansion) = true then
    if 1024 < expansion.utf8ByteSize || expansion.toList.any ['\n', '\r', '\x00'].contains then
      .error "Choose one chat or information command, up to 1024 bytes"
    else if 64 ≤ aliases.table.size then .error "Alias limit reached"
    else
      .ok {
        table := aliases.table.insert name expansion
        targets := by
          intro other text h
          rw [StringMap.get_insert] at h
          split at h
          · cases h
            exact htarget
          · exact aliases.targets other text h }
  else .error "Choose one chat or information command, up to 1024 bytes"

/-! ### Routing -/

def isContact (id : String) : Bool := startsWith id "contact/"

def isHosted (id : String) : Bool := startsWith id "hosted/"

def isExtension (id : String) : Bool := startsWith id "extension/cmd/"

def globalCommand (text : String) : Bool :=
  preferencesHandles text || eqIgnoreAsciiCase text "/contact" ||
    ["/network", "/status", "/create", "/join", "/lock", "/quit", "/disconnect"].contains
      (toAsciiLowercase text)

def contactsHandles (conversation : Option String) (text : String) : Bool :=
  let command := (splitHead text).1
  eqIgnoreAsciiCase command "/contact" ||
    (conversation.any isContact && !globalCommand command &&
      !eqIgnoreAsciiCase command "/list" && !eqIgnoreAsciiCase command "/hosted")

def hostedHandles (conversation : Option String) (text : String) : Bool :=
  let command := (splitHead text).1
  eqIgnoreAsciiCase command "/hosted" ||
    (conversation.any isHosted && !globalCommand command)

def contactCommands : List String :=
  ["/contact", "/say", "/me", "/notice", "/whois", "/away", "/back", "/presence", "/block",
    "/unblock", "/query", "/hide", "/close", "/help"]

def hostedCommands : List String :=
  ["/help", "/list", "/publish", "/say", "/me", "/notice", "/topic", "/nick", "/mode", "/invite",
    "/links", "/motd", "/rules", "/admin", "/server-info", "/kick", "/owner", "/part",
    "/close-channel", "/away", "/back", "/presence", "/names", "/who", "/whois", "/whowas",
    "/ping", "/refresh", "/hide", "/close"]

def networkArguments (text : String) : Option String :=
  let (name, args) := splitHead text
  if eqIgnoreAsciiCase name "/network" then some args else none

/-! ### Validation -/

def contactsValidate (conversation : Option String) (text : String) : Except String Unit :=
  if Journal.commandInputLimit text < text.utf8ByteSize then
    .error "Contact input exceeds its bound"
  else if eqIgnoreAsciiCase (splitHead text).1 "/contact" then .ok ()
  else if !conversation.any isContact then .error "Open a contact conversation first"
  else if (afterSlash text).isNone ||
      contactCommands.any fun name => eqIgnoreAsciiCase name (splitHead text).1 then .ok ()
  else .error "Use /help for independent contact commands"

def hostedValidate (conversation : Option String) (text : String) : Except String Unit :=
  if 8192 < text.utf8ByteSize then
    .error "Hosted messages accept at most 8192 UTF-8 bytes"
  else if (afterSlash text).isNone then
    if conversation.any isHosted then .ok () else .error "Open a hosted channel first"
  else if headWord text = "/hosted" || hostedCommands.contains (headWord text) then .ok ()
  else .error "Command unavailable in this hosted channel; use /help"

def relayArguments : List String := ["relay auto", "relay off", "relay status"]

def dnsArguments : List String := ["dns on", "dns off", "dns status"]

/-- What an instance grants, and its own checks of texts of the other families. -/
structure Instance where
  directMessage : Bool
  hostedChannels : Bool
  validateChannel : Option String → String → Except String Unit

def Instance.validateSubmission (service : Instance) (conversation : Option String)
    (text : String) : Except String Unit :=
  if preferencesHandles text then .ok ()
  else if contactsHandles conversation text then
    if service.directMessage then contactsValidate conversation text
    else .error "this instance does not grant the requested operation"
  else if hostedHandles conversation text then
    if service.hostedChannels then hostedValidate conversation text
    else .error "this instance does not grant the requested operation"
  else
    match networkArguments text with
    | some args =>
        if startsWith args "join GCNI1-" || dnsArguments.contains args ||
            relayArguments.contains args then .ok ()
        else
          .error "Usage: /network join invitation-code | dns on|off|status | relay auto|off|status"
    | none => service.validateChannel conversation text

/-! ### Execution -/

/-- What is executed: a command of one of the families, in lower case, or a message. -/
inductive Executed where
  | preference (command args : String)
  | contact (command args : String)
  | hosted (command args : String)
  | network (args : String)
  | extension (command args : String)
  | channel (command args : String)
  | message (text : String)
deriving DecidableEq

/-- The command and the arguments of a text. What does not start with a slash is said. -/
def slashCommand (text : String) : String × String :=
  match afterSlash text with
  | some rest => splitHead rest
  | none => ("say", text)

def submitContact (conversation : Option String) (text : String) : Except String Executed :=
  let (command, args) := slashCommand text
  let command := toAsciiLowercase command
  if command = "contact" then .ok (.contact command args)
  else if !conversation.any isContact then .error "Open an independent contact conversation"
  else if contactCommands.contains ("/" ++ command) then .ok (.contact command args)
  else .error "Use /help for contact commands"

def submitHosted (conversation : Option String) (text : String) : Except String Executed :=
  let (command, args) := slashCommand text
  let command := toAsciiLowercase command
  if command = "list" || command = "hosted" then .ok (.hosted command args)
  else if conversation.isNone then .error "Open a hosted channel"
  else if hostedCommands.contains ("/" ++ command) then .ok (.hosted command args)
  else .error "Unknown hosted command; use /help"

/-- Commands that an extension conversation leaves to the client. -/
def clientCommands : List String :=
  ["help", "status", "list", "close", "hide", "refresh", "join"]

def submitChannel (conversation : Option String) (text : String) : Executed :=
  let (command, args) := slashCommand text
  let command := toAsciiLowercase command
  if conversation.any isExtension && !clientCommands.contains command then
    .extension command args
  else
    match afterSlash text with
    | some _ => .channel command args
    | none => .message text

def submit (conversation : Option String) (text : String) : Except String Executed :=
  match (networkArguments text).filter relayArguments.contains with
  | some args => .ok (.network args)
  | none =>
      if preferencesHandles text then
        .ok (.preference (headWord text) (splitHead text).2)
      else if contactsHandles conversation text then submitContact conversation text
      else if hostedHandles conversation text then submitHosted conversation text
      else
        match (networkArguments text).filter fun args =>
            dnsArguments.contains args || startsWith args "join " with
        | some args => .ok (.network args)
        | none => .ok (submitChannel conversation text)

/-! ### Locks and recall -/

def ordinaryCommands : List String := ["say", "me", "join", "create"]

/-- Whether a submission shares the lock of the operations. -/
def ordinarySend (text : String) : Bool :=
  (afterSlash text).isNone ||
    (splitWhitespace text).head?.any fun word => (ordinaryCommands.map ("/" ++ ·)).contains word

/-- What is kept of a text for recall. -/
inductive Recall where
  | contact
  | hosted
  | reconnect
  | status (args : String)
  | network
  | join
  | whole
deriving DecidableEq

def networkRecall (args : String) : Recall :=
  if dnsArguments.contains args || relayArguments.contains args then .status args else .network

def contactRecall (args : String) : Recall :=
  if ["add", "update"].contains (headWord args) then .contact else .whole

def joinRecall (args : String) : Recall :=
  if !startsWith args "#" && !startsWith args "extension/cmd/" then .join else .whole

def recallClass (text : String) : Recall :=
  let (name, args) := splitHead text
  if eqIgnoreAsciiCase name "/contact" && contactRecall args = .contact then .contact
  else if eqIgnoreAsciiCase name "/hosted" then .hosted
  else if eqIgnoreAsciiCase name "/reconnect" then .reconnect
  else if eqIgnoreAsciiCase name "/network" then networkRecall args
  else if eqIgnoreAsciiCase name "/join" && joinRecall args = .join then .join
  else .whole

def recallText (text : String) : String :=
  match recallClass text with
  | .contact => "/contact "
  | .hosted => "/hosted "
  | .reconnect => "/reconnect"
  | .status args => "/network " ++ args
  | .network => "/network join "
  | .join => "/join "
  | .whole => text

/-- The lock that what is executed should take. -/
def Executed.ordinary : Executed → Bool
  | .preference .. | .network .. => false
  | .contact command _ | .hosted command _ | .extension command _ | .channel command _ =>
      ordinaryCommands.contains command
  | .message _ => true

/-- What should be kept of a command outside the contact, hosted and network families. -/
def channelRecall (command args : String) : Recall :=
  if command = "reconnect" then .reconnect
  else if command = "join" then joinRecall args
  else .whole

/-- What should be kept of what is executed. -/
def Executed.recall : Executed → Recall
  | .preference .. | .message _ => .whole
  | .contact command args => if command = "contact" then contactRecall args else .whole
  | .hosted command _ => if command = "hosted" then .hosted else .whole
  | .network args => networkRecall args
  | .extension command args | .channel command args => channelRecall command args

end Commands

end GChat
