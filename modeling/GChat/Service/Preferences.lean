import GChat.Service.Persistence

/-!
# The local commands

`/mute`, `/ignore`, `/unignore`, `/highlight`, `/alias` and `/unalias` change the preferences of
a profile and make no call to the protocol. The first three are about a conversation; what they
keep is filed under its identifier.
-/

namespace GChat

namespace Service

open Foundation Commands

/-- A member of a conversation as it is projected. -/
structure RoomMember where
  id : String
  nickname : String
  isSelf : Bool

/-- What the local commands read of a conversation. -/
structure Room where
  id : String
  members : List RoomMember

/-! ### Conversations -/

def Preferences.mutes (p : Preferences) (conversation : String) : Bool :=
  p.muted.contains conversation

def Preferences.mute (p : Preferences) (room : Room) (args : String) : Except String Preferences :=
  let args := toAsciiLowercase args
  if args = "on" then .ok { p with muted := p.muted.insert room.id () }
  else if args = "off" then .ok { p with muted := p.muted.erase room.id }
  else if args = "" then .ok p
  else .error "Use /mute on|off"

/-- The members that are ignored in a conversation. -/
def Preferences.ignoredIn (p : Preferences) (conversation : String) : StringSet :=
  p.ignored[conversation]?.getD ∅

def Preferences.setIgnored (p : Preferences) (conversation : String) (members : StringSet) :
    Preferences :=
  { p with ignored := p.ignored.insert conversation members }

/-- One other member, by identifier or by nickname; an identifier that is ignored can be named
in any case to be shown again. -/
def Room.filterTarget (room : Room) (ignored : StringSet) (command args : String) :
    Option String :=
  let absent := if command = "/unignore" ∧ ignored.contains args then some args else none
  match room.members.filter fun m => m.id == args || eqIgnoreAsciiCase m.nickname args with
  | [m] => if m.isSelf then absent else some m.id
  | _ => absent

def Preferences.filter (p : Preferences) (room : Room) (command args : String) :
    Except String (Preferences × List String) :=
  let ignored := p.ignoredIn room.id
  if args = "" ∧ command = "/ignore" then .ok (p.setIgnored room.id ignored, ignored.keys)
  else
    match room.filterTarget ignored command args with
    | none => .error "Choose one other member by exact scoped ID or unambiguous nickname"
    | some id =>
        if command = "/ignore" then
          if 500 ≤ ignored.size then .error "Ignore list is full"
          else .ok (p.setIgnored room.id (ignored.insert id ()), ["Local scoped filter updated"])
        else .ok (p.setIgnored room.id (ignored.erase id), ["Local scoped filter updated"])

/-! ### Words and aliases -/

section Words

-- the lower case of Unicode text
variable (lowercase : String → String)

def Preferences.highlight (p : Preferences) (args : String) : Except String Preferences :=
  let (action, value) := splitHead args
  let value := lowercase value
  let action := toAsciiLowercase action
  if action = "add" ∧ value ≠ "" ∧ value.utf8ByteSize ≤ 128 ∧ value.toList.any isControl = false then
    if 64 ≤ p.highlights.size then .error "Highlight limit reached"
    else .ok { p with highlights := p.highlights.insert value () }
  else if action = "remove" then .ok { p with highlights := p.highlights.erase value }
  else if action = "list" ∨ action = "" then .ok p
  else .error "Use /highlight add text|remove text|list (up to 128 bytes)"

/-- Define an alias, or with `define` off remove it. -/
def editAlias (builtin : List String) (aliases : StringMap String) (define : Bool)
    (args : String) : Except String (StringMap String) :=
  let (name, expansion) := splitHead args
  let name := "/" ++ toAsciiLowercase (String.ofList (name.toList.dropWhile (· == '/')))
  if name.utf8ByteSize < 2 || 33 < name.utf8ByteSize || !(name.toList.drop 1).all isAliasChar then
    .error "Use an alias name of 1–32 letters, numbers or dashes"
  else if !define then .ok (aliases.erase name)
  else if builtin.contains name then .error "An alias cannot replace a built-in command"
  else if aliasTargets.contains (headWord expansion) = true then
    if 1024 < expansion.utf8ByteSize || expansion.toList.any ['\n', '\r', '\x00'].contains then
      .error "Choose one chat or information command, up to 1024 bytes"
    else if 64 ≤ aliases.size then .error "Alias limit reached"
    else .ok (aliases.insert name expansion)
  else .error "Choose one chat or information command, up to 1024 bytes"

/-- The table that the edit of an alias leaves. -/
theorem edit_table (builtin : List String) (aliases : Aliases) (define : Bool) (args : String) :
    (aliases.edit builtin define args).map (·.table) =
      editAlias builtin aliases.table define args := by
  unfold Aliases.edit editAlias
  dsimp only
  split
  · rfl
  · split
    · rfl
    · split
      · rfl
      · split
        · split
          · rfl
          · split
            · rfl
            · rfl
        · rfl

def Preferences.alias (p : Preferences) (builtin : List String) (command args : String) :
    Except String (Preferences × List String) :=
  if (splitHead args).1 = "" ∧ command = "/alias" then
    .ok (p, p.aliases.toList.map fun e => e.1 ++ " " ++ e.2)
  else
    (editAlias builtin p.aliases (command = "/alias") args).map fun aliases =>
      ({ p with aliases := aliases }, ["Local aliases updated"])

/-! ### The commands -/

/-- The preferences after a local command, with the lines it answers. `room` is the conversation
it is entered in, `builtin` the names that no alias may take there. -/
def submitPreference (builtin : List String) (p : Preferences) (room : Option Room)
    (text : String) : Except String (Preferences × List String) :=
  let command := headWord text
  let args := (splitHead text).2
  if command = "/mute" then do
    let room ← okOr room "Open a conversation first"
    let p ← p.mute room args
    pure (p, ["Conversation muted: " ++ toString (p.mutes room.id)])
  else if command = "/ignore" ∨ command = "/unignore" then do
    let room ← okOr room "Open a conversation first"
    p.filter room command args
  else if command = "/highlight" then
    (p.highlight lowercase args).map fun p => (p, p.highlights.keys)
  else if command = "/alias" ∨ command = "/unalias" then p.alias builtin command args
  else .error "Unknown preference command"

end Words

/-! ### What a command leaves alone -/

/-- Nothing is filed under another conversation than before or than the given one. -/
structure Preferences.FiledUnder (room : Option Room) (p q : Preferences) : Prop where
  muted : ∀ k, q.muted.contains k = true → p.muted.contains k = true ∨ room.map (·.id) = some k
  ignored : ∀ k, q.ignored.contains k = true →
    p.ignored.contains k = true ∨ room.map (·.id) = some k

namespace Preferences

variable {p q : Preferences} {room : Room}

theorem FiledUnder.of_eq (room : Option Room) (hmuted : q.muted = p.muted)
    (hignored : q.ignored = p.ignored) : p.FiledUnder room q :=
  ⟨fun _ h => Or.inl (hmuted ▸ h), fun _ h => Or.inl (hignored ▸ h)⟩

theorem filedUnder_mute {args : String} (h : p.mute room args = .ok q) :
    p.FiledUnder (some room) q := by
  unfold mute at h
  dsimp only at h
  split at h
  · cases h
    refine ⟨fun k hk => ?_, fun k => Or.inl⟩
    rw [Std.ExtTreeMap.contains_insert, Bool.or_eq_true, beq_iff_eq,
      Std.compare_eq_iff_eq] at hk
    obtain hk | hk := hk
    · exact Or.inr (congrArg some hk)
    · exact Or.inl hk
  · split at h
    · cases h
      refine ⟨fun k hk => Or.inl ?_, fun k => Or.inl⟩
      rw [Std.ExtTreeMap.contains_erase, Bool.and_eq_true] at hk
      exact hk.2
    · split at h
      · cases h
        exact FiledUnder.of_eq _ rfl rfl
      · cases h

theorem filedUnder_setIgnored (p : Preferences) (room : Room) (members : StringSet) :
    p.FiledUnder (some room) (p.setIgnored room.id members) := by
  refine ⟨fun k => Or.inl, fun k hk => ?_⟩
  rw [setIgnored, Std.ExtTreeMap.contains_insert, Bool.or_eq_true, beq_iff_eq,
    Std.compare_eq_iff_eq] at hk
  obtain hk | hk := hk
  · exact Or.inr (congrArg some hk)
  · exact Or.inl hk

theorem filedUnder_filter {command args : String} {lines : List String}
    (h : p.filter room command args = .ok (q, lines)) : p.FiledUnder (some room) q := by
  unfold filter at h
  dsimp only at h
  split at h
  · cases h
    exact filedUnder_setIgnored p room _
  · split at h
    · cases h
    · split at h
      · split at h
        · cases h
        · cases h
          exact filedUnder_setIgnored p room _
      · cases h
        exact filedUnder_setIgnored p room _

theorem filedUnder_highlight {lowercase : String → String} {args : String}
    (h : p.highlight lowercase args = .ok q) (room : Option Room) : p.FiledUnder room q := by
  unfold highlight at h
  dsimp only at h
  split at h
  · split at h
    · cases h
    · cases h
      exact FiledUnder.of_eq room rfl rfl
  · split at h
    · cases h
      exact FiledUnder.of_eq room rfl rfl
    · split at h
      · cases h
        exact FiledUnder.of_eq room rfl rfl
      · cases h

/-- A local command files what it keeps under the conversation it is entered in. -/
theorem filedUnder_submit {lowercase : String → String} {builtin : List String}
    {room : Option Room} {text : String} {lines : List String}
    (h : submitPreference lowercase builtin p room text = .ok (q, lines)) :
    p.FiledUnder room q := by
  unfold submitPreference at h
  dsimp only at h
  split at h
  · obtain ⟨r, hroom, h⟩ := bind_eq_ok.mp h
    obtain ⟨q', hmute, h⟩ := bind_eq_ok.mp h
    cases pure_eq_ok.mp h
    rw [okOr_eq_ok.mp hroom]
    exact filedUnder_mute hmute
  · split at h
    · obtain ⟨r, hroom, h⟩ := bind_eq_ok.mp h
      rw [okOr_eq_ok.mp hroom]
      exact filedUnder_filter h
    · split at h
      · obtain ⟨q', hhighlight, heq⟩ := map_eq_ok.mp h
        cases heq
        exact filedUnder_highlight hhighlight room
      · split at h
        · unfold Preferences.alias at h
          split at h
          · cases h
            exact FiledUnder.of_eq room rfl rfl
          · obtain ⟨aliases, -, heq⟩ := map_eq_ok.mp h
            cases heq
            exact FiledUnder.of_eq room rfl rfl
        · cases h

end Preferences

end Service

end GChat
