import GChat.Commands.Catalogue
import GChat.Foundation.Machine
import GChat.Service.Preferences

/-!
# Aliases

An alias is defined in one conversation and used in all of them. While no definition takes the name
of a command that its conversation does not list, no alias captures a command, and what an alias
stands for is not expanded again.
-/

namespace GChat

namespace Service

open Foundation Commands
open Journal (expand)

/-- A local command that is entered, and whether its result is saved. -/
structure Entry where
  grants : Grants
  projected : List (String × List String)
  conversation : Option String
  room : Option Room
  text : String
  saved : Bool

/-- The name that `/alias` defines. -/
def aliasName (args : String) : String :=
  "/" ++ toAsciiLowercase (String.ofList ((splitHead args).1.toList.dropWhile (· == '/')))

section Entries

variable (lowercase : String → String)

/-- The preferences after an entry. They are published once they are saved. -/
def Preferences.enter (p : Preferences) (e : Entry) : Preferences :=
  match submitPreference lowercase (e.grants.builtin e.projected e.conversation) p e.room e.text with
  | .error _ => p
  | .ok (q, _) => if e.saved then q else p

/-- The preferences of a profile from its creation on, in any conversations and under any grants. -/
def preferenceMachine : Machine Preferences Entry :=
  .ofFun .default (Preferences.enter lowercase)

end Entries

/-- An alias that is defined takes no command that is missing in its conversation. -/
def Entry.Listed (e : Entry) : Prop :=
  headWord e.text = "/alias" → aliasName (splitHead e.text).2 ∉ e.grants.missing e.conversation

/-! ### Definitions -/

section Definitions

variable {lowercase : String → String} {builtin : List String} {p q : Preferences}
  {room : Option Room} {text : String} {lines : List String}

/-- What the edit of an alias does. -/
theorem editAlias_eq_ok {aliases after : StringMap String} {define : Bool} {args : String}
    (h : editAlias builtin aliases define args = .ok after) :
    after = aliases.erase (aliasName args) ∨
      define = true ∧ aliasName args ∉ builtin ∧
        aliasTargets.contains (headWord (splitHead args).2) = true ∧
        after = aliases.insert (aliasName args) (splitHead args).2 := by
  unfold editAlias at h
  obtain ⟨name, hname⟩ : ∃ name, name = aliasName args := ⟨_, rfl⟩
  unfold aliasName at hname
  dsimp only at h
  rw [← hname] at h
  rw [aliasName, ← hname]
  split at h
  · cases h
  · split at h
    · cases h
      exact Or.inl rfl
    next hdefine =>
      split at h
      · cases h
      next hbuiltin =>
        split at h
        next htarget =>
          split at h
          · cases h
          · split at h
            · cases h
            · cases h
              refine Or.inr ⟨by simpa using hdefine, ?_, htarget, rfl⟩
              intro hmem
              exact hbuiltin (List.contains_iff_mem.mpr hmem)
        · cases h

theorem aliases_filter {command args : String} {inRoom : Room}
    (h : p.filter inRoom command args = .ok (q, lines)) : q.aliases = p.aliases := by
  unfold Preferences.filter at h
  dsimp only at h
  split at h
  · cases h
    rfl
  · split at h
    · cases h
    · split at h
      · split at h
        · cases h
        · cases h
          rfl
      · cases h
        rfl

/-- What a local command does to the aliases. -/
theorem aliases_submit (h : submitPreference lowercase builtin p room text = .ok (q, lines)) :
    q.aliases = p.aliases ∨
      editAlias builtin p.aliases (headWord text = "/alias") (splitHead text).2 =
        .ok q.aliases := by
  unfold submitPreference at h
  dsimp only at h
  split at h
  · obtain ⟨inRoom, -, h⟩ := bind_eq_ok.mp h
    obtain ⟨muted, hmute, h⟩ := bind_eq_ok.mp h
    cases pure_eq_ok.mp h
    left
    unfold Preferences.mute at hmute
    dsimp only at hmute
    split at hmute
    · cases hmute
      rfl
    · split at hmute
      · cases hmute
        rfl
      · split at hmute
        · cases hmute
          rfl
        · cases hmute
  · split at h
    · obtain ⟨inRoom, -, h⟩ := bind_eq_ok.mp h
      exact Or.inl (aliases_filter h)
    · split at h
      · obtain ⟨after, hafter, heq⟩ := map_eq_ok.mp h
        cases heq
        left
        unfold Preferences.highlight at hafter
        dsimp only at hafter
        split at hafter
        · split at hafter
          · cases hafter
          · cases hafter
            rfl
        · split at hafter
          · cases hafter
            rfl
          · split at hafter
            · cases hafter
              rfl
            · cases hafter
      · split at h
        · unfold Preferences.alias at h
          split at h
          · cases h
            exact Or.inl rfl
          · obtain ⟨aliases, haliases, heq⟩ := map_eq_ok.mp h
            cases heq
            exact Or.inr haliases
        · cases h

end Definitions

/-! ### Tables without commands -/

/-- No alias has the name of a command, and each stands for a permitted one. -/
structure CommandFree (aliases : StringMap String) : Prop where
  names : ∀ (name expansion : String), aliases[name]? = some expansion → name ∉ executedCommands
  targets : ∀ (name expansion : String), aliases[name]? = some expansion →
    aliasTargets.contains (headWord expansion) = true

section Runs

variable {lowercase : String → String} {p : Preferences} {e : Entry}

theorem commandFree_default : CommandFree Preferences.default.aliases where
  names name expansion h := by
    rw [Preferences.default, Std.ExtTreeMap.getElem?_empty] at h
    cases h
  targets name expansion h := by
    rw [Preferences.default, Std.ExtTreeMap.getElem?_empty] at h
    cases h

theorem CommandFree.erase {aliases : StringMap String} (h : CommandFree aliases) (name : String) :
    CommandFree (aliases.erase name) where
  names other expansion hother := by
    rw [StringMap.get_erase] at hother
    split at hother
    · cases hother
    · exact h.names other expansion hother
  targets other expansion hother := by
    rw [StringMap.get_erase] at hother
    split at hother
    · cases hother
    · exact h.targets other expansion hother

theorem CommandFree.insert {aliases : StringMap String} (h : CommandFree aliases) {name expansion : String}
    (hname : name ∉ executedCommands) (htarget : aliasTargets.contains (headWord expansion) = true) :
    CommandFree (aliases.insert name expansion) where
  names other text hother := by
    rw [StringMap.get_insert] at hother
    split at hother
    next heq =>
      rw [← heq]
      exact hname
    · exact h.names other text hother
  targets other text hother := by
    rw [StringMap.get_insert] at hother
    split at hother
    · cases hother
      exact htarget
    · exact h.targets other text hother

theorem commandFree_enter (h : CommandFree p.aliases) (he : e.Listed) :
    CommandFree (p.enter lowercase e).aliases := by
  rw [Preferences.enter]
  split
  · exact h
  next q lines hsubmit =>
    split
    · rcases aliases_submit hsubmit with heq | hedit
      · rw [heq]
        exact h
      · rcases editAlias_eq_ok hedit with heq | ⟨hdefine, hbuiltin, htarget, heq⟩
        · rw [heq]
          exact h.erase _
        · rw [heq]
          refine h.insert (fun hname => ?_) htarget
          have hmissing := he (of_decide_eq_true hdefine)
          rcases mem_builtin_or_missing hname with hlisted | hlisted
          · exact hbuiltin hlisted
          · exact hmissing hlisted
    · exact h

theorem commandFree_of_reachable
    (h : ((preferenceMachine lowercase).restrict fun _ e => e.Listed).Reachable p) :
    CommandFree p.aliases := by
  refine h.invariant (I := fun p => CommandFree p.aliases) ?_ ?_
  · rintro p rfl
    exact commandFree_default
  · rintro p e q - hp ⟨he, hq⟩
    have hstep : CommandFree (p.enter lowercase e).aliases := commandFree_enter hp he
    rw [hq]
    exact hstep

end Runs

/-! ### Expansion -/

/-- A target with what follows it. -/
def expansionOf (target rest : String) : String :=
  if rest.isEmpty then target else target ++ " " ++ rest

theorem expand_eq (aliases : StringMap String) (text : String) :
    expand aliases text =
      match aliases[headWord text]? with
      | none => .ok text
      | some target =>
          if Journal.commandInputLimit (expansionOf target (splitHead text).2) <
              (expansionOf target (splitHead text).2).utf8ByteSize then
            .error "Expanded alias exceeds input limit"
          else .ok (expansionOf target (splitHead text).2) := by
  rfl

theorem headWord_expansionOf {target : String} (h : headWord target ≠ "") (rest : String) :
    headWord (expansionOf target rest) = headWord target := by
  have hword : (splitHead target).1 ≠ "" := by
    intro hempty
    rw [headWord, hempty] at h
    exact h (by decide)
  rw [expansionOf]
  split
  · rfl
  · exact congrArg toAsciiLowercase (splitHead_append hword rest)

theorem aliasTargets_executed : ∀ name ∈ aliasTargets, name ∈ executedCommands := by
  decide

section Expansion

variable {aliases : StringMap String} {text : String}

/-- A command is left as it is. -/
theorem CommandFree.expand_command (h : CommandFree aliases) (hcommand : headWord text ∈ executedCommands) :
    expand aliases text = .ok text := by
  rw [expand_eq]
  cases halias : aliases[headWord text]? with
  | none => rfl
  | some target => exact absurd hcommand (h.names _ target halias)

/-- An alias is replaced once. -/
theorem CommandFree.expand_alias (h : CommandFree aliases) {target : String}
    (halias : aliases[headWord text]? = some target) {expanded : String}
    (hexpand : expand aliases text = .ok expanded) :
    expanded = expansionOf target (splitHead text).2 ∧
      aliasTargets.contains (headWord expanded) = true ∧
      expanded.utf8ByteSize ≤ Journal.commandInputLimit expanded ∧
      expand aliases expanded = .ok expanded := by
  have htarget := h.targets _ target halias
  have hne : headWord target ≠ "" := by
    intro hempty
    rw [hempty] at htarget
    exact absurd htarget (by decide)
  rw [expand_eq, halias] at hexpand
  dsimp only at hexpand
  generalize hwhole : expansionOf target (splitHead text).2 = whole at hexpand
  have hhead : headWord whole = headWord target := by
    rw [← hwhole]
    exact headWord_expansionOf hne _
  by_cases hlimit : Journal.commandInputLimit whole < whole.utf8ByteSize
  · rw [if_pos hlimit] at hexpand
    cases hexpand
  · rw [if_neg hlimit] at hexpand
    cases hexpand
    refine ⟨rfl, ?_, Nat.le_of_not_lt hlimit, ?_⟩
    · rw [hhead]
      exact htarget
    · apply h.expand_command
      rw [hhead]
      exact aliasTargets_executed _ (List.contains_iff_mem.mp htarget)

end Expansion

/-- In every run in which no alias is defined under a command that its conversation does not list,
a command is left as it is, and any other text is its own expansion or the target of its alias with
what follows the name, which is a permitted command within the limit and is not expanded again. -/
theorem aliases_capture_nothing (lowercase : String → String) (p : Preferences)
    (h : ((preferenceMachine lowercase).restrict fun _ e => e.Listed).Reachable p) :
    (∀ text, headWord text ∈ executedCommands → expand p.aliases text = .ok text) ∧
    ∀ text, headWord text ∉ executedCommands →
      match p.aliases[headWord text]? with
      | none => expand p.aliases text = .ok text
      | some target =>
          (expand p.aliases text = .error "Expanded alias exceeds input limit" ∧
            Journal.commandInputLimit (expansionOf target (splitHead text).2) <
              (expansionOf target (splitHead text).2).utf8ByteSize) ∨
          ∃ expanded, expand p.aliases text = .ok expanded ∧
            expanded = expansionOf target (splitHead text).2 ∧
            aliasTargets.contains (headWord expanded) = true ∧
            expanded.utf8ByteSize ≤ Journal.commandInputLimit expanded ∧
            expand p.aliases expanded = .ok expanded := by
  have hfree := commandFree_of_reachable h
  refine ⟨fun text hcommand => hfree.expand_command hcommand, fun text _ => ?_⟩
  cases halias : p.aliases[headWord text]? with
  | none =>
      dsimp only
      rw [expand_eq, halias]
  | some target =>
      dsimp only
      cases hexpand : expand p.aliases text with
      | ok expanded => exact Or.inr ⟨expanded, rfl, hfree.expand_alias halias hexpand⟩
      | error message =>
          left
          rw [expand_eq, halias] at hexpand
          dsimp only at hexpand
          split at hexpand
          next hlimit => exact ⟨hexpand.symm, hlimit⟩
          · cases hexpand

namespace Sample

/-- An instance that grants everything. -/
def grants : Grants := ⟨true, true, true, true⟩

/-- An alias of a command of channels, defined in a contact conversation. -/
def shadowing : Entry := ⟨grants, [], some "contact/1f", none, "/alias msg /say", true⟩

/-- An alias of no command. -/
def waving : Entry := ⟨grants, [], none, none, "/alias wave /me waves", true⟩

end Sample

/-- A contact conversation does not list `/msg`, so an alias takes it, and a private message becomes
one to the whole channel. -/
theorem msg_is_captured :
    (preferenceMachine id).Reachable (Preferences.default.enter id Sample.shadowing) ∧
    "/msg" ∈ executedCommands ∧
    expand (Preferences.default.enter id Sample.shadowing).aliases "/msg bob secret" =
      .ok "/say bob secret" := by
  have haliases : (Preferences.default.enter id Sample.shadowing).aliases =
      (∅ : StringMap String).insert "/msg" "/say" := rfl
  have hhead : headWord "/msg bob secret" = "/msg" := by decide
  refine ⟨Machine.Reachable.step (Machine.Reachable.start rfl) rfl, by decide, ?_⟩
  rw [expand_eq, haliases, hhead, StringMap.get_insert_self]
  decide

theorem waving_captures_nothing :
    expand (Preferences.default.enter id Sample.waving).aliases "/msg bob secret" =
      .ok "/msg bob secret" := by
  have hlisted : Sample.waving.Listed := fun _ => by decide
  have hreachable := Machine.Reachable.step (M := (preferenceMachine id).restrict fun _ e => e.Listed)
    (Machine.Reachable.start rfl) (i := Sample.waving) ⟨hlisted, rfl⟩
  exact (aliases_capture_nothing id _ hreachable).1 _ (by decide)

end Service

end GChat
