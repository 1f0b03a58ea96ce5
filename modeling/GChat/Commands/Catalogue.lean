import GChat.Commands.Readers

/-!
# The commands of a conversation

The commands that are listed in a conversation depend on what it is and on what the instance
grants. No name that is listed where an alias is defined can be its name. All conversations use the
same aliases, so a command that is not listed there can be.
-/

namespace GChat

namespace Commands

open Foundation

/-- What an instance grants and whether it has a conversation provider. -/
structure Grants where
  channelAdmin : Bool
  directMessage : Bool
  hostedChannels : Bool
  commandExtension : Bool

def catalogueCommands : List String :=
  ["/help", "/status", "/network", "/lock", "/disconnect", "/list", "/enrollments", "/names",
    "/reconnect", "/part", "/nick", "/topic", "/join", "/query", "/msg", "/say", "/me", "/close",
    "/hide", "/quit", "/refresh"]

def adminCommands : List String :=
  ["/create", "/invite", "/invites", "/share-invite", "/revoke-invite", "/retire-invite", "/kick",
    "/recover-membership", "/owner"]

def extensionCommands : List String := ["/cmd-list", "/cmd", "/cmd-history"]

/-- The names `names` where they are granted. -/
def grantedWhen (granted : Bool) (names : List String) : List String :=
  if granted then names else []

namespace Grants

variable (g : Grants)

def commandCatalogue : List String :=
  catalogueCommands ++ grantedWhen g.channelAdmin adminCommands

/-- The names of the specifications of the client. -/
def commandSpecs : List String :=
  g.commandCatalogue ++ preferenceCommands ++ grantedWhen g.directMessage ["/contact"] ++
    grantedWhen g.hostedChannels ["/hosted"] ++ ["/presence", "/publish"] ++
    grantedWhen g.commandExtension extensionCommands

/-- What contact and hosted conversations list of the client. -/
def globalSpecs : List String :=
  g.commandSpecs.filter fun name => globalCommand name || name == "/hosted"

/-- The names that are listed; `projected` are the conversations of the provider with theirs. -/
def contextCommands (projected : List (String × List String)) (conversation : Option String) :
    List String :=
  if conversation.any isContact then contactCommands ++ g.globalSpecs
  else if conversation.any isHosted then hostedCommands ++ g.globalSpecs
  else
    g.commandSpecs ++
      ((projected.find? fun room => some room.1 == conversation).map (·.2)).getD []

/-- The names that an alias defined in a conversation cannot take. -/
def builtin (projected : List (String × List String)) (conversation : Option String) :
    List String :=
  g.contextCommands projected conversation ++ (hostedCommands ++ contactCommands)

end Grants

/-! ### What is executed -/

/-- The commands that are executed in a channel or without a conversation. -/
def channelCommands : List String :=
  ["/cmd", "/cmd-list", "/cmd-history", "/help", "/status", "/list", "/close", "/hide", "/nick",
    "/reconnect", "/topic", "/owner", "/part", "/me", "/names", "/presence", "/publish", "/create",
    "/join", "/query", "/msg", "/invite", "/invites", "/share-invite", "/revoke-invite",
    "/retire-invite", "/enrollments", "/recover-membership", "/kick", "/say", "/refresh"]

/-- The commands that control the instance. -/
def instanceCommands : List String := ["/network", "/lock", "/quit", "/disconnect"]

/-- The commands that are executed in some conversation or for the instance. -/
def executedCommands : List String :=
  preferenceCommands ++ contactCommands ++ "/hosted" :: hostedCommands ++ instanceCommands ++
    channelCommands

/-- The commands of channels alone. -/
def channelOnly : List String :=
  ["/msg", "/reconnect", "/enrollments", "/invites", "/share-invite", "/revoke-invite",
    "/retire-invite", "/recover-membership", "/cmd", "/cmd-list", "/cmd-history"]

/-- The commands that are not listed in a conversation. -/
def Grants.missing (g : Grants) (conversation : Option String) : List String :=
  let unlisted := grantedWhen (!g.hostedChannels) ["/hosted"] ++
    grantedWhen (!g.channelAdmin) ["/create"]
  if conversation.any isContact || conversation.any isHosted then channelOnly ++ unlisted
  else
    unlisted ++
      grantedWhen (!g.channelAdmin)
        ["/invites", "/share-invite", "/revoke-invite", "/retire-invite", "/recover-membership"] ++
      grantedWhen (!g.commandExtension) extensionCommands

section Listed

variable {g : Grants} {name : String} {projected : List (String × List String)}
  {conversation : Option String}

theorem mem_grantedWhen {granted : Bool} {names : List String} :
    name ∈ grantedWhen granted names ↔ granted = true ∧ name ∈ names := by
  cases granted with
  | false => simp [grantedWhen]
  | true => simp [grantedWhen]

theorem mem_builtin_of_hosted (h : name ∈ hostedCommands) : name ∈ g.builtin projected conversation :=
  List.mem_append_right _ (List.mem_append_left _ h)

theorem mem_builtin_of_contact (h : name ∈ contactCommands) :
    name ∈ g.builtin projected conversation :=
  List.mem_append_right _ (List.mem_append_right _ h)

/-- What is listed of the client, in any conversation. -/
theorem mem_builtin_of_global (h : name ∈ g.commandSpecs)
    (hglobal : globalCommand name = true ∨ name = "/hosted") :
    name ∈ g.builtin projected conversation := by
  have hspecs : name ∈ g.globalSpecs := by
    refine List.mem_filter.mpr ⟨h, ?_⟩
    rw [Bool.or_eq_true, beq_iff_eq]
    exact hglobal
  refine List.mem_append_left _ ?_
  rw [Grants.contextCommands]
  split
  · exact List.mem_append_right _ hspecs
  · split
    · exact List.mem_append_right _ hspecs
    · exact List.mem_append_left _ h

theorem mem_builtin_of_specs (hcontact : conversation.any isContact = false)
    (hhosted : conversation.any isHosted = false) (h : name ∈ g.commandSpecs) :
    name ∈ g.builtin projected conversation := by
  refine List.mem_append_left _ ?_
  rw [Grants.contextCommands, hcontact, hhosted, if_neg Bool.false_ne_true,
    if_neg Bool.false_ne_true]
  exact List.mem_append_left _ h

theorem mem_commandSpecs_of_catalogue (h : name ∈ catalogueCommands) : name ∈ g.commandSpecs := by
  simp only [Grants.commandSpecs, Grants.commandCatalogue, List.mem_append]
  exact Or.inl (Or.inl (Or.inl (Or.inl (Or.inl (Or.inl h)))))

theorem mem_commandSpecs_of_admin (hadmin : g.channelAdmin = true) (h : name ∈ adminCommands) :
    name ∈ g.commandSpecs := by
  simp only [Grants.commandSpecs, Grants.commandCatalogue, List.mem_append]
  exact Or.inl (Or.inl (Or.inl (Or.inl (Or.inl (Or.inr (mem_grantedWhen.mpr ⟨hadmin, h⟩))))))

theorem mem_commandSpecs_of_extension (hextension : g.commandExtension = true)
    (h : name ∈ extensionCommands) : name ∈ g.commandSpecs := by
  rw [Grants.commandSpecs, List.mem_append]
  exact Or.inr (mem_grantedWhen.mpr ⟨hextension, h⟩)

theorem mem_commandSpecs_of_preference (h : name ∈ preferenceCommands) :
    name ∈ g.commandSpecs := by
  simp only [Grants.commandSpecs, List.mem_append]
  exact Or.inl (Or.inl (Or.inl (Or.inl (Or.inr h))))

theorem mem_commandSpecs_hosted (hhosted : g.hostedChannels = true) :
    "/hosted" ∈ g.commandSpecs := by
  simp only [Grants.commandSpecs, List.mem_append]
  exact Or.inl (Or.inl (Or.inr (mem_grantedWhen.mpr ⟨hhosted, List.mem_singleton_self _⟩)))

/-- A command of channels alone is listed outside contact and hosted conversations, as far as it
is granted. -/
theorem mem_builtin_of_channelOnly (h : name ∈ channelOnly) :
    name ∈ g.builtin projected conversation ∨ name ∈ g.missing conversation := by
  have hkinds : ∀ name ∈ channelOnly, name ∈ catalogueCommands ∨
      name ∈ adminCommands ∧ name ∈ ["/invites", "/share-invite", "/revoke-invite",
        "/retire-invite", "/recover-membership"] ∨ name ∈ extensionCommands := by decide
  rw [Grants.missing]
  by_cases helsewhere : (conversation.any isContact || conversation.any isHosted) = true
  · rw [if_pos helsewhere]
    exact Or.inr (List.mem_append_left _ h)
  · rw [if_neg helsewhere]
    rw [Bool.not_eq_true, Bool.or_eq_false_iff] at helsewhere
    have hlisted : ∀ {name}, name ∈ g.commandSpecs → name ∈ g.builtin projected conversation :=
      fun hspecs => mem_builtin_of_specs helsewhere.1 helsewhere.2 hspecs
    rcases hkinds name h with hname | ⟨hname, hmissing⟩ | hname
    · exact Or.inl (hlisted (mem_commandSpecs_of_catalogue hname))
    · cases hadmin : g.channelAdmin with
      | true => exact Or.inl (hlisted (mem_commandSpecs_of_admin hadmin hname))
      | false =>
          refine Or.inr (List.mem_append_left _ (List.mem_append_right _ ?_))
          exact mem_grantedWhen.mpr ⟨rfl, hmissing⟩
    · cases hextension : g.commandExtension with
      | true => exact Or.inl (hlisted (mem_commandSpecs_of_extension hextension hname))
      | false =>
          refine Or.inr (List.mem_append_right _ ?_)
          exact mem_grantedWhen.mpr ⟨rfl, hname⟩

/-- What no instance grants is missing in every conversation. -/
theorem mem_missing_of_unlisted (h : g.hostedChannels = false ∧ name = "/hosted" ∨
    g.channelAdmin = false ∧ name = "/create") : name ∈ g.missing conversation := by
  have hunlisted : name ∈ grantedWhen (!g.hostedChannels) ["/hosted"] ++
      grantedWhen (!g.channelAdmin) ["/create"] := by
    rcases h with ⟨hgranted, rfl⟩ | ⟨hgranted, rfl⟩
    · rw [hgranted]
      exact List.mem_append_left _ (List.mem_singleton_self _)
    · rw [hgranted]
      exact List.mem_append_right _ (List.mem_singleton_self _)
  rw [Grants.missing]
  split
  · exact List.mem_append_right _ hunlisted
  · exact List.mem_append_left _ (List.mem_append_left _ hunlisted)

/-- A command that is executed is listed where an alias is defined, or is one of those missing
there. -/
theorem mem_builtin_or_missing (h : name ∈ executedCommands) :
    name ∈ g.builtin projected conversation ∨ name ∈ g.missing conversation := by
  have hpreference : ∀ name ∈ preferenceCommands, globalCommand name = true := by decide
  have hinstance : ∀ name ∈ instanceCommands,
      name ∈ catalogueCommands ∧ globalCommand name = true := by decide
  have hchannel : ∀ name ∈ channelCommands, name ∈ hostedCommands ∨ name ∈ contactCommands ∨
      (name ∈ catalogueCommands ∧ globalCommand name = true) ∨ name = "/create" ∨
      name ∈ channelOnly := by decide
  have hcreate : "/create" ∈ adminCommands ∧ globalCommand "/create" = true := by decide
  simp only [executedCommands, List.mem_append, List.mem_cons] at h
  rcases h with (((h | h) | rfl | h) | h) | h
  · exact Or.inl (mem_builtin_of_global (mem_commandSpecs_of_preference h)
      (Or.inl (hpreference name h)))
  · exact Or.inl (mem_builtin_of_contact h)
  · cases hhosted : g.hostedChannels with
    | true => exact Or.inl (mem_builtin_of_global (mem_commandSpecs_hosted hhosted) (Or.inr rfl))
    | false => exact Or.inr (mem_missing_of_unlisted (Or.inl ⟨hhosted, rfl⟩))
  · exact Or.inl (mem_builtin_of_hosted h)
  · obtain ⟨hcatalogue, hglobal⟩ := hinstance name h
    exact Or.inl (mem_builtin_of_global (mem_commandSpecs_of_catalogue hcatalogue)
      (Or.inl hglobal))
  · rcases hchannel name h with h | h | ⟨hcatalogue, hglobal⟩ | rfl | h
    · exact Or.inl (mem_builtin_of_hosted h)
    · exact Or.inl (mem_builtin_of_contact h)
    · exact Or.inl (mem_builtin_of_global (mem_commandSpecs_of_catalogue hcatalogue)
        (Or.inl hglobal))
    · cases hadmin : g.channelAdmin with
      | true =>
          exact Or.inl (mem_builtin_of_global (mem_commandSpecs_of_admin hadmin hcreate.1)
            (Or.inl hcreate.2))
      | false => exact Or.inr (mem_missing_of_unlisted (Or.inr ⟨hadmin, rfl⟩))
    · exact mem_builtin_of_channelOnly h

end Listed

end Commands

end GChat
