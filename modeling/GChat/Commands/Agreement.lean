import GChat.Commands.Readers

/-!
# Agreement of the readers of a text

The routing trims a text before it reads the command, and the parsers that execute it do
not: a command with white space before its slash is claimed by its family and then sent as
a message, and what was kept for recall is that of a command. The lock compares with the
case of the letters and the parsers do not. A text on which all readers agree is tidy, and
only such a text is.
-/

namespace GChat

namespace Commands

open Foundation
open Journal (expand)

/-- A command that is claimed is executed, and the lock and what is kept for recall are those
of what is executed. -/
structure Agrees (conversation : Option String) (text expanded : String) : Prop where
  contact : ContactClaims conversation expanded →
    submit conversation expanded = .ok (.contact (commandName expanded) (splitHead expanded).2)
  hosted : HostedClaims conversation expanded →
    submit conversation expanded = .ok (.hosted (commandName expanded) (splitHead expanded).2)
  lock : ∀ executed, submit conversation expanded = .ok executed →
    ordinarySend text = executed.ordinary
  recalled : ∀ executed, submit conversation expanded = .ok executed →
    recallClass text = executed.recall

/-- A text that says, acts, joins or creates is written so; and no white space stands before
the slash of a preference or network command. -/
def LockReadable (text : String) : Prop :=
  match afterSlash text with
  | some rest => ordinaryCommands.contains (headWord rest) = true →
      (ordinaryCommands.map ("/" ++ ·)).contains (splitHead text).1 = true
  | none => preferencesHandles text = false ∧ networkArguments text = none

/-- No white space stands before the slash of a command whose arguments are not kept, nor
after it. -/
def RecallReadable (text : String) : Prop :=
  match afterSlash text with
  | some rest => (splitHead text).1 = "/" →
      channelRecall (headWord rest) (splitHead rest).2 = .whole
  | none => (networkArguments text).isSome = true ∨ recallClass text = .whole

/-- A claimed command starts with its slash, an alias changes neither the lock nor what is
kept, and both can be read off. -/
structure Tidy (conversation : Option String) (text expanded : String) : Prop where
  claimed : ContactClaims conversation expanded ∨ HostedClaims conversation expanded →
    (afterSlash expanded).isSome = true
  lock : ordinarySend text = ordinarySend expanded ↔ LockReadable expanded
  recalled : recallClass text = recallClass expanded ∧ RecallReadable expanded

section Claims

variable {service : Instance} {conversation : Option String} {text rest : String}

theorem submit_contactClaims (h : ContactClaims conversation text) :
    submit conversation text = submitContact conversation text ∧
      preferencesHandles text = false := by
  obtain ⟨hhandles, hcommand⟩ := h
  have hnames : ∀ name ∈ contactCommands, name ≠ "/network" ∧
      preferenceCommands.contains name = false := by decide
  obtain ⟨hnetwork, hpreference⟩ := hnames _ (List.contains_iff_mem.mp hcommand)
  refine ⟨?_, hpreference⟩
  rw [submit_of_not_network hnetwork, preferencesHandles, hpreference, hhandles,
    if_neg Bool.false_ne_true, if_pos rfl]

/-- A conversation is not of both families. -/
theorem not_contactsHandles (h : HostedClaims conversation text) :
    contactsHandles conversation text = false := by
  obtain ⟨hhandles, -⟩ := h
  by_contra hcontacts
  rw [Bool.not_eq_false] at hcontacts
  obtain hhost | ⟨hconversation, hglobal⟩ := hostedHandles_cases hhandles
  · obtain hcontact | ⟨-, -, -, hne⟩ := contactsHandles_cases hcontacts
    · rw [hhost] at hcontact
      revert hcontact
      decide
    · exact hne hhost
  · obtain hcontact | ⟨hother, -⟩ := contactsHandles_cases hcontacts
    · rw [globalCommand_word, hcontact] at hglobal
      simp at hglobal
    · cases conversation with
      | none => cases hconversation
      | some id =>
          simp only [Option.any_some, isContact, isHosted, startsWith] at hconversation hother
          cases hid : id.toList with
          | nil =>
              rw [hid] at hother
              cases hother
          | cons c l =>
              rw [hid] at hconversation hother
              change ('h' == c && "osted/".toList.isPrefixOf l) = true at hconversation
              change ('c' == c && "ontact/".toList.isPrefixOf l) = true at hother
              rw [Bool.and_eq_true, beq_iff_eq] at hconversation hother
              have hsame := hconversation.1.trans hother.1.symm
              revert hsame
              decide

theorem submit_hostedClaims (h : HostedClaims conversation text) :
    submit conversation text = submitHosted conversation text ∧
      preferencesHandles text = false := by
  have hcontacts := not_contactsHandles h
  obtain ⟨hhandles, hcommand⟩ := h
  have hnames : ∀ name ∈ "/hosted" :: hostedCommands, name ≠ "/network" ∧
      preferenceCommands.contains name = false := by decide
  obtain ⟨hnetwork, hpreference⟩ := hnames (headWord text)
    (List.mem_cons.mpr (hcommand.imp_right List.contains_iff_mem.mp))
  refine ⟨?_, hpreference⟩
  rw [submit_of_not_network hnetwork, preferencesHandles, hpreference, hcontacts, hhandles,
    if_neg Bool.false_ne_true, if_neg Bool.false_ne_true, if_pos rfl]

theorem headWord_ne_empty (h : ContactClaims conversation text ∨ HostedClaims conversation text) :
    (splitHead text).1 ≠ "" := by
  intro hempty
  have hhead : headWord text = "" := by
    rw [headWord, hempty]
    decide
  rw [ContactClaims, HostedClaims, hhead] at h
  revert h
  simp [contactCommands, hostedCommands]

/-- A claimed command that does not start with its slash is not executed. -/
theorem contact_not_executed (h : ContactClaims conversation text) (hnone : afterSlash text = none) :
    submit conversation text ≠ .ok (.contact (commandName text) (splitHead text).2) := by
  obtain ⟨hsubmit, -⟩ := submit_contactClaims h
  have hrest := splitHead_rest_ne (headWord_ne_empty (Or.inl h))
  rw [hsubmit]
  cases hconversation : conversation.any isContact with
  | true =>
      rw [submitContact_none hnone hconversation]
      intro heq
      injection heq with heq
      injection heq with _ heq
      exact hrest heq.symm
  | false =>
      unfold submitContact slashCommand
      rw [hnone, hconversation]
      intro heq
      cases heq

theorem hosted_not_executed (h : HostedClaims conversation text) (hnone : afterSlash text = none) :
    submit conversation text ≠ .ok (.hosted (commandName text) (splitHead text).2) := by
  obtain ⟨hsubmit, -⟩ := submit_hostedClaims h
  have hrest := splitHead_rest_ne (headWord_ne_empty (Or.inr h))
  rw [hsubmit]
  unfold submitHosted slashCommand
  rw [hnone]
  dsimp only
  intro heq
  have hsame : ∀ command args, (if (decide (command = "list") || decide (command = "hosted")) = true
      then Except.ok (Executed.hosted command args)
      else if conversation.isNone = true then .error "Open a hosted channel"
      else if hostedCommands.contains ("/" ++ command) = true then .ok (.hosted command args)
      else .error "Unknown hosted command; use /help") =
        .ok (Executed.hosted (commandName text) (splitHead text).2) → args = (splitHead text).2 := by
    intro command args heq
    split at heq
    · injection heq with heq
      injection heq
    · split at heq
      · cases heq
      · split at heq
        · injection heq with heq
          injection heq
        · cases heq
  exact hrest (hsame _ _ heq).symm

theorem commandName_eq (h : afterSlash text = some rest) (hword : (splitHead text).1 ≠ "/") :
    commandName text = headWord rest ∧ (splitHead text).2 = (splitHead rest).2 := by
  obtain ⟨hhead, hargs⟩ := headWord_afterSlash h hword
  refine ⟨?_, hargs⟩
  apply String.toList_injective
  rw [commandName, hhead]
  simp

theorem word_ne_slash (h : ContactClaims conversation text ∨ HostedClaims conversation text) :
    (splitHead text).1 ≠ "/" := by
  intro hslash
  have hhead : headWord text = "/" := by
    rw [headWord, hslash]
    decide
  rw [ContactClaims, HostedClaims, hhead] at h
  revert h
  simp [contactCommands, hostedCommands]

theorem contact_executed (haccepted : service.validateSubmission conversation text = .ok ())
    (h : ContactClaims conversation text) (hslash : (afterSlash text).isSome = true) :
    submit conversation text = .ok (.contact (commandName text) (splitHead text).2) := by
  obtain ⟨rest, hrest⟩ := Option.isSome_iff_exists.mp hslash
  obtain ⟨hsubmit, hpreference⟩ := submit_contactClaims h
  have hword := word_ne_slash (Or.inl h)
  obtain ⟨hname, hargs⟩ := commandName_eq hrest hword
  obtain ⟨hcommand, -⟩ :=
    submitContact_command (accepted_contact haccepted hpreference h.1) hrest hword
  rw [hsubmit, hcommand, hname, hargs]

theorem hosted_executed (haccepted : service.validateSubmission conversation text = .ok ())
    (h : HostedClaims conversation text) (hslash : (afterSlash text).isSome = true) :
    submit conversation text = .ok (.hosted (commandName text) (splitHead text).2) := by
  obtain ⟨rest, hrest⟩ := Option.isSome_iff_exists.mp hslash
  obtain ⟨hsubmit, hpreference⟩ := submit_hostedClaims h
  have hword := word_ne_slash (Or.inr h)
  obtain ⟨hname, hargs⟩ := commandName_eq hrest hword
  obtain ⟨hcommand, -⟩ := submitHosted_command
    (accepted_hosted haccepted hpreference (not_contactsHandles h) h.1) h.1 hrest hword
  rw [hsubmit, hcommand, hname, hargs]

/-- A claimed text is executed as its command exactly when it starts with its slash. -/
theorem claimed_iff (haccepted : service.validateSubmission conversation text = .ok ()) :
    ((ContactClaims conversation text →
        submit conversation text = .ok (.contact (commandName text) (splitHead text).2)) ∧
      (HostedClaims conversation text →
        submit conversation text = .ok (.hosted (commandName text) (splitHead text).2))) ↔
      (ContactClaims conversation text ∨ HostedClaims conversation text →
        (afterSlash text).isSome = true) := by
  constructor
  · rintro ⟨hcontact, hhosted⟩ hclaims
    rw [Option.isSome_iff_ne_none]
    intro hnone
    obtain h | h := hclaims
    · exact contact_not_executed h hnone (hcontact h)
    · exact hosted_not_executed h hnone (hhosted h)
  · intro hslash
    exact ⟨fun h => contact_executed haccepted h (hslash (Or.inl h)),
      fun h => hosted_executed haccepted h (hslash (Or.inr h))⟩

/-- What is executed takes the lock and keeps what can be read off the text. -/
theorem submit_read (haccepted : service.validateSubmission conversation text = .ok ())
    (hclaimed : ContactClaims conversation text ∨ HostedClaims conversation text →
      (afterSlash text).isSome = true) :
    ∃ executed, submit conversation text = .ok executed ∧
      executed.ordinary = readOrdinary text ∧ executed.recall = readRecall text := by
  cases hslash : afterSlash text with
  | some rest => exact submit_command haccepted hslash
  | none =>
      rw [hslash] at hclaimed
      apply submit_message haccepted hslash
      · intro h
        cases hclaimed (Or.inl h)
      · intro h
        cases hclaimed (Or.inr h)

end Claims

/-! ### The lock and what is kept -/

theorem ordinarySend_eq (text : String) :
    ordinarySend text = ((afterSlash text).isNone ||
      (ordinaryCommands.map ("/" ++ ·)).contains (splitHead text).1) := by
  unfold ordinarySend
  cases h : afterSlash text with
  | none => rfl
  | some rest => rw [head_splitWhitespace h, Option.any_some]

theorem ordinarySend_read_iff (text : String) :
    ordinarySend text = readOrdinary text ↔ LockReadable text := by
  rw [ordinarySend_eq]
  unfold readOrdinary LockReadable
  cases h : afterSlash text with
  | none => cases preferencesHandles text <;> cases networkArguments text <;> simp
  | some rest =>
      have hlower : ∀ word ∈ ordinaryCommands.map ("/" ++ ·), word ≠ "/" ∧
          ordinaryCommands.contains (String.ofList ((toAsciiLowercase word).toList.drop 1)) = true
          := by decide
      have hcommand : (ordinaryCommands.map ("/" ++ ·)).contains (splitHead text).1 = true →
          ordinaryCommands.contains (headWord rest) = true := by
        intro hcontains
        obtain ⟨hword, hname⟩ := hlower _ (List.contains_iff_mem.mp hcontains)
        obtain ⟨heq, -⟩ := commandName_eq h hword
        rw [← heq]
        exact hname
      rw [Option.isNone_some, Bool.false_or, Bool.eq_iff_iff]
      exact ⟨fun heq => heq.mpr, fun hread => ⟨hcommand, hread⟩⟩

theorem recallClass_read_iff (text : String) :
    recallClass text = readRecall text ↔ RecallReadable text := by
  unfold readRecall RecallReadable
  cases h : afterSlash text with
  | none =>
      cases hnetwork : networkArguments text with
      | none => simp
      | some args => simp
  | some rest =>
      by_cases hword : (splitHead text).1 = "/"
      · have hhead : headWord text = "/" := by
          rw [headWord, hword]
          decide
        have hwhole : recallClass text = .whole := by
          apply recallClass_other <;> rw [hhead] <;> decide
        dsimp only
        rw [if_pos hword, hwhole]
        exact ⟨fun heq _ => heq.symm, fun hread => (hread hword).symm⟩
      · simp [hword]

/-- Two readings of a lock agree with a third exactly when they agree with each other where
that is read rightly. -/
theorem agree_via {a b c : Bool} {P : Prop} (h : b = c ↔ P) : a = c ↔ (a = b ↔ P) := by
  rw [← h]
  cases a <;> cases b <;> cases c <;> decide

/-- An alias stands for a command that is kept whole. -/
theorem expand_cases {aliases : Aliases} {text expanded : String}
    (h : expand aliases.table text = .ok expanded) :
    expanded = text ∨ aliasTargets.contains (headWord expanded) = true := by
  unfold expand at h
  cases hsplit : splitHead text with
  | mk name rest =>
  rw [hsplit] at h
  dsimp only at h
  split at h
  · cases h
    exact Or.inl rfl
  · rename_i expansion halias
    have htarget := aliases.targets _ expansion halias
    have hword : (splitHead expansion).1 ≠ "" := by
      intro hempty
      rw [headWord, hempty] at htarget
      revert htarget
      decide
    have hsame : headWord (if rest.isEmpty = true then expansion
        else toString expansion ++ toString " " ++ toString rest) = headWord expansion := by
      split
      · rfl
      · exact congrArg toAsciiLowercase (splitHead_append hword rest)
    generalize (if rest.isEmpty = true then expansion
      else toString expansion ++ toString " " ++ toString rest) = whole at h hsame
    by_cases hlimit : Journal.commandInputLimit whole < whole.utf8ByteSize
    · rw [if_pos hlimit] at h
      cases h
    · rw [if_neg hlimit] at h
      have hexpanded := Except.ok.inj h
      rw [← hexpanded, hsame]
      exact Or.inr htarget

/-- Of a text that starts with a target of aliases, everything is kept. -/
theorem read_target {text : String} (h : aliasTargets.contains (headWord text) = true) :
    recallClass text = .whole ∧ readRecall text = .whole := by
  have hnames : ∀ name ∈ aliasTargets, name ≠ "/" ∧ name ≠ "/contact" ∧ name ≠ "/hosted" ∧
      name ≠ "/reconnect" ∧ name ≠ "/network" ∧ name ≠ "/join" := by decide
  obtain ⟨hslash, hcontact, hhosted, hreconnect, hnetwork, hjoin⟩ :=
    hnames _ (List.contains_iff_mem.mp h)
  have hwhole := recallClass_other hcontact hhosted hreconnect hnetwork hjoin
  have hword : (splitHead text).1 ≠ "/" := by
    intro hword
    apply hslash
    rw [headWord, hword]
    decide
  refine ⟨hwhole, ?_⟩
  unfold readRecall
  rw [hwhole]
  split
  · rw [if_neg hword]
  · exact ite_self _

/-- On a text that passes the checks, all readers agree exactly when it is tidy. -/
theorem agrees_iff {service : Instance} {aliases : Aliases} {conversation : Option String}
    {text expanded : String} (hexpand : expand aliases.table text = .ok expanded)
    (haccepted : service.validateSubmission conversation expanded = .ok ()) :
    Agrees conversation text expanded ↔ Tidy conversation text expanded := by
  have hrecall : recallClass text = readRecall expanded ↔
      recallClass text = recallClass expanded ∧ RecallReadable expanded := by
    rw [← recallClass_read_iff]
    obtain rfl | htarget := expand_cases hexpand
    · exact ⟨fun h => ⟨rfl, h⟩, fun h => h.2⟩
    · obtain ⟨hwhole, hread⟩ := read_target htarget
      rw [hwhole, hread]
      exact ⟨fun h => ⟨h, rfl⟩, fun h => h.1⟩
  constructor
  · intro h
    have hclaimed := (claimed_iff haccepted).mp ⟨h.contact, h.hosted⟩
    obtain ⟨executed, hsubmit, hordinary, hkept⟩ := submit_read haccepted hclaimed
    have hlock := h.lock executed hsubmit
    have hkeep := h.recalled executed hsubmit
    rw [hordinary] at hlock
    rw [hkept] at hkeep
    exact ⟨hclaimed, (agree_via (ordinarySend_read_iff expanded)).mp hlock, hrecall.mp hkeep⟩
  · intro h
    obtain ⟨hcontact, hhosted⟩ := (claimed_iff haccepted).mpr h.claimed
    obtain ⟨executed, hsubmit, hordinary, hkept⟩ := submit_read haccepted h.claimed
    refine ⟨hcontact, hhosted, ?_, ?_⟩
    · intro other hother
      cases hsubmit.symm.trans hother
      rw [hordinary]
      exact (agree_via (ordinarySend_read_iff expanded)).mpr h.lock
    · intro other hother
      cases hsubmit.symm.trans hother
      rw [hkept]
      exact hrecall.mpr h.recalled

section Sample

def sampleInstance : Instance := ⟨true, true, fun _ _ => .ok ()⟩

/-- A contact card, pasted into a conversation with white space before the command. -/
def sampleCard : String := " /contact add bob gchat-contact:v1:AAAA"

/-- The card is not added but sent to the contact that is open. -/
theorem sampleCard_sent :
    expand Aliases.empty.table sampleCard = .ok sampleCard ∧
      sampleInstance.validateSubmission (some "contact/1f") sampleCard = .ok () ∧
      submit (some "contact/1f") sampleCard = .ok (.contact "say" sampleCard) ∧
      ¬ Agrees (some "contact/1f") sampleCard sampleCard := by
  have hsent : submit (some "contact/1f") sampleCard = .ok (.contact "say" sampleCard) := by
    decide +kernel
  have hclaims : ContactClaims (some "contact/1f") sampleCard :=
    ⟨by decide +kernel, by decide +kernel⟩
  have hnone : afterSlash sampleCard = none := by
    decide +kernel
  exact ⟨rfl, by decide +kernel, hsent,
    fun h => contact_not_executed hclaims hnone (h.contact hclaims)⟩

def sampleAliases : Aliases :=
  match Aliases.edit [] .empty true "wave /me waves" with
  | .ok aliases => aliases
  | .error _ => .empty

theorem sampleLink_agrees :
    Agrees (some "hosted/2e") "/hosted join gcinvite1 #room ann"
      "/hosted join gcinvite1 #room ann" := by
  have hexpand : expand sampleAliases.table "/hosted join gcinvite1 #room ann" =
      .ok "/hosted join gcinvite1 #room ann" := by
    decide +kernel
  have haccepted : sampleInstance.validateSubmission (some "hosted/2e")
      "/hosted join gcinvite1 #room ann" = .ok () := by
    decide +kernel
  have hlock : LockReadable "/hosted join gcinvite1 #room ann" := by
    intro h
    revert h
    decide +kernel
  have hrecall : RecallReadable "/hosted join gcinvite1 #room ann" := by
    intro h
    revert h
    decide +kernel
  exact (agrees_iff hexpand haccepted).mpr ⟨fun _ => rfl, iff_of_true rfl hlock, rfl, hrecall⟩

end Sample

end Commands

end GChat
