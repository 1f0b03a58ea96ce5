import GChat.Commands.Model

/-!
# What is executed

For a text that passes the checks, the family it goes to and the command it is executed as,
by the two ways to read it: the command the routing sees, and what follows the slash.
-/

namespace GChat

namespace Commands

open Foundation

/-- The command of a text without its slash, in lower case. -/
def commandName (text : String) : String := String.ofList ((headWord text).toList.drop 1)

/-- The contact family claims the text for one of its commands. -/
def ContactClaims (conversation : Option String) (text : String) : Prop :=
  contactsHandles conversation text = true ∧ contactCommands.contains (headWord text) = true

def HostedClaims (conversation : Option String) (text : String) : Prop :=
  hostedHandles conversation text = true ∧
    (headWord text = "/hosted" ∨ hostedCommands.contains (headWord text) = true)

/-! ### Words -/

theorem eqIgnoreAsciiCase_word (text : String) {command : String}
    (h : toAsciiLowercase command = command) :
    eqIgnoreAsciiCase (splitHead text).1 command = decide (headWord text = command) := by
  rw [Bool.eq_iff_iff, eqIgnoreAsciiCase_iff, h, decide_eq_true_iff]
  rfl

theorem headWord_word (text : String) : headWord (splitHead text).1 = headWord text := by
  rw [headWord, splitHead_word]
  rfl

theorem networkArguments_eq (text : String) :
    networkArguments text =
      if headWord text = "/network" then some (splitHead text).2 else none := by
  change (if eqIgnoreAsciiCase (splitHead text).1 "/network" = true then some (splitHead text).2
    else none) = _
  simp [eqIgnoreAsciiCase_word text (by decide : toAsciiLowercase "/network" = "/network")]

theorem globalCommand_word (text : String) :
    globalCommand (splitHead text).1 = (preferencesHandles text || headWord text = "/contact" ||
      ["/network", "/status", "/create", "/join", "/lock", "/quit", "/disconnect"].contains
        (headWord text)) := by
  unfold globalCommand preferencesHandles
  rw [headWord_word, eqIgnoreAsciiCase_word text (by decide)]
  rfl

theorem contactsHandles_eq (conversation : Option String) (text : String) :
    contactsHandles conversation text = (decide (headWord text = "/contact") ||
      (conversation.any isContact && !globalCommand (splitHead text).1 &&
        !decide (headWord text = "/list") && !decide (headWord text = "/hosted"))) := by
  unfold contactsHandles
  dsimp only
  rw [eqIgnoreAsciiCase_word text (by decide), eqIgnoreAsciiCase_word text (by decide),
    eqIgnoreAsciiCase_word text (by decide)]

theorem hostedHandles_eq (conversation : Option String) (text : String) :
    hostedHandles conversation text = (decide (headWord text = "/hosted") ||
      (conversation.any isHosted && !globalCommand (splitHead text).1)) := by
  unfold hostedHandles
  dsimp only
  rw [eqIgnoreAsciiCase_word text (by decide)]

/-- What recall keeps, by the command. -/
theorem recallClass_eq (text : String) :
    recallClass text =
      if headWord text = "/contact" then contactRecall (splitHead text).2
      else if headWord text = "/hosted" then .hosted
      else if headWord text = "/reconnect" then .reconnect
      else if headWord text = "/network" then networkRecall (splitHead text).2
      else if headWord text = "/join" then joinRecall (splitHead text).2
      else .whole := by
  have hcontact : ∀ args, contactRecall args = .contact ∨ contactRecall args = .whole := by
    intro args
    unfold contactRecall
    split <;> simp
  have hjoin : ∀ args, joinRecall args = .join ∨ joinRecall args = .whole := by
    intro args
    unfold joinRecall
    split <;> simp
  change (if (eqIgnoreAsciiCase (splitHead text).1 "/contact" &&
      decide (contactRecall (splitHead text).2 = .contact)) = true then Recall.contact
    else if eqIgnoreAsciiCase (splitHead text).1 "/hosted" = true then .hosted
    else if eqIgnoreAsciiCase (splitHead text).1 "/reconnect" = true then .reconnect
    else if eqIgnoreAsciiCase (splitHead text).1 "/network" = true then
      networkRecall (splitHead text).2
    else if (eqIgnoreAsciiCase (splitHead text).1 "/join" &&
      decide (joinRecall (splitHead text).2 = .join)) = true then .join
    else .whole) = _
  rw [eqIgnoreAsciiCase_word text (by decide), eqIgnoreAsciiCase_word text (by decide),
    eqIgnoreAsciiCase_word text (by decide), eqIgnoreAsciiCase_word text (by decide),
    eqIgnoreAsciiCase_word text (by decide)]
  simp only [Bool.and_eq_true, decide_eq_true_eq]
  by_cases h : headWord text = "/contact"
  · obtain hargs | hargs := hcontact (splitHead text).2
    · simp [h, hargs]
    · simp [h, hargs]
  · obtain hargs | hargs := hjoin (splitHead text).2
    · simp [h, hargs]
    · simp [h, hargs]

theorem recallClass_hosted {text : String} (h : headWord text = "/hosted") :
    recallClass text = .hosted := by
  rw [recallClass_eq, h, if_neg (by decide), if_pos rfl]

theorem recallClass_network {text : String} (h : headWord text = "/network") :
    recallClass text = networkRecall (splitHead text).2 := by
  rw [recallClass_eq, h, if_neg (by decide), if_neg (by decide), if_neg (by decide), if_pos rfl]

/-! ### Families -/

section Submitted

variable {service : Instance} {conversation : Option String} {text rest : String}

theorem contactsHandles_cases (h : contactsHandles conversation text = true) :
    headWord text = "/contact" ∨
      conversation.any isContact = true ∧ globalCommand (splitHead text).1 = false ∧
        headWord text ≠ "/list" ∧ headWord text ≠ "/hosted" := by
  rw [contactsHandles_eq] at h
  simpa [and_assoc] using h

theorem hostedHandles_cases (h : hostedHandles conversation text = true) :
    headWord text = "/hosted" ∨
      conversation.any isHosted = true ∧ globalCommand (splitHead text).1 = false := by
  rw [hostedHandles_eq] at h
  simpa using h

/-- A family does not claim a command that is available everywhere. -/
theorem not_handles_of_global (hglobal : globalCommand (splitHead text).1 = true)
    (hcontact : headWord text ≠ "/contact") (hhosted : headWord text ≠ "/hosted") :
    contactsHandles conversation text = false ∧ hostedHandles conversation text = false := by
  rw [contactsHandles_eq, hostedHandles_eq]
  simp [hglobal, hcontact, hhosted]

/-- The arguments that pass the checks are those that are executed. -/
theorem submit_network (hnetwork : headWord text = "/network")
    (haccepted : service.validateSubmission conversation text = .ok ()) :
    submit conversation text = .ok (.network (splitHead text).2) := by
  have hpreference : preferencesHandles text = false := by
    rw [preferencesHandles, hnetwork]
    decide
  have hglobal : globalCommand (splitHead text).1 = true := by
    rw [globalCommand_word, hnetwork]
    simp
  obtain ⟨hcontacts, hhosted⟩ := not_handles_of_global hglobal
    (by rw [hnetwork]; decide) (by rw [hnetwork]; decide)
  have hargs : networkArguments text = some (splitHead text).2 := by
    rw [networkArguments_eq, if_pos hnetwork]
  unfold Instance.validateSubmission at haccepted
  unfold submit
  rw [hpreference, hcontacts, hhosted, hargs] at haccepted ⊢
  have hbeginning : startsWith (splitHead text).2 "join GCNI1-" = true →
      startsWith (splitHead text).2 "join " = true := by
    unfold startsWith
    rw [List.isPrefixOf_iff_prefix, List.isPrefixOf_iff_prefix]
    exact fun h => List.IsPrefix.trans (by decide) h
  rw [Option.filter_some, Option.filter_some]
  cases hrelay : relayArguments.contains (splitHead text).2 with
  | true => rfl
  | false =>
      cases hdns : dnsArguments.contains (splitHead text).2 with
      | true => rfl
      | false =>
          cases hjoin : startsWith (splitHead text).2 "join GCNI1-" with
          | true =>
              rw [hbeginning hjoin]
              rfl
          | false =>
              dsimp only at haccepted
              rw [hrelay, hdns, hjoin] at haccepted
              cases haccepted

theorem submit_of_not_network (hnetwork : headWord text ≠ "/network") :
    submit conversation text =
      if preferencesHandles text then .ok (.preference (headWord text) (splitHead text).2)
      else if contactsHandles conversation text then submitContact conversation text
      else if hostedHandles conversation text then submitHosted conversation text
      else .ok (submitChannel conversation text) := by
  have hargs : networkArguments text = none := by
    rw [networkArguments_eq, if_neg hnetwork]
  unfold submit
  rw [hargs]
  rfl

theorem contactsValidate_cases (h : contactsValidate conversation text = .ok ()) :
    headWord text = "/contact" ∨ conversation.any isContact = true ∧
      (afterSlash text = none ∨ contactCommands.contains (headWord text) = true) := by
  have hnames : ∀ name ∈ contactCommands, toAsciiLowercase name = name := by decide
  have hany : (contactCommands.any fun name => eqIgnoreAsciiCase name (splitHead text).1) =
      contactCommands.contains (headWord text) := by
    rw [Bool.eq_iff_iff, List.any_eq_true, List.contains_iff_mem]
    constructor
    · rintro ⟨name, hmem, heq⟩
      rw [eqIgnoreAsciiCase_iff, hnames name hmem] at heq
      change name = headWord text at heq
      rwa [← heq]
    · intro hmem
      refine ⟨headWord text, hmem, ?_⟩
      rw [eqIgnoreAsciiCase_iff, hnames _ hmem]
      rfl
  unfold contactsValidate at h
  rw [eqIgnoreAsciiCase_word text (by decide), hany] at h
  split at h
  · cases h
  · split at h
    · rename_i hcontact
      exact Or.inl (of_decide_eq_true hcontact)
    · split at h
      · cases h
      · rename_i hconversation
        split at h
        · rename_i hshape
          simp only [Bool.or_eq_true, Option.isNone_iff_eq_none] at hshape
          exact Or.inr ⟨by simpa using hconversation, hshape⟩
        · cases h

theorem hostedValidate_cases (h : hostedValidate conversation text = .ok ()) :
    afterSlash text = none ∧ conversation.any isHosted = true ∨
      (afterSlash text).isSome = true ∧
        (headWord text = "/hosted" ∨ hostedCommands.contains (headWord text) = true) := by
  unfold hostedValidate at h
  split at h
  · cases h
  · split at h
    · rename_i hnone
      split at h
      · rename_i hconversation
        exact Or.inl ⟨Option.isNone_iff_eq_none.mp hnone, hconversation⟩
      · cases h
    · rename_i hsome
      split at h
      · rename_i hcommand
        simp only [Bool.or_eq_true, decide_eq_true_eq] at hcommand
        exact Or.inr ⟨Option.isSome_iff_ne_none.mpr (by simpa using hsome), hcommand⟩
      · cases h

theorem accepted_contact (haccepted : service.validateSubmission conversation text = .ok ())
    (hpreference : preferencesHandles text = false)
    (hcontacts : contactsHandles conversation text = true) :
    contactsValidate conversation text = .ok () := by
  unfold Instance.validateSubmission at haccepted
  rw [hpreference, hcontacts, if_neg Bool.false_ne_true, if_pos rfl] at haccepted
  split at haccepted
  · exact haccepted
  · cases haccepted

theorem accepted_hosted (haccepted : service.validateSubmission conversation text = .ok ())
    (hpreference : preferencesHandles text = false)
    (hcontacts : contactsHandles conversation text = false)
    (hhosted : hostedHandles conversation text = true) :
    hostedValidate conversation text = .ok () := by
  unfold Instance.validateSubmission at haccepted
  rw [hpreference, hcontacts, hhosted, if_neg Bool.false_ne_true, if_neg Bool.false_ne_true,
    if_pos rfl] at haccepted
  split at haccepted
  · exact haccepted
  · cases haccepted

theorem submitContact_none (h : afterSlash text = none)
    (hconversation : conversation.any isContact = true) :
    submitContact conversation text = .ok (.contact "say" text) := by
  unfold submitContact slashCommand
  rw [h]
  simp only [hconversation]
  rfl

theorem submitHosted_none (h : afterSlash text = none)
    (hconversation : conversation.any isHosted = true) :
    submitHosted conversation text = .ok (.hosted "say" text) := by
  have hsome : conversation.isNone = false := by
    cases conversation with
    | none => cases hconversation
    | some id => rfl
  unfold submitHosted slashCommand
  rw [h]
  simp only [hsome]
  rfl

theorem submitContact_some (h : afterSlash text = some rest)
    (hshape : headWord rest = "contact" ∨ conversation.any isContact = true ∧
      contactCommands.contains ("/" ++ headWord rest) = true) :
    submitContact conversation text = .ok (.contact (headWord rest) (splitHead rest).2) := by
  have hcommand : slashCommand text = splitHead rest := by
    unfold slashCommand
    rw [h]
  unfold submitContact
  rw [hcommand]
  change (if headWord rest = "contact" then _ else if (!conversation.any isContact) = true then _
    else if contactCommands.contains ("/" ++ headWord rest) = true then _ else _) = _
  obtain hcontact | ⟨hconversation, hknown⟩ := hshape
  · rw [if_pos hcontact]
    rfl
  · rw [hconversation, if_neg (by decide : ¬ (!true) = true), if_pos hknown, ite_self]
    rfl

theorem submitHosted_some (h : afterSlash text = some rest)
    (hshape : headWord rest = "hosted" ∨ conversation.any isHosted = true ∧
      hostedCommands.contains ("/" ++ headWord rest) = true) :
    submitHosted conversation text = .ok (.hosted (headWord rest) (splitHead rest).2) := by
  have hcommand : slashCommand text = splitHead rest := by
    unfold slashCommand
    rw [h]
  unfold submitHosted
  rw [hcommand]
  change (if (decide (headWord rest = "list") || decide (headWord rest = "hosted")) = true then _
    else if conversation.isNone = true then _
    else if hostedCommands.contains ("/" ++ headWord rest) = true then _ else _) = _
  obtain hhosted | ⟨hconversation, hknown⟩ := hshape
  · rw [if_pos (by simp [hhosted])]
    rfl
  · have hsome : conversation.isNone = false := by
      cases conversation with
      | none => cases hconversation
      | some id => rfl
    rw [hsome, if_neg Bool.false_ne_true, if_pos hknown, ite_self]
    rfl

/-- The lock of what is executed, read off the text. -/
def readOrdinary (text : String) : Bool :=
  match afterSlash text with
  | some rest => ordinaryCommands.contains (headWord rest)
  | none => !(preferencesHandles text || (networkArguments text).isSome)

/-- What should be kept of what is executed, read off the text. -/
def readRecall (text : String) : Recall :=
  match afterSlash text with
  | some rest =>
      if (splitHead text).1 = "/" then channelRecall (headWord rest) (splitHead rest).2
      else recallClass text
  | none => if (networkArguments text).isSome then recallClass text else .whole

theorem submitChannel_none (h : afterSlash text = none) :
    (submitChannel conversation text).ordinary = true ∧
      (submitChannel conversation text).recall = .whole := by
  unfold submitChannel slashCommand
  rw [h]
  dsimp only
  split
  · exact ⟨rfl, rfl⟩
  · exact ⟨rfl, rfl⟩

theorem submitChannel_some (h : afterSlash text = some rest) :
    (submitChannel conversation text).ordinary = ordinaryCommands.contains (headWord rest) ∧
      (submitChannel conversation text).recall =
        channelRecall (headWord rest) (splitHead rest).2 := by
  unfold submitChannel slashCommand
  rw [h]
  dsimp only
  split
  · exact ⟨rfl, rfl⟩
  · exact ⟨rfl, rfl⟩

theorem recallClass_preference (h : preferencesHandles text = true) :
    recallClass text = .whole := by
  rw [recallClass_eq]
  have hlist := List.contains_iff_mem.mp h
  generalize headWord text = word at hlist ⊢
  simp only [preferenceCommands, List.mem_cons, List.not_mem_nil, or_false] at hlist
  obtain rfl | rfl | rfl | rfl | rfl | rfl := hlist <;> simp

/-- A text without a slash at its start that is not claimed for a command is a message, unless
it is a preference or about the network. -/
theorem submit_message (haccepted : service.validateSubmission conversation text = .ok ())
    (hnone : afterSlash text = none)
    (hcontacts : ¬ ContactClaims conversation text) (hhosted : ¬ HostedClaims conversation text) :
    ∃ executed, submit conversation text = .ok executed ∧
      executed.ordinary = readOrdinary text ∧ executed.recall = readRecall text := by
  unfold readOrdinary readRecall
  rw [hnone, networkArguments_eq]
  dsimp only
  by_cases hnetwork : headWord text = "/network"
  · refine ⟨_, submit_network hnetwork haccepted, ?_, ?_⟩
    · simp [hnetwork, Executed.ordinary]
    · simp [hnetwork, Executed.recall, recallClass_network hnetwork]
  · rw [submit_of_not_network hnetwork, if_neg hnetwork]
    cases hpreference : preferencesHandles text with
    | true => exact ⟨_, rfl, rfl, rfl⟩
    | false =>
        rw [if_neg Bool.false_ne_true]
        cases hcontact : contactsHandles conversation text with
        | true =>
            rw [if_pos rfl]
            obtain hword | ⟨hconversation, -⟩ := contactsHandles_cases hcontact
            · exact absurd ⟨hcontact, by rw [hword]; decide⟩ hcontacts
            · exact ⟨.contact "say" text, submitContact_none hnone hconversation, rfl, rfl⟩
        | false =>
            rw [if_neg Bool.false_ne_true]
            cases hhost : hostedHandles conversation text with
            | true =>
                rw [if_pos rfl]
                obtain hword | ⟨hconversation, -⟩ := hostedHandles_cases hhost
                · exact absurd ⟨hhost, Or.inl hword⟩ hhosted
                · exact ⟨.hosted "say" text, submitHosted_none hnone hconversation, rfl, rfl⟩
            | false =>
                rw [if_neg Bool.false_ne_true]
                obtain ⟨hordinary, hrecall⟩ :=
                  submitChannel_none hnone
                exact ⟨_, rfl, hordinary, hrecall⟩

/-- The command of a text whose slash is part of its first word. -/
theorem headWord_afterSlash (h : afterSlash text = some rest) (hword : (splitHead text).1 ≠ "/") :
    headWord text = "/" ++ headWord rest ∧ (splitHead text).2 = (splitHead rest).2 := by
  obtain ⟨hfirst, hsecond⟩ := splitHead_afterSlash h hword
  refine ⟨?_, hsecond⟩
  rw [headWord, hfirst, toAsciiLowercase_append]
  rfl

theorem slash_append {a b : String} (h : "/" ++ a = "/" ++ b) : a = b := by
  have hlist := congrArg String.toList h
  rw [String.toList_append, String.toList_append] at hlist
  exact String.toList_injective (List.append_cancel_left hlist)

theorem recallClass_other (hcontact : headWord text ≠ "/contact")
    (hhosted : headWord text ≠ "/hosted") (hreconnect : headWord text ≠ "/reconnect")
    (hnetwork : headWord text ≠ "/network") (hjoin : headWord text ≠ "/join") :
    recallClass text = .whole := by
  rw [recallClass_eq, if_neg hcontact, if_neg hhosted, if_neg hreconnect, if_neg hnetwork,
    if_neg hjoin]

/-- A slash on its own is a command of the channels. -/
theorem submit_detached (haccepted : service.validateSubmission conversation text = .ok ())
    (h : afterSlash text = some rest) (hword : (splitHead text).1 = "/") :
    submit conversation text = .ok (submitChannel conversation text) := by
  have hhead : headWord text = "/" := by
    rw [headWord, hword]
    decide
  have hpreference : preferencesHandles text = false := by
    rw [preferencesHandles, hhead]
    decide
  have hcontacts : contactsHandles conversation text = false := by
    by_contra hcontacts
    rw [Bool.not_eq_false] at hcontacts
    have hvalid := contactsValidate_cases (accepted_contact haccepted hpreference hcontacts)
    rw [hhead, h] at hvalid
    revert hvalid
    simp [contactCommands]
  have hhosted : hostedHandles conversation text = false := by
    by_contra hhosted
    rw [Bool.not_eq_false] at hhosted
    have hvalid := hostedValidate_cases (accepted_hosted haccepted hpreference hcontacts hhosted)
    rw [hhead, h] at hvalid
    revert hvalid
    simp [hostedCommands]
  rw [submit_of_not_network (by rw [hhead]; decide), hpreference, hcontacts, hhosted]
  rfl

theorem submitContact_command (hvalid : contactsValidate conversation text = .ok ())
    (h : afterSlash text = some rest) (hword : (splitHead text).1 ≠ "/") :
    submitContact conversation text = .ok (.contact (headWord rest) (splitHead rest).2) ∧
      (Executed.contact (headWord rest) (splitHead rest).2).recall = recallClass text := by
  obtain ⟨hhead, hargs⟩ := headWord_afterSlash h hword
  obtain hcontact | ⟨hconversation, hnone | hknown⟩ := contactsValidate_cases hvalid
  · have hname : headWord rest = "contact" := slash_append (hhead.symm.trans hcontact)
    refine ⟨submitContact_some h (Or.inl hname), ?_⟩
    rw [recallClass_eq, if_pos hcontact, hargs, Executed.recall, if_pos hname]
  · cases h.symm.trans hnone
  · have hcommand := hknown
    rw [hhead] at hcommand
    refine ⟨submitContact_some h (Or.inr ⟨hconversation, hcommand⟩), ?_⟩
    by_cases hcontact : headWord text = "/contact"
    · have hname : headWord rest = "contact" := slash_append (hhead.symm.trans hcontact)
      rw [recallClass_eq, if_pos hcontact, hargs, Executed.recall, if_pos hname]
    · have hnames : ∀ name ∈ contactCommands, name ≠ "/hosted" ∧ name ≠ "/reconnect" ∧
          name ≠ "/network" ∧ name ≠ "/join" := by decide
      obtain ⟨hhosted, hreconnect, hnetwork, hjoin⟩ :=
        hnames _ (List.contains_iff_mem.mp hknown)
      have hname : headWord rest ≠ "contact" := by
        intro hname
        rw [hname] at hhead
        exact hcontact hhead
      rw [recallClass_other hcontact hhosted hreconnect hnetwork hjoin, Executed.recall,
        if_neg hname]

theorem submitHosted_command (hvalid : hostedValidate conversation text = .ok ())
    (hhandles : hostedHandles conversation text = true) (h : afterSlash text = some rest)
    (hword : (splitHead text).1 ≠ "/") :
    submitHosted conversation text = .ok (.hosted (headWord rest) (splitHead rest).2) ∧
      (Executed.hosted (headWord rest) (splitHead rest).2).recall = recallClass text := by
  obtain ⟨hhead, -⟩ := headWord_afterSlash h hword
  have hother : headWord text ≠ "/hosted" → conversation.any isHosted = true ∧
      hostedCommands.contains (headWord text) = true := by
    intro hhosted
    obtain heq | ⟨hconversation, -⟩ := hostedHandles_cases hhandles
    · exact absurd heq hhosted
    · obtain ⟨hnone, -⟩ | ⟨-, heq | hknown⟩ := hostedValidate_cases hvalid
      · cases h.symm.trans hnone
      · exact absurd heq hhosted
      · exact ⟨hconversation, hknown⟩
  by_cases hhosted : headWord text = "/hosted"
  · have hname : headWord rest = "hosted" := slash_append (hhead.symm.trans hhosted)
    refine ⟨submitHosted_some h (Or.inl hname), ?_⟩
    rw [recallClass_hosted hhosted, Executed.recall, if_pos hname]
  · obtain ⟨hconversation, hknown⟩ := hother hhosted
    have hnames : ∀ name ∈ hostedCommands, name ≠ "/contact" ∧ name ≠ "/reconnect" ∧
        name ≠ "/network" ∧ name ≠ "/join" := by decide
    obtain ⟨hcontact, hreconnect, hnetwork, hjoin⟩ := hnames _ (List.contains_iff_mem.mp hknown)
    have hname : headWord rest ≠ "hosted" := by
      intro hname
      rw [hname] at hhead
      exact hhosted hhead
    rw [hhead] at hknown
    refine ⟨submitHosted_some h (Or.inr ⟨hconversation, hknown⟩), ?_⟩
    rw [recallClass_other hcontact hhosted hreconnect hnetwork hjoin, Executed.recall,
      if_neg hname]

theorem channelRecall_command (h : afterSlash text = some rest)
    (hword : (splitHead text).1 ≠ "/") (hcontact : headWord text ≠ "/contact")
    (hhosted : headWord text ≠ "/hosted") (hnetwork : headWord text ≠ "/network") :
    channelRecall (headWord rest) (splitHead rest).2 = recallClass text := by
  obtain ⟨hhead, hargs⟩ := headWord_afterSlash h hword
  have hname : ∀ name, headWord text = "/" ++ name ↔ headWord rest = name := by
    intro name
    rw [hhead]
    exact ⟨slash_append, fun heq => by rw [heq]⟩
  have hreconnect := hname "reconnect"
  have hjoin := hname "join"
  rw [recallClass_eq, if_neg hcontact, if_neg hhosted, if_neg hnetwork, hargs, channelRecall]
  rw [show "/" ++ "reconnect" = "/reconnect" from rfl] at hreconnect
  rw [show "/" ++ "join" = "/join" from rfl] at hjoin
  simp only [hreconnect, hjoin]

/-- A command whose slash is at the start of the text is what is executed. -/
theorem submit_command (haccepted : service.validateSubmission conversation text = .ok ())
    (h : afterSlash text = some rest) :
    ∃ executed, submit conversation text = .ok executed ∧
      executed.ordinary = readOrdinary text ∧ executed.recall = readRecall text := by
  unfold readOrdinary readRecall
  rw [h]
  dsimp only
  by_cases hword : (splitHead text).1 = "/"
  · obtain ⟨hordinary, hrecall⟩ := submitChannel_some h
    rw [if_pos hword]
    exact ⟨_, submit_detached haccepted h hword, hordinary, hrecall⟩
  · obtain ⟨hhead, hargs⟩ := headWord_afterSlash h hword
    rw [if_neg hword]
    by_cases hnetwork : headWord text = "/network"
    · have hname : headWord rest = "network" := slash_append (hhead.symm.trans hnetwork)
      refine ⟨_, submit_network hnetwork haccepted, ?_, ?_⟩
      · rw [hname]
        rfl
      · exact (recallClass_network hnetwork).symm
    · rw [submit_of_not_network hnetwork]
      cases hpreference : preferencesHandles text with
      | true =>
          refine ⟨_, rfl, ?_, (recallClass_preference hpreference).symm⟩
          have hnames : ∀ name ∈ ordinaryCommands, ¬ preferenceCommands.contains ("/" ++ name) := by
            decide
          unfold preferencesHandles at hpreference
          rw [hhead] at hpreference
          cases hordinary : ordinaryCommands.contains (headWord rest) with
          | true => exact absurd hpreference (hnames _ (List.contains_iff_mem.mp hordinary))
          | false => rfl
      | false =>
          rw [if_neg Bool.false_ne_true]
          cases hcontacts : contactsHandles conversation text with
          | true =>
              obtain ⟨hsubmit, hrecall⟩ := submitContact_command
                (accepted_contact haccepted hpreference hcontacts) h hword
              rw [if_pos rfl]
              exact ⟨_, hsubmit, rfl, hrecall⟩
          | false =>
              rw [if_neg Bool.false_ne_true]
              cases hhosted : hostedHandles conversation text with
              | true =>
                  obtain ⟨hsubmit, hrecall⟩ := submitHosted_command
                    (accepted_hosted haccepted hpreference hcontacts hhosted) hhosted h hword
                  rw [if_pos rfl]
                  exact ⟨_, hsubmit, rfl, hrecall⟩
              | false =>
                  obtain ⟨hordinary, hrecall⟩ :=
                    submitChannel_some h
                  rw [if_neg Bool.false_ne_true]
                  refine ⟨_, rfl, hordinary, hrecall.trans ?_⟩
                  apply channelRecall_command h hword _ _ hnetwork
                  · intro hcontact
                    rw [contactsHandles_eq, hcontact] at hcontacts
                    cases hcontacts
                  · intro hhost
                    rw [hostedHandles_eq, hhost] at hhosted
                    cases hhosted

end Submitted

end Commands

end GChat
