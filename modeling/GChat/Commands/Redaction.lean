import GChat.Commands.Agreement
import GChat.Journal.Submit

/-!
# What recall keeps of a secret

The arguments of a command that carries a secret should not be told from what is kept of it.
They are hidden wherever the command stands right behind its slash. The parsers that execute a
command also take one that stands behind white space, and such a text is kept whole.
-/

namespace GChat

namespace Commands

open Foundation
open Journal (expand actionName)

/-! ### Commands that carry a secret -/

/-- The destination is an invitation: not a channel that is known by its name. -/
def isInvitation (destination : String) : Bool :=
  destination != "" && !startsWith destination "#" && !startsWith destination "extension/cmd/"

/-- The arguments of what is executed. -/
def Executed.args : Executed → String
  | .preference _ args | .contact _ args | .hosted _ args | .network args | .extension _ args
  | .channel _ args => args
  | .message text => text

/-- What is executed carries a card, a link, an invitation or a code. -/
def Executed.secret : Executed → Bool
  | .contact command args =>
      command == "contact" && ["add", "update"].contains (headWord args)
  | .hosted command args => command == "hosted" && (splitHead args).1 == "join"
  | .network args => startsWith args "join "
  | .channel command args =>
      command == "join" && isInvitation (splitHead args).1 ||
        command == "reconnect" && trimWhitespace args != ""
  | _ => false

/-- What a submitted text is executed as. -/
def executes (aliases : Aliases) (conversation : Option String) (text : String) :
    Except String Executed := do
  submit conversation (← expand aliases.table text)

/-- Two texts are executed as the same command, which carries a secret, and differ in nothing
but its arguments. -/
def Twins (aliases : Aliases) (conversation : Option String) (text text' : String) : Prop :=
  ∃ head executed executed',
    executes aliases conversation text = .ok executed ∧
    executes aliases conversation text' = .ok executed' ∧
    executed.secret = true ∧ executed'.secret = true ∧
    text = head ++ executed.args ∧ text' = head ++ executed'.args

/-- White space stands between the slash and the command. -/
def Detached (text : String) : Prop := (splitHead text).1 = "/"

/-! ### Texts that begin alike -/

theorem takeWhile_append_of_mem {α : Type} {p : α → Bool} {l : List α} {a : α} (ha : a ∈ l)
    (hp : p a = false) (l' : List α) : (l ++ l').takeWhile p = l.takeWhile p := by
  rw [List.takeWhile_append, if_neg]
  intro hlength
  have heq := (List.takeWhile_prefix p (l := l)).eq_of_length hlength
  rw [← heq] at ha
  rw [List.mem_takeWhile_imp ha] at hp
  cases hp

/-- A first word and what follows it, in front of any text. -/
theorem splitHead_front {front word : List Char} {sep : Char}
    (hfront : ∀ c ∈ front, isWhitespace c = true) (hword : ∀ c ∈ word, isWhitespace c = false)
    (hne : word ≠ []) (hsep : isWhitespace sep = true) (rest : String) :
    splitHead (String.ofList (front ++ (word ++ [sep])) ++ rest) =
      (String.ofList word, rest) := by
  have hdrop : (front ++ (word ++ sep :: rest.toList)).dropWhile isWhitespace =
      word ++ sep :: rest.toList := by
    rw [List.dropWhile_append_of_pos hfront]
    cases word with
    | nil => exact absurd rfl hne
    | cons c word => exact List.dropWhile_cons_of_neg (by simp [hword c List.mem_cons_self])
  have hpos : ∀ c ∈ word, (!isWhitespace c) = true := by
    intro c hc
    rw [hword c hc]
    rfl
  have htext : (String.ofList (front ++ (word ++ [sep])) ++ rest).toList =
      front ++ (word ++ sep :: rest.toList) := by
    simp
  unfold splitHead
  rw [htext]
  dsimp only
  rw [hdrop, List.takeWhile_append_of_pos hpos, List.dropWhile_append_of_pos hpos]
  simp [hsep]

/-- A text with arguments has a first word and a white space in front of them. -/
theorem splitHead_cut {text : String} (h : (splitHead text).2 ≠ "") :
    ∃ front word sep, text = String.ofList (front ++ (word ++ [sep])) ++ (splitHead text).2 ∧
      (∀ c ∈ front, isWhitespace c = true) ∧ (∀ c ∈ word, isWhitespace c = false) ∧
        word ≠ [] ∧ isWhitespace sep = true := by
  have hfront := List.takeWhile_append_dropWhile (p := isWhitespace) (l := text.toList)
  have hword := List.takeWhile_append_dropWhile (p := fun c => !isWhitespace c)
    (l := text.toList.dropWhile isWhitespace)
  cases htail : (text.toList.dropWhile isWhitespace).dropWhile fun c => !isWhitespace c with
  | nil =>
      simp only [splitHead, htail, List.drop_nil] at h
      exact absurd rfl h
  | cons sep rest =>
      have hsep : isWhitespace sep = true := by
        have hhead := List.head?_dropWhile_not (fun c => !isWhitespace c)
          (text.toList.dropWhile isWhitespace)
        rw [htail] at hhead
        simpa using hhead
      refine ⟨text.toList.takeWhile isWhitespace,
        (text.toList.dropWhile isWhitespace).takeWhile (fun c => !isWhitespace c), sep, ?_,
        fun c hc => List.mem_takeWhile_imp hc, fun c hc => ?_, ?_, hsep⟩
      · apply String.toList_injective
        rw [htail] at hword
        have hargs : (splitHead text).2.toList = rest := by
          simp only [splitHead, htail, String.toList_ofList, List.drop_succ_cons, List.drop_zero]
        rw [String.toList_append, hargs, String.toList_ofList]
        simp only [List.append_assoc, List.cons_append, List.nil_append]
        rw [hword, hfront]
      · simpa using List.mem_takeWhile_imp hc
      · intro hnil
        -- no first word, so the text begins with the white space that was skipped
        rw [hnil, htail, List.nil_append] at hword
        have hhead := List.head?_dropWhile_not isWhitespace text.toList
        rw [← hword] at hhead
        simp [hsep] at hhead

/-- In front of the arguments stands the same word, whatever they are. -/
theorem splitHead_head {text head args : String} (h : text = head ++ args)
    (hargs : (splitHead text).2 = args) (hne : args ≠ "") (rest : String) :
    splitHead (head ++ rest) = ((splitHead text).1, rest) := by
  obtain ⟨front, word, sep, htext, hfront, hword, hsome, hsep⟩ :=
    splitHead_cut (by rwa [hargs])
  rw [hargs] at htext
  have hhead : head = String.ofList (front ++ (word ++ [sep])) :=
    String.append_left_inj args |>.mp (h.symm.trans htext)
  have hfirst := splitHead_front hfront hword hsome hsep args
  rw [← htext] at hfirst
  rw [hhead, splitHead_front hfront hword hsome hsep rest, hfirst]

/-! ### What is executed -/

section Executing

variable {aliases : Aliases} {conversation : Option String} {text rest : String}
  {executed : Executed}

/-- What follows the slash is a command that carries a secret. -/
def SecretCommand (rest : String) : Prop :=
  headWord rest = "contact" ∧ contactRecall (splitHead rest).2 = .contact ∨
    headWord rest = "hosted" ∨
    headWord rest = "join" ∧ isInvitation (splitHead (splitHead rest).2).1 = true ∨
    headWord rest = "reconnect"

theorem slashCommand_none (h : afterSlash text = none) : slashCommand text = ("say", text) := by
  rw [slashCommand, h]

theorem slashCommand_some (h : afterSlash text = some rest) :
    slashCommand text = splitHead rest := by
  rw [slashCommand, h]

theorem trimWhitespace_empty : trimWhitespace "" = "" := by decide

theorem submitContact_secret (h : submitContact conversation text = .ok executed)
    (hsecret : executed.secret = true) :
    ∃ rest, afterSlash text = some rest ∧ executed.args = (splitHead rest).2 ∧
      (splitHead rest).2 ≠ "" ∧ SecretCommand rest := by
  have hcontact : ∃ command, executed = .contact command (slashCommand text).2 ∧
      command = toAsciiLowercase (slashCommand text).1 := by
    unfold submitContact at h
    dsimp only at h
    split at h
    · cases h
      exact ⟨_, rfl, rfl⟩
    · split at h
      · cases h
      · split at h
        · cases h
          exact ⟨_, rfl, rfl⟩
        · cases h
  obtain ⟨command, rfl, hcommand⟩ := hcontact
  simp only [Executed.secret, Bool.and_eq_true, beq_iff_eq] at hsecret
  obtain ⟨rfl, hargs⟩ := hsecret
  cases hslash : afterSlash text with
  | none =>
      rw [slashCommand_none hslash] at hcommand
      exact absurd (show "contact" = toAsciiLowercase "say" from hcommand) (by decide)
  | some rest =>
      rw [slashCommand_some hslash] at hcommand hargs
      refine ⟨rest, rfl, congrArg Prod.snd (slashCommand_some hslash), ?_,
        Or.inl ⟨hcommand.symm, ?_⟩⟩
      · intro hempty
        rw [hempty] at hargs
        revert hargs
        decide
      · exact if_pos hargs

theorem submitHosted_secret (h : submitHosted conversation text = .ok executed)
    (hsecret : executed.secret = true) :
    ∃ rest, afterSlash text = some rest ∧ executed.args = (splitHead rest).2 ∧
      (splitHead rest).2 ≠ "" ∧ SecretCommand rest := by
  have hhosted : executed =
      .hosted (toAsciiLowercase (slashCommand text).1) (slashCommand text).2 := by
    unfold submitHosted at h
    dsimp only at h
    split at h
    · cases h
      rfl
    · split at h
      · cases h
      · split at h
        · cases h
          rfl
        · cases h
  subst hhosted
  simp only [Executed.secret, Bool.and_eq_true, beq_iff_eq] at hsecret
  obtain ⟨hcommand, hargs⟩ := hsecret
  cases hslash : afterSlash text with
  | none =>
      rw [slashCommand_none hslash] at hcommand
      exact absurd (show toAsciiLowercase "say" = "hosted" from hcommand) (by decide)
  | some rest =>
      rw [slashCommand_some hslash] at hcommand hargs
      refine ⟨rest, rfl, congrArg Prod.snd (slashCommand_some hslash), ?_,
        Or.inr (Or.inl hcommand)⟩
      intro hempty
      rw [hempty] at hargs
      revert hargs
      decide

theorem submitChannel_secret (h : (submitChannel conversation text).secret = true) :
    ∃ rest, afterSlash text = some rest ∧
      (submitChannel conversation text).args = (splitHead rest).2 ∧
      (splitHead rest).2 ≠ "" ∧ SecretCommand rest := by
  unfold submitChannel at h ⊢
  dsimp only at h ⊢
  cases hslash : afterSlash text with
  | none =>
      rw [hslash] at h
      dsimp only at h
      split at h
      · cases h
      · cases h
  | some rest =>
      rw [slashCommand_some hslash, hslash] at h
      rw [slashCommand_some hslash]
      dsimp only at h ⊢
      split
      case isTrue hextension =>
        rw [if_pos hextension] at h
        cases h
      case isFalse hextension =>
        rw [if_neg hextension] at h
        simp only [Executed.secret, Bool.or_eq_true, Bool.and_eq_true, beq_iff_eq] at h
        refine ⟨rest, rfl, rfl, ?_, Or.inr (Or.inr ?_)⟩
        · intro hempty
          rw [hempty, trimWhitespace_empty] at h
          obtain ⟨-, hjoin⟩ | ⟨-, hcode⟩ := h
          · revert hjoin
            decide
          · cases hcode
        · obtain ⟨hjoin, hinvitation⟩ | ⟨hreconnect, -⟩ := h
          · exact Or.inl ⟨hjoin, hinvitation⟩
          · exact Or.inr hreconnect

/-- A command that carries a secret is one of the network, or what follows the slash. -/
theorem submit_secret (h : submit conversation text = .ok executed)
    (hsecret : executed.secret = true) :
    (headWord text = "/network" ∧ executed = .network (splitHead text).2 ∧
      startsWith (splitHead text).2 "join " = true) ∨
    ∃ rest, afterSlash text = some rest ∧ executed.args = (splitHead rest).2 ∧
      (splitHead rest).2 ≠ "" ∧ SecretCommand rest := by
  have hnetwork : ∀ {p : String → Bool} {args : String},
      (networkArguments text).filter p = some args →
      headWord text = "/network" ∧ args = (splitHead text).2 ∧ p args = true := by
    intro p args hargs
    rw [networkArguments_eq, Option.filter_eq_some_iff] at hargs
    obtain ⟨hargs, hp⟩ := hargs
    split at hargs
    next hword =>
      cases hargs
      exact ⟨hword, rfl, hp⟩
    next => cases hargs
  unfold submit at h
  split at h
  next args hargs =>
    obtain ⟨hword, rfl, hrelay⟩ := hnetwork hargs
    cases h
    exact Or.inl ⟨hword, rfl, hsecret⟩
  next =>
    split at h
    · cases h
      cases hsecret
    · split at h
      · exact Or.inr (submitContact_secret h hsecret)
      · split at h
        · exact Or.inr (submitHosted_secret h hsecret)
        · split at h
          next args hargs =>
            obtain ⟨hword, rfl, -⟩ := hnetwork hargs
            cases h
            exact Or.inl ⟨hword, rfl, hsecret⟩
          next =>
            cases h
            exact Or.inr (submitChannel_secret hsecret)

/-- What is kept of the commands that carry a secret, by their words. -/
def keptOf (word : String) : Recall :=
  if word = "/contact" then .contact
  else if word = "/hosted" then .hosted
  else if word = "/reconnect" then .reconnect
  else if word = "/network" then .network
  else .join

/-- A text that is one word. -/
def isWord (text : String) : Bool :=
  !text.toList.isEmpty && text.toList.all fun c => !isWhitespace c

theorem isWord_iff {text : String} : isWord text = true ↔
    text.toList ≠ [] ∧ ∀ c ∈ text.toList, isWhitespace c = false := by
  simp [isWord]

/-- Arguments that begin with a name have it as their first word. -/
theorem startsWith_splitHead {args beginning : String} (hword : isWord beginning = true)
    (h : startsWith args beginning = true) : startsWith (splitHead args).1 beginning = true := by
  obtain ⟨hne, hword⟩ := isWord_iff.mp hword
  rw [startsWith_iff] at h ⊢
  obtain ⟨rest, hrest⟩ := h
  have hpos : ∀ c ∈ beginning.toList, (!isWhitespace c) = true := by
    intro c hc
    rw [hword c hc]
    rfl
  have hdrop : args.toList.dropWhile isWhitespace = args.toList := by
    rw [← hrest]
    cases hb : beginning.toList with
    | nil => exact absurd hb hne
    | cons c tail =>
        refine List.dropWhile_cons_of_neg ?_
        rw [hword c (hb ▸ List.mem_cons_self)]
        nofun
  simp only [splitHead, hdrop, String.toList_ofList]
  rw [← hrest, List.takeWhile_append_of_pos hpos]
  exact List.prefix_append _ _

theorem joinRecall_of_invitation {args : String} (h : isInvitation (splitHead args).1 = true) :
    joinRecall args = .join := by
  simp only [isInvitation, Bool.and_eq_true, Bool.not_eq_true'] at h
  obtain ⟨⟨-, hname⟩, hextension⟩ := h
  have hhash : startsWith args "#" = false := by
    rw [Bool.eq_false_iff]
    intro hstarts
    rw [startsWith_splitHead (by decide) hstarts] at hname
    cases hname
  have hroom : startsWith args "extension/cmd/" = false := by
    rw [Bool.eq_false_iff]
    intro hstarts
    rw [startsWith_splitHead (by decide) hstarts] at hextension
    cases hextension
  rw [joinRecall, hhash, hroom]
  rfl

theorem networkRecall_of_join {args : String} (h : startsWith args "join " = true) :
    networkRecall args = .network := by
  have hother : ∀ status ∈ dnsArguments ++ relayArguments, startsWith status "join " = false := by
    decide
  have hnot : ∀ {l : List String}, l ⊆ dnsArguments ++ relayArguments → l.contains args = false := by
    intro l hl
    rw [Bool.eq_false_iff]
    intro hmem
    rw [hother args (hl (List.contains_iff_mem.mp hmem))] at h
    cases h
  rw [networkRecall, hnot (List.subset_append_left _ _), hnot (List.subset_append_right _ _)]
  rfl

theorem headWord_of_detached (h : Detached text) : headWord text = "/" := by
  rw [headWord, h]
  decide

/-- The command as it is read by the redaction. -/
theorem headWord_of_slash (h : afterSlash text = some rest) (hword : ¬Detached text) :
    headWord text = "/" ++ headWord rest ∧ (splitHead text).2 = (splitHead rest).2 :=
  headWord_afterSlash h hword

/-- Right behind its slash a command that carries a secret is known by its word. -/
theorem recallClass_secret (h : submit conversation text = .ok executed)
    (hsecret : executed.secret = true) (hword : ¬Detached text) :
    recallClass text = keptOf (headWord text) ∧
      headWord text ∈ ["/network", "/contact", "/hosted", "/join", "/reconnect"] := by
  obtain ⟨hnetwork, -, hjoin⟩ | ⟨rest, hslash, -, -, hcommand⟩ := submit_secret h hsecret
  · rw [recallClass_network hnetwork, networkRecall_of_join hjoin, hnetwork]
    decide
  · obtain ⟨hhead, hargs⟩ := headWord_of_slash hslash hword
    obtain ⟨hcontact, hrecall⟩ | hhosted | ⟨hjoin, hinvitation⟩ | hreconnect := hcommand
    · have hname : headWord text = "/contact" := by rw [hhead, hcontact]; rfl
      rw [recallClass_eq, hname, if_pos rfl, hargs, hrecall]
      decide
    · have hname : headWord text = "/hosted" := by rw [hhead, hhosted]; rfl
      rw [recallClass_hosted hname, hname]
      decide
    · have hname : headWord text = "/join" := by rw [hhead, hjoin]; rfl
      rw [recallClass_eq, hname, if_neg (by decide), if_neg (by decide), if_neg (by decide),
        if_neg (by decide), if_pos rfl, hargs, joinRecall_of_invitation hinvitation]
      decide
    · have hname : headWord text = "/reconnect" := by rw [hhead, hreconnect]; rfl
      rw [recallClass_eq, hname, if_neg (by decide), if_neg (by decide), if_pos rfl]
      decide

theorem recallText_of_detached (h : Detached text) : recallText text = text := by
  have hhead := headWord_of_detached h
  have hwhole : recallClass text = .whole := by
    apply recallClass_other <;> rw [hhead] <;> decide
  rw [recallText, hwhole]

/-- No alias stands for a command that carries a secret. -/
theorem executes_secret (h : executes aliases conversation text = .ok executed)
    (hsecret : executed.secret = true) : submit conversation text = .ok executed := by
  obtain ⟨expanded, hexpand, hsubmit⟩ := bind_eq_ok.mp h
  obtain rfl | htarget := expand_cases hexpand
  · exact hsubmit
  · have hother : ∀ word ∈ "/" :: ["/network", "/contact", "/hosted", "/join", "/reconnect"],
        aliasTargets.contains word = false := by decide
    have hmem : headWord expanded ∈
        "/" :: ["/network", "/contact", "/hosted", "/join", "/reconnect"] := by
      by_cases hword : Detached expanded
      · exact List.mem_cons.mpr (Or.inl (headWord_of_detached hword))
      · exact List.mem_cons_of_mem _ (recallClass_secret hsubmit hsecret hword).2
    rw [hother _ hmem] at htarget
    cases htarget

end Executing

/-! ### Texts that differ in the arguments -/

section Pairs

variable {aliases : Aliases} {conversation : Option String} {text text' head : String}
  {executed executed' : Executed}

theorem actionName_eq (text : String) :
    actionName text =
      if (afterSlash text).isSome then (splitHead text).1 else "Send message" := by
  unfold actionName
  cases hslash : afterSlash text with
  | none =>
      have hstarts : ¬text.startsWith "/" = true := by
        rw [String.startsWith_string_iff]
        rintro ⟨rest, hrest⟩
        rw [afterSlash, ← hrest] at hslash
        cases hslash
      rw [if_neg hstarts]
      rfl
  | some rest =>
      have htext := afterSlash_eq_some hslash
      have hstarts : text.startsWith "/" = true := by
        rw [String.startsWith_string_iff, htext]
        exact ⟨rest.toList, rfl⟩
      rw [if_pos hstarts, List.headD_eq_head?_getD, head_splitWhitespace hslash]
      rfl

theorem afterSlash_isSome (text : String) :
    (afterSlash text).isSome = (text.toList.head? == some '/') := by
  unfold afterSlash
  cases text.toList with
  | nil => rfl
  | cons c rest =>
      by_cases hc : c = '/'
      · subst hc
        rfl
      · simp [hc]

/-- In front of the arguments of a secret stand the same first words, whatever they are. -/
theorem words_of_secret (h : submit conversation text = .ok executed)
    (hsecret : executed.secret = true) (htext : text = head ++ executed.args) (args : String) :
    (splitHead (head ++ args)).1 = (splitHead text).1 ∧
      (afterSlash (head ++ args)).isSome = (afterSlash text).isSome := by
  obtain ⟨-, rfl, hjoin⟩ | ⟨rest, hslash, hargs, hne, -⟩ := submit_secret h hsecret
  · have hsome : (splitHead text).2 ≠ "" := by
      intro hempty
      rw [hempty] at hjoin
      revert hjoin
      decide
    obtain ⟨front, word, sep, hcut, hfront, hword, hnonempty, hsep⟩ := splitHead_cut hsome
    have hhead : head = String.ofList (front ++ (word ++ [sep])) :=
      (String.append_left_inj _).mp (htext.symm.trans hcut)
    have hword' := splitHead_front hfront hword hnonempty hsep args
    have hfirst := splitHead_head htext rfl hsome args
    refine ⟨by rw [hfirst], ?_⟩
    rw [afterSlash_isSome, afterSlash_isSome, htext, hhead]
    cases front with
    | nil =>
        cases word with
        | nil => exact absurd rfl hnonempty
        | cons c word => simp
    | cons c front => simp
  · rw [hargs] at htext
    obtain ⟨front, word, sep, hcut, -, -, -, hsep⟩ := splitHead_cut hne
    have hchars := afterSlash_eq_some hslash
    have hhead : head = String.ofList ('/' :: (front ++ (word ++ [sep]))) := by
      refine (String.append_left_inj (splitHead rest).2).mp (htext.symm.trans ?_)
      apply String.toList_injective
      rw [hchars]
      conv_lhs => rw [hcut]
      simp
    have hbegins : ∀ x : String, afterSlash (head ++ x) =
        some (String.ofList (front ++ (word ++ [sep]) ++ x.toList)) := by
      intro x
      rw [hhead, afterSlash]
      simp
    have hmem : sep ∈ front ++ (word ++ [sep]) := by simp
    have hnot : (!isWhitespace sep) = false := by rw [hsep]; rfl
    have hfirst : ∀ x : String, (splitHead (head ++ x)).1 =
        String.ofList ('/' :: (front ++ (word ++ [sep])).takeWhile fun c => !isWhitespace c) := by
      intro x
      rw [(splitHead_of_slash (hbegins x)).1, String.toList_ofList,
        takeWhile_append_of_mem hmem hnot]
    constructor
    · conv_rhs => rw [htext]
      rw [hfirst, hfirst]
    · conv_rhs => rw [htext]
      rw [hbegins, hbegins, Option.isSome_some, Option.isSome_some]

theorem Twins.words (h : Twins aliases conversation text text') :
    (splitHead text').1 = (splitHead text).1 ∧
      (afterSlash text').isSome = (afterSlash text).isSome := by
  obtain ⟨head, executed, executed', hexecutes, -, hsecret, -, htext, htext'⟩ := h
  have hwords := words_of_secret (executes_secret hexecutes hsecret) hsecret htext executed'.args
  rwa [← htext'] at hwords

theorem recallText_congr (h : recallClass text = recallClass text')
    (hwhole : recallClass text ≠ .whole) : recallText text = recallText text' := by
  rw [recallText, recallText, ← h]
  cases hclass : recallClass text with
  | whole => exact absurd hclass hwhole
  | _ => rfl

/-- What is kept does not depend on the secret exactly if the command stands right behind its
slash. -/
theorem Twins.recall_iff (h : Twins aliases conversation text text') (hne : text ≠ text') :
    recallText text = recallText text' ↔ ¬Detached text := by
  obtain ⟨hword, -⟩ := h.words
  obtain ⟨head, executed, executed', hexecutes, hexecutes', hsecret, hsecret', -, -⟩ := h
  have hdetached : Detached text' ↔ Detached text := by
    rw [Detached, Detached, hword]
  constructor
  · intro heq hbehind
    rw [recallText_of_detached hbehind, recallText_of_detached (hdetached.mpr hbehind)] at heq
    exact hne heq
  · intro hbehind
    obtain ⟨hclass, hmem⟩ :=
      recallClass_secret (executes_secret hexecutes hsecret) hsecret hbehind
    obtain ⟨hclass', -⟩ := recallClass_secret (executes_secret hexecutes' hsecret') hsecret'
      (fun hbehind' => hbehind (hdetached.mp hbehind'))
    have hsame : headWord text' = headWord text := congrArg toAsciiLowercase hword
    refine recallText_congr ?_ ?_
    · rw [hclass, hclass', hsame]
    · rw [hclass]
      have hkept : ∀ word ∈ ["/network", "/contact", "/hosted", "/join", "/reconnect"],
          keptOf word ≠ .whole := by decide
      exact hkept _ hmem

/-- The name of the action never depends on the secret. -/
theorem Twins.action (h : Twins aliases conversation text text') :
    actionName text' = actionName text := by
  obtain ⟨hword, hslash⟩ := h.words
  rw [actionName_eq, actionName_eq, hword, hslash]

end Pairs

/-- The only arguments that are kept with their command. -/
theorem mem_of_status {text args : String} (h : recallClass text = .status args) :
    args ∈ dnsArguments ++ relayArguments := by
  rw [recallClass_eq] at h
  split at h
  · unfold contactRecall at h
    split at h <;> cases h
  · split at h
    · cases h
    · split at h
      · cases h
      · split at h
        · unfold networkRecall at h
          split at h
          next hmem =>
            cases h
            simpa using hmem
          next => cases h
        · split at h
          · unfold joinRecall at h
            split at h <;> cases h
          · cases h

/-- What was kept is kept as it is. -/
theorem recallText_idem (text : String) : recallText (recallText text) = recallText text := by
  cases hclass : recallClass text with
  | contact =>
      rw [show recallText text = "/contact " by rw [recallText, hclass]]
      decide
  | hosted =>
      rw [show recallText text = "/hosted " by rw [recallText, hclass]]
      decide
  | reconnect =>
      rw [show recallText text = "/reconnect" by rw [recallText, hclass]]
      decide
  | network =>
      rw [show recallText text = "/network join " by rw [recallText, hclass]]
      decide
  | join =>
      rw [show recallText text = "/join " by rw [recallText, hclass]]
      decide
  | whole =>
      have hwhole : recallText text = text := by rw [recallText, hclass]
      rw [hwhole, hwhole]
  | status args =>
      have hstatus := mem_of_status hclass
      have hkept : ∀ args ∈ dnsArguments ++ relayArguments,
          recallText ("/network " ++ args) = "/network " ++ args := by decide
      rw [show recallText text = "/network " ++ args by rw [recallText, hclass]]
      exact hkept args hstatus

end Commands

end GChat
