import GChat.Terminal.Invitations

/-!
# Recognising an invitation

A command that joins a network is two words with white space behind each. It is recognised while it
is typed if one plain space stands between the words and a plain space behind them.
-/

namespace GChat

namespace Terminal

open Foundation

/-! ### White space at the ends -/

theorem isWhitespace_toAsciiLower (c : Char) :
    isWhitespace (toAsciiLower c) = isWhitespace c := by
  rw [toAsciiLower]
  split
  next hupper =>
    simp only [Bool.and_eq_true, decide_eq_true_eq] at hupper
    have hvalid : (c.toNat + 32).isValidChar := Or.inl (by omega)
    have hnat : (Char.ofNat (c.toNat + 32)).toNat = c.toNat + 32 := by
      rw [Char.ofNat, dif_pos hvalid]
      rfl
    have hfalse : ∀ {d : Char}, 65 ≤ d.toNat → d.toNat ≤ 122 → isWhitespace d = false := by
      intro d hlow hhigh
      simp only [isWhitespace, Bool.or_eq_false_iff, Bool.and_eq_false_iff, decide_eq_false_iff_not,
        beq_eq_false_iff_ne]
      omega
    rw [hfalse (by omega) (by omega), hfalse (by omega) (by omega)]
  · rfl

theorem toAsciiLower_eq_space {c : Char} (h : toAsciiLower c = ' ') : c = ' ' := by
  have hspace : isWhitespace c = true := by
    rw [← isWhitespace_toAsciiLower, h]
    decide
  rw [← h, toAsciiLower, if_neg]
  intro hupper
  simp only [Bool.and_eq_true, decide_eq_true_eq] at hupper
  simp only [isWhitespace, Bool.or_eq_true, Bool.and_eq_true, decide_eq_true_eq, beq_iff_eq]
    at hspace
  omega

/-- The trimmed text and what is removed behind it. -/
theorem trim_append (text : List Char) :
    ∃ blank, text.dropWhile isWhitespace = trim text ++ blank ∧ blank.all isWhitespace = true := by
  refine ⟨(text.dropWhile isWhitespace).rtakeWhile isWhitespace, ?_, ?_⟩
  · exact List.rdropWhile_append_rtakeWhile.symm
  · rw [List.all_eq_true]
    exact fun c hc => List.mem_rtakeWhile_imp hc

/-- A text whose last character is no white space. -/
def EndsInWord (text : List Char) : Prop := text.rdropWhile isWhitespace = text

theorem endsInWord_trim (text : List Char) : EndsInWord (trim text) :=
  List.rdropWhile_idempotent _ _

theorem EndsInWord.suffix {front back : List Char} (h : EndsInWord (front ++ back))
    (hback : back ≠ []) : EndsInWord back := by
  rw [EndsInWord, List.rdropWhile_eq_self_iff] at h ⊢
  intro _
  have hlast := h (List.append_ne_nil_of_right_ne_nil front hback)
  rwa [List.getLast_append_of_ne_nil _ hback] at hlast

theorem EndsInWord.trim_eq {text : List Char} (h : EndsInWord text)
    (hne : text.dropWhile isWhitespace ≠ []) : trim text = text.dropWhile isWhitespace := by
  have hwhole : EndsInWord (text.takeWhile isWhitespace ++ text.dropWhile isWhitespace) := by
    rwa [List.takeWhile_append_dropWhile]
  exact hwhole.suffix hne

/-! ### Splitting once -/

theorem splitOnce_append {word : List Char} (hword : word.all (fun c => !isWhitespace c) = true)
    {w : Char} (hw : isWhitespace w = true) (rest : List Char) :
    splitOnce (word ++ w :: rest) = some (word, rest) := by
  have hany : (word ++ w :: rest).any isWhitespace = true := by
    rw [List.any_append, List.any_cons, hw, Bool.true_or, Bool.or_true]
  have hall : ∀ c ∈ word, (!isWhitespace c) = true := List.all_eq_true.mp hword
  rw [splitOnce, if_pos hany, List.takeWhile_append_of_pos hall, List.dropWhile_append_of_pos hall,
    List.takeWhile_cons_of_neg (by rw [hw]; decide), List.append_nil,
    List.dropWhile_cons_of_neg (by rw [hw]; decide)]
  rfl

theorem splitOnce_eq_some {text word rest : List Char} (h : splitOnce text = some (word, rest)) :
    ∃ w, isWhitespace w = true ∧ text = word ++ w :: rest := by
  rw [splitOnce] at h
  split at h
  next hany =>
    obtain ⟨hword, hrest⟩ := Prod.mk.inj (Option.some.inj h)
    have hsplit := List.takeWhile_append_dropWhile (p := fun c => !isWhitespace c) (l := text)
    cases htail : text.dropWhile fun c => !isWhitespace c with
    | nil =>
        rw [List.dropWhile_eq_nil_iff] at htail
        obtain ⟨c, hc, hspace⟩ := List.any_eq_true.mp hany
        have hnot := htail c hc
        rw [hspace] at hnot
        cases hnot
    | cons w tail =>
        have hw := List.head_dropWhile_not (fun c => !isWhitespace c)
          (l := text) (by rw [htail]; exact List.cons_ne_nil w tail)
        simp only [htail, List.head_cons, Bool.not_eq_false'] at hw
        rw [htail, List.drop_one, List.tail_cons] at hrest
        rw [hword, htail, hrest] at hsplit
        exact ⟨w, hw, hsplit.symm⟩
  · cases h

/-! ### The command that joins -/

/-- A text that is a command to join, with the white space in it. -/
structure JoinCommand (text : List Char) where
  command : List Char
  gap : List Char
  action : List Char
  gap' : List Char
  code : List Char
  text_eq : text = command ++ (gap ++ (action ++ (gap' ++ code)))
  command_same : sameWord command "/network" = true
  action_same : sameWord action "join" = true
  gap_ne : gap ≠ []
  gap_blank : gap.all isWhitespace = true
  gap'_ne : gap' ≠ []
  gap'_blank : gap'.all isWhitespace = true
  code_word : ∃ c rest, code = c :: rest ∧ isWhitespace c = false

theorem sameWord_iff {text : List Char} {word : String}
    (hword : word.toList.map toAsciiLower = word.toList) :
    sameWord text word = true ↔ text.map toAsciiLower = word.toList := by
  rw [sameWord, beq_iff_eq, hword]

/-- A word without white space in any case. -/
theorem all_of_sameWord {text : List Char} {word : String} (h : sameWord text word = true)
    (hword : (word.toList.map toAsciiLower).all (fun c => !isWhitespace c) = true) :
    text.all (fun c => !isWhitespace c) = true := by
  rw [sameWord, beq_iff_eq] at h
  rw [← h, List.all_map] at hword
  rw [List.all_eq_true] at hword ⊢
  intro c hc
  have hlower := hword c hc
  rwa [Function.comp_apply, isWhitespace_toAsciiLower] at hlower

namespace JoinCommand

variable {text : List Char} (j : JoinCommand text)

include j

theorem gap_cons : ∃ w blank, j.gap = w :: blank ∧ isWhitespace w = true ∧
    blank.all isWhitespace = true := by
  have hblank := j.gap_blank
  cases hgap : j.gap with
  | nil => exact absurd hgap j.gap_ne
  | cons w blank =>
      rw [hgap, List.all_cons, Bool.and_eq_true] at hblank
      exact ⟨w, blank, rfl, hblank⟩

theorem gap'_cons : ∃ w blank, j.gap' = w :: blank ∧ isWhitespace w = true ∧
    blank.all isWhitespace = true := by
  have hblank := j.gap'_blank
  cases hgap : j.gap' with
  | nil => exact absurd hgap j.gap'_ne
  | cons w blank =>
      rw [hgap, List.all_cons, Bool.and_eq_true] at hblank
      exact ⟨w, blank, rfl, hblank⟩

theorem action_cons : ∃ c rest, j.action = c :: rest ∧ isWhitespace c = false := by
  have hall := all_of_sameWord j.action_same (by decide)
  cases haction : j.action with
  | nil =>
      have hsame := j.action_same
      rw [haction] at hsame
      exact absurd hsame (by decide)
  | cons c rest =>
      rw [haction, List.all_cons, Bool.and_eq_true, Bool.not_eq_true'] at hall
      exact ⟨c, rest, rfl, hall.1⟩

end JoinCommand

/-- A command to join is imported when it is sent. -/
theorem submit_of_join {text : String} (j : JoinCommand (trim text.toList))
    (conversation : Option String) :
    ∃ code, submit conversation text = .importNetworkInvitation code := by
  obtain ⟨w, blank, hgap, hw, hblank⟩ := j.gap_cons
  obtain ⟨w', blank', hgap', hw', -⟩ := j.gap'_cons
  obtain ⟨c, rest, haction, hc⟩ := j.action_cons
  have hends := endsInWord_trim text.toList
  have htext := j.text_eq
  rw [hgap, List.cons_append] at htext
  have hdrop : (blank ++ (j.action ++ (j.gap' ++ j.code))).dropWhile isWhitespace =
      j.action ++ (j.gap' ++ j.code) := by
    rw [List.dropWhile_append_of_pos (List.all_eq_true.mp hblank), haction, List.cons_append,
      List.dropWhile_cons_of_neg (by rw [hc]; decide)]
  have hne : j.action ++ (j.gap' ++ j.code) ≠ [] := by
    rw [haction]
    exact List.cons_ne_nil _ _
  have hrest : EndsInWord (blank ++ (j.action ++ (j.gap' ++ j.code))) := by
    rw [htext] at hends
    rw [List.append_cons] at hends
    exact hends.suffix (List.append_ne_nil_of_right_ne_nil blank hne)
  have htrim := hrest.trim_eq (by rw [hdrop]; exact hne)
  have hfirst : splitOnce (trim text.toList) =
      some (j.command, blank ++ (j.action ++ (j.gap' ++ j.code))) := by
    have hsplit := splitOnce_append (all_of_sameWord j.command_same (by decide)) hw
      (blank ++ (j.action ++ (j.gap' ++ j.code)))
    rwa [← htext] at hsplit
  refine ⟨String.ofList (trim (blank' ++ j.code)), ?_⟩
  rw [submit, hfirst]
  dsimp only
  rw [htrim, hdrop, hgap', List.cons_append,
    splitOnce_append (all_of_sameWord j.action_same (by decide)) hw']
  dsimp only
  rw [j.command_same, j.action_same]
  rfl

/-- What is imported by its words is a command to join. -/
theorem join_of_submit {text : String} {conversation : Option String} {code : String}
    (h : submit conversation text = .importNetworkInvitation code) :
    Nonempty (JoinCommand (trim text.toList)) := by
  rw [submit] at h
  split at h
  next command arguments hcommand =>
    split at h
    next action behind haction =>
      split at h
      next hsame =>
        rw [Bool.and_eq_true] at hsame
        obtain ⟨w, hw, htext⟩ := splitOnce_eq_some hcommand
        obtain ⟨w', hw', htrim⟩ := splitOnce_eq_some haction
        have hends := endsInWord_trim text.toList
        rw [htext, List.append_cons] at hends
        have hdropne : arguments.dropWhile isWhitespace ≠ [] := by
          intro hnil
          rw [trim, hnil, List.rdropWhile_nil] at htrim
          exact List.append_ne_nil_of_right_ne_nil action (List.cons_ne_nil _ _) htrim.symm
        have hargs : arguments ≠ [] := by
          rintro rfl
          exact hdropne rfl
        have hargsEnd := hends.suffix hargs
        rw [hargsEnd.trim_eq hdropne] at htrim
        have hsplit := List.takeWhile_append_dropWhile (p := isWhitespace) (l := arguments)
        rw [htrim] at hsplit
        have hbehind := List.takeWhile_append_dropWhile (p := isWhitespace) (l := behind)
        have hcode : behind.dropWhile isWhitespace ≠ [] := by
          intro hnil
          rw [← hsplit, ← List.append_assoc] at hargsEnd
          have hword := hargsEnd.suffix (List.cons_ne_nil w' behind)
          have hall : ∀ c ∈ w' :: behind, isWhitespace c = true := by
            intro c hc
            rcases List.mem_cons.mp hc with rfl | hc
            · exact hw'
            · exact List.dropWhile_eq_nil_iff.mp hnil c hc
          rw [EndsInWord, List.rdropWhile_eq_nil_iff.mpr hall] at hword
          cases hword
        obtain ⟨c, rest, hcons⟩ := List.exists_cons_of_ne_nil hcode
        have hhead := List.head_dropWhile_not isWhitespace hcode
        exact ⟨{
          command := command
          gap := w :: arguments.takeWhile isWhitespace
          action := action
          gap' := w' :: behind.takeWhile isWhitespace
          code := behind.dropWhile isWhitespace
          text_eq := by
            rw [htext, List.cons_append, List.cons_append, hbehind, hsplit]
          command_same := hsame.1
          action_same := hsame.2
          gap_ne := List.cons_ne_nil _ _
          gap_blank := by
            rw [List.all_cons, hw, Bool.true_and, List.all_eq_true]
            exact fun c hc => List.mem_takeWhile_imp hc
          gap'_ne := List.cons_ne_nil _ _
          gap'_blank := by
            rw [List.all_cons, hw', Bool.true_and, List.all_eq_true]
            exact fun c hc => List.mem_takeWhile_imp hc
          code_word := ⟨c, rest, hcons, by
            simp only [hcons, List.head_cons] at hhead
            exact hhead⟩ }⟩
      · cases h
    · cases h
  · cases h

/-! ### Recognition -/

/-- A text that is imported when it is sent. -/
def Imports (text : String) : Prop :=
  ∃ conversation code, send conversation text = .importNetworkInvitation code

/-- In a command to join, one plain space between the words and a plain space behind them. -/
def Spaced (text : String) : Prop :=
  ∀ j : JoinCommand (trim text.toList), j.gap = [' '] ∧ j.gap'.head? = some ' '

/-- What is typed behind the first word is recognised by one space and the next word. -/
theorem join_isPrefix_iff {gap word rest : List Char} (h : gap.all isWhitespace = true)
    (hne : gap ≠ []) (hword : word.map toAsciiLower = "join".toList) :
    " join ".toList <+: (gap ++ (word ++ rest)).map toAsciiLower ↔
      gap = [' '] ∧ [' '] <+: rest.map toAsciiLower := by
  have hjoin : " join ".toList = ' ' :: ("join".toList ++ [' ']) := by decide
  cases gap with
  | nil => exact absurd rfl hne
  | cons w blank =>
      rw [List.all_cons, Bool.and_eq_true] at h
      rw [hjoin, List.cons_append, List.map_cons, List.cons_prefix_cons, List.map_append,
        List.map_append, hword]
      cases blank with
      | nil =>
          rw [List.map_nil, List.nil_append, List.prefix_append_right_inj]
          constructor
          · rintro ⟨hw, hrest⟩
            rw [toAsciiLower_eq_space hw.symm]
            exact ⟨rfl, hrest⟩
          · rintro ⟨hw, hrest⟩
            rw [(List.cons.inj hw).1]
            exact ⟨rfl, hrest⟩
      | cons b blank =>
          rw [List.all_cons, Bool.and_eq_true] at h
          constructor
          · rintro ⟨-, hrest⟩
            have hb := (List.cons_prefix_cons.mp hrest).1
            have hspace := isWhitespace_toAsciiLower b
            rw [← hb, h.2.1] at hspace
            exact absurd hspace (by decide)
          · rintro ⟨hgap, -⟩
            exact absurd (List.cons.inj hgap).2 (List.cons_ne_nil b blank)

/-- Among the commands to join, the recognised ones are those with plain spaces. -/
theorem isNetworkInvitation_of_join {text : String} (j : JoinCommand (trim text.toList)) :
    isNetworkInvitation text = true ↔ j.gap = [' '] ∧ j.gap'.head? = some ' ' := by
  obtain ⟨blank, hstart, -⟩ := trim_append text.toList
  obtain ⟨w, blank', hgap', hw, -⟩ := j.gap'_cons
  have hcommand := (sameWord_iff (by decide)).mp j.command_same
  have haction := (sameWord_iff (by decide)).mp j.action_same
  have htext : (trimStart text).map toAsciiLower = "/network".toList ++
      (j.gap ++ (j.action ++ (j.gap' ++ (j.code ++ blank)))).map toAsciiLower := by
    have hlist : trimStart text =
        j.command ++ (j.gap ++ (j.action ++ (j.gap' ++ (j.code ++ blank)))) := by
      rw [trimStart, hstart]
      nth_rewrite 1 [j.text_eq]
      simp only [List.append_assoc]
    rw [hlist, List.map_append, hcommand]
  have hmark : networkInvitationMark.toList.isPrefixOf (trimStart text) = false := by
    rw [Bool.eq_false_iff, Ne, List.isPrefixOf_iff_prefix]
    intro hfront
    have hlower := hfront.map toAsciiLower
    rw [htext] at hlower
    exact absurd (List.cons_prefix_cons.mp hlower).1 (by decide)
  have hword : "/network join ".toList = "/network".toList ++ " join ".toList := by decide
  rw [isNetworkInvitation, hmark, Bool.false_or, htext, hword, List.isPrefixOf_iff_prefix,
    List.prefix_append_right_inj, join_isPrefix_iff j.gap_blank j.gap_ne haction, hgap',
    List.cons_append, List.map_cons, List.cons_prefix_cons, List.head?_cons, Option.some_inj]
  constructor
  · rintro ⟨hgap, hspace, -⟩
    exact ⟨hgap, toAsciiLower_eq_space hspace.symm⟩
  · rintro ⟨hgap, rfl⟩
    exact ⟨hgap, rfl, List.nil_prefix⟩

theorem recognised_iff (text : String) :
    (Imports text → isNetworkInvitation text = true) ↔ Spaced text := by
  constructor
  · intro h j
    apply (isNetworkInvitation_of_join j).mp
    apply h
    by_cases hmark : networkInvitationMark.toList.isPrefixOf (trim text.toList) = true
    · exact ⟨none, _, if_pos hmark⟩
    · obtain ⟨code, hcode⟩ := submit_of_join j none
      exact ⟨none, code, (if_neg hmark).trans hcode⟩
  · rintro hspaced ⟨conversation, code, hsend⟩
    rw [send] at hsend
    split at hsend
    next hmark =>
      obtain ⟨blank, hstart, -⟩ := trim_append text.toList
      have hfront := (List.isPrefixOf_iff_prefix.mp hmark).trans (List.prefix_append _ blank)
      rw [isNetworkInvitation, trimStart, hstart, List.isPrefixOf_iff_prefix.mpr hfront]
      rfl
    · obtain ⟨j⟩ := join_of_submit hsend
      exact (isNetworkInvitation_of_join j).mpr (hspaced j)

end Terminal

end GChat
