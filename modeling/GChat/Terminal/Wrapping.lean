import GChat.Foundation.CharBytes
import Mathlib.Data.List.SplitOn

/-!
# Wrapping lines

A text is wrapped word by word. A word that is wider than a line is broken where the next
character does not fit, at a byte position that is counted along with the columns.
-/

namespace GChat

namespace Terminal

open Foundation

/-- The columns of a character. A space has one. -/
structure CharWidths where
  width : Char → ℕ
  width_le : ∀ c, width c ≤ 2
  width_space : width ' ' = 1

variable (widths : CharWidths)

def displayWidth (chars : List Char) : ℕ := (chars.map widths.width).sum

/-- The lines so far, and the one that is being filled. -/
structure Wrapped where
  out : List (List Char)
  cur : List Char
  curWidth : ℕ

/-- The bytes of the characters that fit in a line. The first column is always taken. -/
def takeBytes (width : ℕ) : ℕ → ℕ → List Char → ℕ
  | _, bytes, [] => bytes
  | taken, bytes, c :: rest =>
      if width < taken + widths.width c ∧ 0 < taken then bytes
      else takeBytes width (taken + widths.width c) (bytes + c.utf8Size) rest

/-- The characters that `takeBytes` counts. -/
def takeFit (width : ℕ) : ℕ → List Char → List Char
  | _, [] => []
  | taken, c :: rest =>
      if width < taken + widths.width c ∧ 0 < taken then []
      else c :: takeFit width (taken + widths.width c) rest

theorem takeBytes_eq (width taken bytes : ℕ) (word : List Char) :
    takeBytes widths width taken bytes word =
      bytes + byteSize (takeFit widths width taken word) := by
  induction word generalizing taken bytes with
  | nil => rfl
  | cons c word ih =>
      rw [takeBytes, takeFit]
      split
      · rfl
      · rw [ih, byteSize_cons, Nat.add_assoc]

theorem takeFit_front (width taken : ℕ) (word : List Char) :
    takeFit widths width taken word <+: word := by
  induction word generalizing taken with
  | nil => exact List.prefix_rfl
  | cons c word ih =>
      rw [takeFit]
      split
      · exact List.nil_prefix
      · exact List.cons_prefix_cons.mpr ⟨rfl, ih _⟩

/-- The bytes that are taken end between two characters. -/
theorem splitAtByte_takeBytes (width : ℕ) (word : List Char) :
    ∃ rest, word = takeFit widths width 0 word ++ rest ∧
      splitAtByte word (takeBytes widths width 0 0 word) =
        some (takeFit widths width 0 word, rest) := by
  obtain ⟨rest, hrest⟩ := takeFit_front widths width 0 word
  refine ⟨rest, hrest.symm, ?_⟩
  rw [takeBytes_eq, Nat.zero_add]
  nth_rewrite 1 [← hrest]
  exact splitAtByte_append _ _

theorem takeFit_ne_nil (width : ℕ) {word : List Char} (h : word ≠ []) :
    takeFit widths width 0 word ≠ [] := by
  cases word with
  | nil => exact absurd rfl h
  | cons c word =>
      rw [takeFit, if_neg fun hover => absurd hover.2 (Nat.lt_irrefl 0)]
      exact List.cons_ne_nil _ _

theorem length_of_splitAtByte {width : ℕ} {word piece rest : List Char}
    (hwide : width < displayWidth widths word)
    (h : splitAtByte word (takeBytes widths width 0 0 word) = some (piece, rest)) :
    rest.length < word.length := by
  obtain ⟨other, hword, hsplit⟩ := splitAtByte_takeBytes widths width word
  rw [hsplit] at h
  cases h
  have hne : word ≠ [] := by
    rintro rfl
    exact absurd hwide (Nat.not_lt_zero _)
  have hpos := List.length_pos_iff.mpr (takeFit_ne_nil widths width hne)
  have hlength := congrArg List.length hword
  rw [List.length_append] at hlength
  omega

/-- Add a word to the line, behind lines that are full. -/
def wrapWord (width : ℕ) (wrapped : Wrapped) (word : List Char) : Option Wrapped :=
  let wlen := displayWidth widths word
  let sep := if wrapped.cur = [] then 0 else 1
  if wrapped.curWidth + sep + wlen ≤ width then
    some { wrapped with
      cur := wrapped.cur ++ ((if sep = 1 then [' '] else []) ++ word)
      curWidth := wrapped.curWidth + (sep + wlen) }
  else
    let wrapped := if wrapped.cur = [] then wrapped else ⟨wrapped.out ++ [wrapped.cur], [], 0⟩
    if hfits : wlen ≤ width then
      some ⟨wrapped.out, wrapped.cur ++ word, wlen⟩
    else
      match h : splitAtByte word (takeBytes widths width 0 0 word) with
      | none => none
      | some (piece, rest) =>
          let wrapped := { wrapped with out := wrapped.out ++ [piece] }
          if rest = [] then some wrapped else wrapWord width wrapped rest
termination_by word.length
decreasing_by exact length_of_splitAtByte widths (Nat.not_le.mp hfits) h

def wrapLine (s : String) (width : ℕ) : Option (List (List Char)) :=
  if width = 0 then some [[]]
  else
    ((s.toList.splitOn ' ').foldlM (wrapWord widths width) ⟨[], [], 0⟩).map fun wrapped =>
      wrapped.out ++ [wrapped.cur]

/-! ### The lines -/

/-- A line that fits, or one character that is too wide with characters of no width around it. -/
def Fits (width : ℕ) (line : List Char) : Prop :=
  displayWidth widths line ≤ width ∨
    ∃ front c back, line = front ++ c :: back ∧ width < widths.width c ∧
      ∀ d ∈ front ++ back, widths.width d = 0

variable {widths} {width : ℕ}

theorem displayWidth_cons (c : Char) (chars : List Char) :
    displayWidth widths (c :: chars) = widths.width c + displayWidth widths chars := by
  rw [displayWidth, List.map_cons, List.sum_cons, ← displayWidth]

theorem displayWidth_append (front back : List Char) :
    displayWidth widths (front ++ back) =
      displayWidth widths front + displayWidth widths back := by
  rw [displayWidth, List.map_append, List.sum_append, ← displayWidth, ← displayWidth]

/-- Behind the first column, what is taken fits. -/
theorem width_takeFit {taken : ℕ} (hpos : 0 < taken) (hle : taken ≤ width) (word : List Char) :
    taken + displayWidth widths (takeFit widths width taken word) ≤ width := by
  induction word generalizing taken with
  | nil => exact hle
  | cons c word ih =>
      rw [takeFit]
      split
      · exact hle
      next hfits =>
        have hmore : taken + widths.width c ≤ width := by
          by_contra hover
          exact hfits ⟨Nat.not_le.mp hover, hpos⟩
        have hrest := ih (Nat.lt_of_lt_of_le hpos (Nat.le_add_right _ _)) hmore
        rw [displayWidth_cons]
        omega

theorem takeFit_of_lt {taken : ℕ} (hover : width < taken) (word : List Char) :
    takeFit widths width taken word = [] := by
  cases word with
  | nil => rfl
  | cons c word =>
      rw [takeFit, if_pos]
      exact ⟨Nat.lt_of_lt_of_le hover (Nat.le_add_right _ _), Nat.zero_lt_of_lt hover⟩

/-- A broken word leaves a line that fits, or one character that is too wide. -/
theorem fits_takeFit (word : List Char) : Fits widths width (takeFit widths width 0 word) := by
  induction word with
  | nil => exact .inl (Nat.zero_le _)
  | cons c word ih =>
      rw [takeFit, if_neg fun hover => absurd hover.2 (Nat.lt_irrefl 0), Nat.zero_add]
      rcases Nat.eq_zero_or_pos (widths.width c) with hzero | hpos
      · rw [hzero]
        rcases ih with hle | ⟨front, d, back, hline, hwide, hzeros⟩
        · refine .inl ?_
          rw [displayWidth_cons, hzero, Nat.zero_add]
          exact hle
        · refine .inr ⟨c :: front, d, back, ?_, hwide, ?_⟩
          · rw [hline, List.cons_append]
          · rw [List.cons_append, List.forall_mem_cons]
            exact ⟨hzero, hzeros⟩
      · by_cases hle : widths.width c ≤ width
        · refine .inl ?_
          rw [displayWidth_cons]
          exact width_takeFit hpos hle word
        · refine .inr ⟨[], c, [], ?_, Nat.not_le.mp hle, nofun⟩
          rw [takeFit_of_lt (Nat.not_le.mp hle), List.nil_append]

/-- The characters that are no spaces. -/
def visible (chars : List Char) : List Char := chars.filter (· ≠ ' ')

theorem visible_append (front back : List Char) :
    visible (front ++ back) = visible front ++ visible back := List.filter_append _ _

def Wrapped.chars (wrapped : Wrapped) : List Char := wrapped.out.flatten ++ wrapped.cur

/-- The full lines fit, and the columns of the line that is being filled are counted. -/
structure Wrapped.Good (widths : CharWidths) (width : ℕ) (wrapped : Wrapped) : Prop where
  out : ∀ line ∈ wrapped.out, Fits widths width line
  cur : wrapped.curWidth = displayWidth widths wrapped.cur
  fits : wrapped.curWidth ≤ width

/-- The line that is being filled is moved to the others. -/
theorem good_flush {wrapped : Wrapped} (h : wrapped.Good widths width) :
    (if wrapped.cur = [] then wrapped else ⟨wrapped.out ++ [wrapped.cur], [], 0⟩ :
      Wrapped).Good widths width ∧
    (if wrapped.cur = [] then wrapped else ⟨wrapped.out ++ [wrapped.cur], [], 0⟩ : Wrapped).cur =
      [] ∧
    (if wrapped.cur = [] then wrapped else ⟨wrapped.out ++ [wrapped.cur], [], 0⟩ : Wrapped).chars =
      wrapped.chars := by
  by_cases hcur : wrapped.cur = []
  · rw [if_pos hcur]
    exact ⟨h, hcur, rfl⟩
  · rw [if_neg hcur]
    refine ⟨⟨?_, rfl, Nat.zero_le _⟩, rfl, ?_⟩
    · intro line hline
      rcases List.mem_append.mp hline with hline | hline
      · exact h.out line hline
      · rw [List.mem_singleton.mp hline]
        exact .inl (h.cur ▸ h.fits)
    · rw [Wrapped.chars, Wrapped.chars, List.flatten_append, List.flatten_singleton,
        List.append_nil]

/-- A word is added to its end, and no visible character is lost. -/
theorem wrapWord_spec {wrapped : Wrapped} (h : wrapped.Good widths width) (word : List Char) :
    ∃ after, wrapWord widths width wrapped word = some after ∧ after.Good widths width ∧
      visible after.chars = visible wrapped.chars ++ visible word := by
  induction hn : word.length using Nat.strong_induction_on generalizing wrapped word with
  | _ n ih =>
      rw [wrapWord]
      dsimp only
      by_cases hline : wrapped.curWidth + (if wrapped.cur = [] then 0 else 1) +
          displayWidth widths word ≤ width
      · rw [if_pos hline]
        refine ⟨_, rfl, ⟨h.out, ?_, ?_⟩, ?_⟩
        · dsimp only
          rw [displayWidth_append, displayWidth_append, h.cur]
          split
          · rfl
          · rw [if_pos rfl, displayWidth_cons, widths.width_space]
            rfl
        · dsimp only
          omega
        · rw [Wrapped.chars, Wrapped.chars, ← List.append_assoc, visible_append]
          split
          · rfl
          · rw [if_pos rfl, visible_append [' ']]
            rfl
      · rw [if_neg hline]
        obtain ⟨hgood, hempty, hchars⟩ := good_flush h
        generalize (if wrapped.cur = [] then wrapped else ⟨wrapped.out ++ [wrapped.cur], [], 0⟩ :
          Wrapped) = flushed at hgood hempty hchars ⊢
        by_cases hfits : displayWidth widths word ≤ width
        · rw [dif_pos hfits]
          refine ⟨_, rfl, ⟨hgood.out, ?_, hfits⟩, ?_⟩
          · rw [hempty, List.nil_append]
          · rw [← hchars, ← visible_append, Wrapped.chars, Wrapped.chars, List.append_assoc]
        · rw [dif_neg hfits]
          obtain ⟨rest, hword, hsplit⟩ := splitAtByte_takeBytes widths width word
          have hshort := length_of_splitAtByte widths (Nat.not_le.mp hfits) hsplit
          obtain ⟨piece, hpiece⟩ : ∃ piece, piece = takeFit widths width 0 word := ⟨_, rfl⟩
          have hline : Fits widths width (takeFit widths width 0 word) := fits_takeFit word
          rw [← hpiece] at hword hsplit hline
          have hbroken : (⟨flushed.out ++ [piece], flushed.cur, flushed.curWidth⟩ :
              Wrapped).Good widths width := by
            refine ⟨fun other hother => ?_, hgood.cur, hgood.fits⟩
            rcases List.mem_append.mp hother with hother | hother
            · exact hgood.out other hother
            · rw [List.mem_singleton.mp hother]
              exact hline
          have hkept : visible (⟨flushed.out ++ [piece], flushed.cur, flushed.curWidth⟩ :
              Wrapped).chars = visible wrapped.chars ++ visible piece := by
            rw [← hchars, ← visible_append, Wrapped.chars, Wrapped.chars, hempty,
              List.flatten_append, List.flatten_singleton, List.append_nil, List.append_nil]
          split
          next hnone =>
            rw [hsplit] at hnone
            cases hnone
          next found back hfound =>
            rw [hsplit] at hfound
            cases hfound
            by_cases hrest : rest = []
            · rw [if_pos hrest]
              refine ⟨_, rfl, hbroken, ?_⟩
              rw [hkept, hword, hrest, List.append_nil]
            · rw [if_neg hrest]
              obtain ⟨after, hafter, hgood', hvisible⟩ := ih _ (hn ▸ hshort) hbroken rest rfl
              refine ⟨after, hafter, hgood', ?_⟩
              rw [hvisible, hkept, List.append_assoc, ← visible_append, ← hword]

/-- The words of a text are its visible characters. -/
theorem visible_splitOn (chars : List Char) :
    (chars.splitOn ' ').flatMap visible = visible chars := by
  induction chars with
  | nil => rfl
  | cons c chars ih =>
      rw [List.splitOn, List.splitOnP_cons_eq_if_modifyHead]
      rw [List.splitOn] at ih
      by_cases hc : c = ' '
      · rw [if_pos (beq_iff_eq.mpr hc), List.flatMap_cons, ih, hc]
        rfl
      · have hcons : ∀ word, visible (c :: word) = c :: visible word :=
          fun word => List.filter_cons_of_pos (by simpa using hc)
        rw [if_neg (mt beq_iff_eq.mp hc), hcons, ← ih]
        cases hwords : chars.splitOnP (· == ' ') with
        | nil => exact absurd hwords (List.splitOnP_ne_nil _ _)
        | cons word words =>
            rw [List.modifyHead_cons, List.flatMap_cons, hcons, List.flatMap_cons,
              List.cons_append]

theorem wrapWords_spec {wrapped : Wrapped} (h : wrapped.Good widths width)
    (words : List (List Char)) :
    ∃ after, words.foldlM (wrapWord widths width) wrapped = some after ∧
      after.Good widths width ∧
      visible after.chars = visible wrapped.chars ++ words.flatMap visible := by
  induction words generalizing wrapped with
  | nil => exact ⟨wrapped, rfl, h, (List.append_nil _).symm⟩
  | cons word words ih =>
      obtain ⟨middle, hmiddle, hgood, hvisible⟩ := wrapWord_spec h word
      obtain ⟨after, hafter, hgood', hvisible'⟩ := ih hgood
      refine ⟨after, ?_, hgood', ?_⟩
      · rw [List.foldlM_cons, hmiddle]
        exact hafter
      · rw [hvisible', hvisible, List.flatMap_cons, List.append_assoc]

/-- Wrapping ends without a slice inside a character. Its lines have all visible characters in
their order, and each fits, or is one character that is too wide. -/
theorem wrapLine_lines (widths : CharWidths) (s : String) {width : ℕ} (hpos : 0 < width) :
    ∃ lines, wrapLine widths s width = some lines ∧
      visible lines.flatten = visible s.toList ∧ ∀ line ∈ lines, Fits widths width line := by
  have hstart : (⟨[], [], 0⟩ : Wrapped).Good widths width := ⟨nofun, rfl, Nat.zero_le _⟩
  obtain ⟨after, hafter, hgood, hvisible⟩ := wrapWords_spec hstart (s.toList.splitOn ' ')
  refine ⟨after.out ++ [after.cur], ?_, ?_, ?_⟩
  · rw [wrapLine, if_neg (Nat.pos_iff_ne_zero.mp hpos), hafter, Option.map_some]
  · rw [visible_splitOn] at hvisible
    rw [List.flatten_append, List.flatten_singleton]
    exact hvisible
  · intro line hline
    rcases List.mem_append.mp hline with hline | hline
    · exact hgood.out line hline
    · rw [List.mem_singleton.mp hline]
      exact .inl (hgood.cur ▸ hgood.fits)

/-- Letters of one column, and some characters of two and of none. -/
def CharWidths.sample : CharWidths where
  width c := if c = '\u0301' then 0 else if 0x3000 ≤ c.toNat then 2 else 1
  width_le c := by
    split
    · decide
    · split
      · decide
      · decide
  width_space := by decide

theorem wrapLine_narrow : ∃ lines, wrapLine CharWidths.sample "a \u4e2d\u6587 b" 1 = some lines ∧
    visible lines.flatten = visible "a \u4e2d\u6587 b".toList ∧
      ∀ line ∈ lines, Fits CharWidths.sample 1 line :=
  wrapLine_lines CharWidths.sample "a \u4e2d\u6587 b" Nat.one_pos

end Terminal

end GChat
