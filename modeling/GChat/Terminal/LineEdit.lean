import GChat.Foundation.CharBytes
import GChat.Foundation.Text
import Mathlib.Data.List.DropRight

/-!
# The line editor

The field keeps its text and the insertion point as a number of characters, which may be behind
the end. Each edit finds a byte position and edits the text there. A character that is added at the
end counts the number up without looking at the text.
-/

namespace GChat

namespace Terminal

open Foundation

def maxInputChars : ℕ := 256 * 1024

/-- The largest number of the machine. -/
def usizeMax : ℕ := 2 ^ 64 - 1

structure LineEdit where
  value : String
  cursor : ℕ
  compact : Bool

namespace LineEdit

def chars (e : LineEdit) : List Char := e.value.toList

def len (e : LineEdit) : ℕ := e.chars.length

/-- The cursor within the value. -/
def position (e : LineEdit) : ℕ := min e.cursor e.len

/-- The byte at which a character begins, or the end. -/
def byteAt (e : LineEdit) (index : ℕ) : ℕ := byteSize (e.chars.take index)

/-- Insert at a byte. A position inside a character panics. -/
def insertStr (e : LineEdit) (byte : ℕ) (text : List Char) : Option String :=
  (splitAtByte e.chars byte).map fun pieces => String.ofList (pieces.1 ++ (text ++ pieces.2))

/-- Remove the bytes of a range. A range that ends before it starts panics too. -/
def removeRange (e : LineEdit) (start stop : ℕ) : Option String := do
  if start ≤ stop then
    let front ← splitAtByte e.chars start
    let back ← splitAtByte e.chars stop
    some (String.ofList (front.1 ++ back.2))
  else none

def insertChar (e : LineEdit) (c : Char) : Option (Bool × LineEdit) :=
  if maxInputChars ≤ byteSize e.chars ∧ maxInputChars ≤ e.len then some (false, e)
  else if byteSize e.chars ≤ e.cursor then
    -- The machine number starts again behind its largest value.
    some (true, { e with value := e.value.push c, cursor := (e.cursor + 1) % (usizeMax + 1) })
  else
    (e.insertStr (e.byteAt e.position) [c]).map fun value =>
      (true, { e with value := value, cursor := e.position + 1 })

def push (e : LineEdit) (c : Char) : Option LineEdit :=
  if isControl c || (e.compact && isWhitespace c) then some e
  else (e.insertChar c).map Prod.snd

/-- What is inserted for a pasted character. -/
def pasted (compact : Bool) (c : Char) : Option Char :=
  if compact then if isWhitespace c || isControl c then none else some c
  else if c = '\n' ∨ c = '\r' then some ' '
  else if isControl c then none
  else some c

def paste (e : LineEdit) : List Char → Option LineEdit
  | [] => some e
  | c :: raw =>
      match pasted e.compact c with
      | none => paste e raw
      | some c =>
          match e.insertChar c with
          | none => none
          | some (false, e) => some e
          | some (true, e) => paste e raw

def insertExact (e : LineEdit) (text : String) : Option LineEdit :=
  (e.insertStr (e.byteAt e.position) text.toList).map fun value =>
    { e with value := value, cursor := e.position + text.toList.length }

def set (e : LineEdit) (value : String) : LineEdit :=
  { e with value := value, cursor := value.toList.length }

def take (e : LineEdit) : String × LineEdit := (e.value, { e with value := "", cursor := 0 })

def backspace (e : LineEdit) : Option LineEdit :=
  if e.position = 0 then some e
  else
    (e.removeRange (e.byteAt (e.position - 1)) (e.byteAt e.position)).map fun value =>
      { e with value := value, cursor := e.position - 1 }

def delete (e : LineEdit) : Option LineEdit :=
  if e.len ≤ e.position then some e
  else
    (e.removeRange (e.byteAt e.position) (e.byteAt (e.position + 1))).map fun value =>
      { e with value := value, cursor := e.position }

def left (e : LineEdit) : LineEdit := { e with cursor := e.position - 1 }

def right (e : LineEdit) : LineEdit := { e with cursor := min (e.position + 1) e.len }

def home (e : LineEdit) : LineEdit := { e with cursor := 0 }

def toEnd (e : LineEdit) : LineEdit := { e with cursor := e.len }

def clear (e : LineEdit) : LineEdit := { e with value := "", cursor := 0 }

/-- Delete the word before the cursor, and the spaces behind it. -/
def deleteWord (e : LineEdit) : LineEdit :=
  let head := e.chars.take e.position
  let tail := e.chars.drop e.position
  let head := (head.rdropWhile (· == ' ')).rdropWhile (· != ' ')
  { e with value := String.ofList (head ++ tail), cursor := head.length }

end LineEdit

inductive Edit where
  | push (c : Char)
  | paste (raw : String)
  | insertExact (text : String)
  | set (value : String)
  | take
  | backspace
  | delete
  | deleteWord
  | left
  | right
  | home
  | toEnd
  | clear

/-- An edit of the field; `none` is a panic. -/
def edit (e : LineEdit) : Edit → Option LineEdit
  | .push c => e.push c
  | .paste raw => e.paste raw.toList
  | .insertExact text => e.insertExact text
  | .set value => some (e.set value)
  | .take => some e.take.2
  | .backspace => e.backspace
  | .delete => e.delete
  | .deleteWord => some e.deleteWord
  | .left => some e.left
  | .right => some e.right
  | .home => some e.home
  | .toEnd => some e.toEnd
  | .clear => some e.clear

/-! ### The reference editor -/

/-- The characters before the cursor and behind it. -/
structure Editor where
  before : List Char
  after : List Char
deriving DecidableEq

namespace Editor

def chars (r : Editor) : List Char := r.before ++ r.after

def insert (r : Editor) (c : Char) : Editor :=
  if maxInputChars ≤ r.chars.length then r else { r with before := r.before ++ [c] }

def push (compact : Bool) (r : Editor) (c : Char) : Editor :=
  if isControl c || (compact && isWhitespace c) then r else r.insert c

/-- Insert what is pasted, as long as there is room. -/
def paste (compact : Bool) (r : Editor) (raw : List Char) : Editor :=
  (raw.filterMap (LineEdit.pasted compact)).foldl insert r

/-- One character to the left. -/
def left (r : Editor) : Editor :=
  match r.before.getLast? with
  | none => r
  | some c => ⟨r.before.dropLast, c :: r.after⟩

def right (r : Editor) : Editor :=
  match r.after with
  | [] => r
  | c :: after => ⟨r.before ++ [c], after⟩

def edit (compact : Bool) (r : Editor) : Edit → Editor
  | .push c => r.push compact c
  | .paste raw => r.paste compact raw.toList
  | .insertExact text => { r with before := r.before ++ text.toList }
  | .set value => ⟨value.toList, []⟩
  | .take => ⟨[], []⟩
  | .backspace => { r with before := r.before.dropLast }
  | .delete => { r with after := r.after.tail }
  | .deleteWord =>
      { r with before := (r.before.rdropWhile (· == ' ')).rdropWhile (· != ' ') }
  | .left => r.left
  | .right => r.right
  | .home => ⟨[], r.chars⟩
  | .toEnd => ⟨r.chars, []⟩
  | .clear => ⟨[], []⟩

end Editor

/-- The field as the reference editor has it. -/
def LineEdit.view (e : LineEdit) : Editor :=
  ⟨e.chars.take e.position, e.chars.drop e.position⟩

/-! ### Positions -/

namespace LineEdit

variable {e : LineEdit} {c : Char}

theorem position_le (e : LineEdit) : e.position ≤ e.chars.length := Nat.min_le_right _ _

/-- Every byte position that is used is between two characters. -/
theorem splitAtByte_byteAt (e : LineEdit) (index : ℕ) :
    splitAtByte e.chars (e.byteAt index) = some (e.chars.take index, e.chars.drop index) := by
  rw [byteAt]
  nth_rewrite 1 [← List.take_append_drop index e.chars]
  exact splitAtByte_append _ _

theorem byteAt_mono (e : LineEdit) {i j : ℕ} (h : i ≤ j) : e.byteAt i ≤ e.byteAt j := by
  have hsplit : e.chars.take j = e.chars.take i ++ (e.chars.take j).drop i := by
    have htake : e.chars.take i = (e.chars.take j).take i := by
      rw [List.take_take, Nat.min_eq_left h]
    rw [htake, List.take_append_drop]
  rw [byteAt, byteAt, hsplit, byteSize_append]
  exact Nat.le_add_right _ _

theorem insertStr_byteAt (e : LineEdit) (index : ℕ) (text : List Char) :
    e.insertStr (e.byteAt index) text =
      some (String.ofList (e.chars.take index ++ (text ++ e.chars.drop index))) := by
  rw [insertStr, splitAtByte_byteAt, Option.map_some]

theorem removeRange_byteAt (e : LineEdit) {i j : ℕ} (h : i ≤ j) :
    e.removeRange (e.byteAt i) (e.byteAt j) =
      some (String.ofList (e.chars.take i ++ e.chars.drop j)) := by
  rw [removeRange, if_pos (e.byteAt_mono h), splitAtByte_byteAt, splitAtByte_byteAt]
  rfl

theorem view_eq {front back : List Char} (hchars : e.chars = front ++ back)
    (hposition : e.position = front.length) : e.view = ⟨front, back⟩ := by
  rw [view, hchars, hposition, List.take_left, List.drop_left]

theorem chars_view (e : LineEdit) : e.view.chars = e.chars := List.take_append_drop _ _

theorem length_before (e : LineEdit) : e.view.before.length = e.position := by
  rw [view, List.length_take, Nat.min_eq_left e.position_le]

/-- An edited text with the cursor between its two sides. -/
theorem view_mk (front back : List Char) (compact : Bool) :
    (⟨String.ofList (front ++ back), front.length, compact⟩ : LineEdit).view = ⟨front, back⟩ := by
  refine view_eq String.toList_ofList ?_
  rw [position, len, chars, String.toList_ofList, List.length_append]
  exact Nat.min_eq_left (Nat.le_add_right _ _)

end LineEdit

/-! ### Adding characters -/

namespace LineEdit

variable {e : LineEdit} {c : Char}

theorem full_iff : (maxInputChars ≤ byteSize e.chars ∧ maxInputChars ≤ e.len) ↔
    maxInputChars ≤ e.view.chars.length := by
  rw [chars_view]
  exact ⟨fun h => h.2, fun h => ⟨h.trans (length_le_byteSize e.chars), h⟩⟩

theorem insertChar_full (h : maxInputChars ≤ e.view.chars.length) :
    e.insertChar c = some (false, e) := by
  rw [insertChar, if_pos (full_iff.mpr h)]

/-- A character is added at the cursor, unless the number of the cursor starts again. -/
theorem insertChar_room (h : ¬ maxInputChars ≤ e.view.chars.length) :
    ∃ after, e.insertChar c = some (true, after) ∧ after.compact = e.compact ∧
      after.chars.length = e.chars.length + 1 ∧
      (e.cursor < usizeMax → after.view = e.view.insert c) := by
  rw [insertChar, if_neg (mt full_iff.mp h), Editor.insert, if_neg h]
  by_cases hend : byteSize e.chars ≤ e.cursor
  · rw [if_pos hend]
    have hposition : e.position = e.chars.length :=
      Nat.min_eq_right ((length_le_byteSize e.chars).trans hend)
    refine ⟨_, rfl, rfl, ?_, fun hcount => ?_⟩
    · rw [chars, String.toList_push, List.length_append, List.length_singleton]
      rfl
    · have hwrap : (e.cursor + 1) % (usizeMax + 1) = e.cursor + 1 :=
        Nat.mod_eq_of_lt (Nat.succ_lt_succ hcount)
      have hbefore : e.view.before = e.chars := by
        rw [view, hposition, List.take_length]
      have hafter : e.view.after = [] := by
        rw [view, hposition, List.drop_length]
      rw [hbefore, hafter, hwrap]
      refine view_eq ?_ ?_
      · rw [chars, String.toList_push, List.append_nil]
        rfl
      · have hlength := (length_le_byteSize e.chars).trans hend
        rw [position, len, chars, String.toList_push]
        refine Nat.min_eq_right ?_
        rw [List.length_append]
        exact Nat.succ_le_succ hlength
  · rw [if_neg hend, insertStr_byteAt, Option.map_some]
    refine ⟨_, rfl, rfl, ?_, fun _ => ?_⟩
    · rw [chars, String.toList_ofList, List.length_append, List.length_append,
        List.length_singleton, List.length_take, List.length_drop]
      have := e.position_le
      omega
    · have hview := view_mk (e.chars.take e.position ++ [c]) (e.chars.drop e.position) e.compact
      rw [List.length_append, List.length_take, Nat.min_eq_left e.position_le,
        List.length_singleton, List.append_assoc] at hview
      exact hview

/-- A character that is inserted is counted. -/
def Counts (e : LineEdit) (c : Char) : Prop :=
  ∀ after, e.insertChar c = some (true, after) → e.cursor < usizeMax

/-- Every pasted character that is inserted is counted. -/
def PasteCounts (e : LineEdit) : List Char → Prop
  | [] => True
  | c :: raw =>
      match pasted e.compact c with
      | none => PasteCounts e raw
      | some c =>
          match e.insertChar c with
          | some (true, after) => e.cursor < usizeMax ∧ PasteCounts after raw
          | _ => True

theorem push_some (e : LineEdit) (c : Char) :
    ∃ after, e.push c = some after ∧ after.compact = e.compact ∧
      after.chars.length ≤ max e.chars.length maxInputChars := by
  rw [push]
  split
  · exact ⟨e, rfl, rfl, Nat.le_max_left _ _⟩
  · by_cases hfull : maxInputChars ≤ e.view.chars.length
    · rw [insertChar_full hfull]
      exact ⟨e, rfl, rfl, Nat.le_max_left _ _⟩
    · obtain ⟨after, hinsert, hcompact, hlength, -⟩ := insertChar_room (c := c) hfull
      rw [hinsert]
      refine ⟨after, rfl, hcompact, ?_⟩
      rw [chars_view] at hfull
      exact le_max_of_le_right (by omega)

theorem push_view {after : LineEdit} (h : e.push c = some after)
    (hcounts : (isControl c || (e.compact && isWhitespace c)) = false → e.Counts c) :
    after.view = e.view.push e.compact c := by
  rw [push] at h
  rw [Editor.push]
  cases hskip : isControl c || (e.compact && isWhitespace c) with
  | true =>
      rw [hskip, if_pos rfl] at h
      cases h
      rfl
  | false =>
      rw [hskip, if_neg Bool.false_ne_true] at h
      rw [if_neg Bool.false_ne_true]
      by_cases hfull : maxInputChars ≤ e.view.chars.length
      · rw [insertChar_full hfull] at h
        cases h
        rw [Editor.insert, if_pos hfull]
      · obtain ⟨inserted, hinsert, -, -, hview⟩ := insertChar_room (c := c) hfull
        rw [hinsert] at h
        cases h
        exact hview (hcounts hskip _ hinsert)

theorem paste_some (e : LineEdit) (raw : List Char) :
    ∃ after, e.paste raw = some after ∧ after.compact = e.compact ∧
      after.chars.length ≤ max e.chars.length maxInputChars := by
  induction raw generalizing e with
  | nil => exact ⟨e, rfl, rfl, Nat.le_max_left _ _⟩
  | cons c raw ih =>
      rw [paste]
      cases pasted e.compact c with
      | none => exact ih e
      | some c =>
          dsimp only
          by_cases hfull : maxInputChars ≤ e.view.chars.length
          · rw [insertChar_full hfull]
            exact ⟨e, rfl, rfl, Nat.le_max_left _ _⟩
          · obtain ⟨inserted, hinsert, hcompact, hlength, -⟩ := insertChar_room (c := c) hfull
            rw [hinsert]
            obtain ⟨after, hafter, hcompact', hlength'⟩ := ih inserted
            rw [chars_view] at hfull
            exact ⟨after, hafter, hcompact'.trans hcompact, by omega⟩

/-- Nothing is inserted where there is no room. -/
theorem foldl_insert_full {r : Editor} (h : maxInputChars ≤ r.chars.length) (raw : List Char) :
    raw.foldl Editor.insert r = r := by
  induction raw with
  | nil => rfl
  | cons c raw ih => rw [List.foldl_cons, Editor.insert, if_pos h, ih]

theorem paste_view {raw : List Char} {after : LineEdit} (h : e.paste raw = some after)
    (hcounts : e.PasteCounts raw) : after.view = e.view.paste e.compact raw := by
  induction raw generalizing e with
  | nil =>
      cases h
      rfl
  | cons c raw ih =>
      rw [paste] at h
      rw [PasteCounts] at hcounts
      cases hpasted : pasted e.compact c with
      | none =>
          rw [hpasted] at h hcounts
          rw [ih h hcounts, Editor.paste, Editor.paste, List.filterMap_cons_none hpasted]
      | some c =>
          rw [hpasted] at h hcounts
          dsimp only at h hcounts
          rw [Editor.paste, List.filterMap_cons_some hpasted, List.foldl_cons]
          by_cases hfull : maxInputChars ≤ e.view.chars.length
          · rw [insertChar_full hfull] at h
            cases h
            rw [Editor.insert, if_pos hfull, foldl_insert_full hfull]
          · obtain ⟨inserted, hinsert, hcompact, -, hview⟩ := insertChar_room (c := c) hfull
            rw [hinsert] at h hcounts
            rw [ih h hcounts.2, hview hcounts.1, hcompact, Editor.paste]

/-! ### Moving and removing -/

/-- The two sides of the cursor. -/
theorem exists_sides (e : LineEdit) : ∃ front back, e.view = ⟨front, back⟩ ∧
    e.chars = front ++ back ∧ e.position = front.length :=
  ⟨e.view.before, e.view.after, rfl, e.chars_view.symm, e.length_before.symm⟩

theorem view_move {front back : List Char} (hchars : e.chars = front ++ back) :
    ({ e with cursor := front.length } : LineEdit).view = ⟨front, back⟩ := by
  refine view_eq hchars (Nat.min_eq_left ?_)
  have hlength : e.chars.length = front.length + back.length := by
    rw [hchars, List.length_append]
  exact (Nat.le_add_right _ _).trans_eq hlength.symm

theorem left_view (e : LineEdit) : e.left.view = e.view.left := by
  obtain ⟨front, back, hview, hchars, hposition⟩ := e.exists_sides
  rw [hview, left, hposition, Editor.left]
  rcases List.eq_nil_or_concat' front with rfl | ⟨front, c, rfl⟩
  · exact view_move hchars
  · rw [List.append_assoc, List.singleton_append] at hchars
    rw [List.length_append, List.length_singleton, Nat.add_sub_cancel, List.getLast?_concat,
      List.dropLast_concat]
    exact view_move hchars

theorem right_view (e : LineEdit) : e.right.view = e.view.right := by
  obtain ⟨front, back, hview, hchars, hposition⟩ := e.exists_sides
  rw [hview, right, hposition, Editor.right]
  cases back with
  | nil =>
      have hlength : min (front.length + 1) e.len = front.length := by
        rw [len, hchars, List.append_nil]
        exact Nat.min_eq_right (Nat.le_succ _)
      rw [hlength]
      exact view_move hchars
  | cons c back =>
      have hlength : min (front.length + 1) e.len = (front ++ [c]).length := by
        rw [len, hchars, List.length_append, List.length_append, List.length_cons,
          List.length_singleton]
        exact Nat.min_eq_left (by omega)
      rw [hlength]
      refine view_move ?_
      rw [hchars, List.append_assoc, List.singleton_append]

theorem backspace_view (e : LineEdit) : ∃ after, e.backspace = some after ∧
    after.compact = e.compact ∧ after.view = ⟨e.view.before.dropLast, e.view.after⟩ := by
  obtain ⟨front, back, hview, hchars, hposition⟩ := e.exists_sides
  rw [hview, backspace]
  rcases List.eq_nil_or_concat' front with rfl | ⟨front, c, rfl⟩
  · have hzero : e.position = 0 := hposition
    rw [if_pos hzero]
    exact ⟨e, rfl, rfl, hview⟩
  · have hlength : (front ++ [c]).length = front.length + 1 := by
      rw [List.length_append, List.length_singleton]
    rw [hposition, hlength, if_neg (Nat.succ_ne_zero _), Nat.add_sub_cancel,
      removeRange_byteAt _ (Nat.le_succ _), Option.map_some]
    refine ⟨_, rfl, rfl, ?_⟩
    have hfront : e.chars.take front.length = front := by
      rw [hchars, List.append_assoc]
      exact List.take_left' rfl
    have hback : e.chars.drop (front.length + 1) = back := by
      rw [hchars]
      exact List.drop_left' hlength
    rw [hfront, hback, List.dropLast_concat]
    exact view_mk _ _ _

theorem delete_view (e : LineEdit) : ∃ after, e.delete = some after ∧
    after.compact = e.compact ∧ after.view = ⟨e.view.before, e.view.after.tail⟩ := by
  obtain ⟨front, back, hview, hchars, hposition⟩ := e.exists_sides
  rw [hview, delete, hposition, len, hchars, List.length_append]
  cases back with
  | nil =>
      rw [List.length_nil, Nat.add_zero, if_pos le_rfl]
      exact ⟨e, rfl, rfl, hview⟩
  | cons c back =>
      rw [List.length_cons, if_neg (by omega), removeRange_byteAt _ (Nat.le_succ _),
        Option.map_some]
      refine ⟨_, rfl, rfl, ?_⟩
      have hfront : e.chars.take front.length = front := by
        rw [hchars]
        exact List.take_left' rfl
      have hback : e.chars.drop (front.length + 1) = back := by
        rw [hchars, ← List.drop_drop, List.drop_left' rfl, List.drop_one, List.tail_cons]
      rw [hfront, hback, List.tail_cons]
      exact view_mk _ _ _

theorem insertExact_view (e : LineEdit) (text : String) :
    ∃ after, e.insertExact text = some after ∧ after.compact = e.compact ∧
      after.view = ⟨e.view.before ++ text.toList, e.view.after⟩ := by
  rw [insertExact, insertStr_byteAt, Option.map_some]
  refine ⟨_, rfl, rfl, ?_⟩
  have hview := view_mk (e.chars.take e.position ++ text.toList) (e.chars.drop e.position) e.compact
  rw [List.length_append, List.length_take, Nat.min_eq_left e.position_le,
    List.append_assoc] at hview
  exact hview

theorem deleteWord_view (e : LineEdit) : e.deleteWord.view =
    ⟨(e.view.before.rdropWhile (· == ' ')).rdropWhile (· != ' '), e.view.after⟩ :=
  view_mk _ _ _

/-! ### Runs of edits -/

/-- A character that is typed or pasted is counted. -/
def EditCounts (e : LineEdit) : Edit → Prop
  | .push c => (isControl c || (e.compact && isWhitespace c)) = false → e.Counts c
  | .paste raw => e.PasteCounts raw.toList
  | _ => True

theorem edit_some (e : LineEdit) (x : Edit) :
    ∃ after, edit e x = some after ∧ after.compact = e.compact := by
  cases x with
  | push c =>
      obtain ⟨after, hpush, hcompact, -⟩ := e.push_some c
      exact ⟨after, hpush, hcompact⟩
  | paste raw =>
      obtain ⟨after, hpaste, hcompact, -⟩ := e.paste_some raw.toList
      exact ⟨after, hpaste, hcompact⟩
  | insertExact text =>
      obtain ⟨after, hinsert, hcompact, -⟩ := e.insertExact_view text
      exact ⟨after, hinsert, hcompact⟩
  | backspace =>
      obtain ⟨after, hdelete, hcompact, -⟩ := e.backspace_view
      exact ⟨after, hdelete, hcompact⟩
  | delete =>
      obtain ⟨after, hdelete, hcompact, -⟩ := e.delete_view
      exact ⟨after, hdelete, hcompact⟩
  | set value => exact ⟨_, rfl, rfl⟩
  | take => exact ⟨_, rfl, rfl⟩
  | deleteWord => exact ⟨_, rfl, rfl⟩
  | left => exact ⟨_, rfl, rfl⟩
  | right => exact ⟨_, rfl, rfl⟩
  | home => exact ⟨_, rfl, rfl⟩
  | toEnd => exact ⟨_, rfl, rfl⟩
  | clear => exact ⟨_, rfl, rfl⟩

/-- One edit of the field is the edit of the reference editor. -/
theorem edit_view {after : LineEdit} {x : Edit} (h : edit e x = some after)
    (hcounts : e.EditCounts x) : after.view = e.view.edit e.compact x := by
  cases x with
  | push c => exact push_view h hcounts
  | paste raw => exact paste_view h hcounts
  | insertExact text =>
      obtain ⟨inserted, hinsert, -, hview⟩ := e.insertExact_view text
      rw [edit, hinsert] at h
      cases h
      exact hview
  | backspace =>
      obtain ⟨deleted, hdelete, -, hview⟩ := e.backspace_view
      rw [edit, hdelete] at h
      cases h
      exact hview
  | delete =>
      obtain ⟨deleted, hdelete, -, hview⟩ := e.delete_view
      rw [edit, hdelete] at h
      cases h
      exact hview
  | set value =>
      cases h
      refine view_eq (List.append_nil _).symm ?_
      exact Nat.min_self _
  | take =>
      cases h
      rfl
  | deleteWord =>
      cases h
      exact e.deleteWord_view
  | left =>
      cases h
      exact e.left_view
  | right =>
      cases h
      exact e.right_view
  | home =>
      cases h
      rw [Editor.edit, chars_view]
      exact view_move (List.nil_append _).symm
  | toEnd =>
      cases h
      rw [Editor.edit, chars_view]
      exact view_move (List.append_nil _).symm
  | clear =>
      cases h
      rfl

/-- Every step of the run counts the characters it adds. -/
def RunCounts (e : LineEdit) : List Edit → Prop
  | [] => True
  | x :: edits => e.EditCounts x ∧ ∀ after, edit e x = some after → RunCounts after edits

theorem run_view {edits : List Edit} (hcounts : e.RunCounts edits) :
    ∃ after, edits.foldlM edit e = some after ∧
      after.view = edits.foldl (Editor.edit e.compact) e.view := by
  induction edits generalizing e with
  | nil => exact ⟨e, rfl, rfl⟩
  | cons x edits ih =>
      obtain ⟨middle, hedit, hcompact⟩ := e.edit_some x
      obtain ⟨after, hafter, hview⟩ := ih (hcounts.2 middle hedit)
      refine ⟨after, ?_, ?_⟩
      · rw [List.foldlM_cons, hedit]
        exact hafter
      · rw [hview, hcompact, edit_view hedit hcounts.1, List.foldl_cons]

theorem run_some (e : LineEdit) (edits : List Edit) : ∃ after, edits.foldlM edit e = some after := by
  induction edits generalizing e with
  | nil => exact ⟨e, rfl⟩
  | cons x edits ih =>
      obtain ⟨middle, hedit, -⟩ := e.edit_some x
      obtain ⟨after, hafter⟩ := ih middle
      refine ⟨after, ?_⟩
      rw [List.foldlM_cons, hedit]
      exact hafter

end LineEdit

/-- No run of edits panics, typing and pasting respect the limit, and as long as no character is
added at the largest cursor, the value and the cursor are those of the reference editor. -/
theorem edits_refine (e : LineEdit) (edits : List Edit) :
    (∃ after, edits.foldlM edit e = some after) ∧
    (e.RunCounts edits → ∃ after, edits.foldlM edit e = some after ∧
      after.chars = (edits.foldl (Editor.edit e.compact) e.view).chars ∧
      after.position = (edits.foldl (Editor.edit e.compact) e.view).before.length) ∧
    ∀ after : LineEdit,
      ((∃ c, edit e (.push c) = some after) ∨ ∃ raw, edit e (.paste raw) = some after) →
        after.len ≤ max e.len maxInputChars := by
  refine ⟨LineEdit.run_some e edits, ?_, ?_⟩
  · intro hcounts
    obtain ⟨after, hafter, hview⟩ := LineEdit.run_view hcounts
    refine ⟨after, hafter, ?_, ?_⟩
    · rw [← hview, after.chars_view]
    · rw [← hview, after.length_before]
  · rintro after (⟨c, h⟩ | ⟨raw, h⟩)
    · obtain ⟨pushed, hpush, -, hle⟩ := e.push_some c
      rw [edit, hpush] at h
      cases h
      exact hle
    · obtain ⟨pasted, hpaste, -, hle⟩ := e.paste_some raw.toList
      rw [edit, hpaste] at h
      cases h
      exact hle

/-- A character typed with the cursor far behind the end. -/
theorem typed_behind_end : ∃ after,
    [Edit.push 'a'].foldlM edit ⟨"", 99, false⟩ = some after ∧ after.chars = ['a'] ∧
      after.position = 1 :=
  (edits_refine ⟨"", 99, false⟩ [.push 'a']).2.1
    ⟨fun _ _ _ => by decide, fun _ _ => trivial⟩

/-- A cursor at the largest number starts again when a character is added. -/
theorem cursor_starts_again : ∃ after,
    edit ⟨"", usizeMax, false⟩ (.push 'a') = some after ∧ after.chars = ['a'] ∧
      after.position = 0 ∧
      (Editor.edit false (LineEdit.view ⟨"", usizeMax, false⟩) (.push 'a')).before.length = 1 := by
  have hinsert : (⟨"", usizeMax, false⟩ : LineEdit).insertChar 'a' =
      some (true, ⟨"a", 0, false⟩) := by
    rw [LineEdit.insertChar, if_neg (by decide), if_pos (by decide)]
    rfl
  refine ⟨⟨"a", 0, false⟩, ?_, by decide, by decide, by decide⟩
  rw [edit, LineEdit.push, if_neg (by decide), hinsert]
  rfl

end Terminal

end GChat
