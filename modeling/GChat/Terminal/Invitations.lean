import GChat.Foundation.Machine
import GChat.Journal.Model
import GChat.Terminal.LineEdit

/-!
# Network invitations in the input field

An invitation is recognised while it is typed, by the start of its text, and again when it is sent,
by its words. What is typed goes through the keys of the view: it is completed, replaced by an
earlier text, and kept when another conversation is selected.
-/

namespace GChat

namespace Terminal

open Foundation

def networkInvitationMark : String := "GCNI1-"

/-- The text without its leading white space. -/
def trimStart (text : String) : List Char := text.toList.dropWhile isWhitespace

def isNetworkInvitation (text : String) : Bool :=
  networkInvitationMark.toList.isPrefixOf (trimStart text) ||
    "/network join ".toList.isPrefixOf ((trimStart text).map toAsciiLower)

def maxNetworkInvitationBytes : ℕ := 128 * 1024 * 4 / 3 + 16

def inputLimit (text : String) : ℕ :=
  if isNetworkInvitation text then maxNetworkInvitationBytes + "/network join ".utf8ByteSize
  else Journal.commandInputLimit text

inductive Request where
  | unlock (passphrase : String) (create : Bool)
  | importNetworkInvitation (code : String)
  | submit (conversation : Option String) (text : String)
  | complete (conversation : Option String) (text : String)
deriving DecidableEq

/-- The text before the first white space, and what follows that white space. -/
def splitOnce (text : List Char) : Option (List Char × List Char) :=
  if text.any isWhitespace then
    some (text.takeWhile fun c => !isWhitespace c,
      (text.dropWhile fun c => !isWhitespace c).drop 1)
  else none

def trim (text : List Char) : List Char := (text.dropWhile isWhitespace).rdropWhile isWhitespace

/-- Two texts that differ in the case of their letters. -/
def sameWord (text : List Char) (word : String) : Bool :=
  text.map toAsciiLower == word.toList.map toAsciiLower

def submit (conversation : Option String) (text : String) : Request :=
  match splitOnce (trim text.toList) with
  | some (command, arguments) =>
      match splitOnce (trim arguments) with
      | some (action, code) =>
          if sameWord command "/network" && sameWord action "join" then
            .importNetworkInvitation (String.ofList (trim code))
          else .submit conversation text
      | none => .submit conversation text
  | none => .submit conversation text

/-- The request of a text that is sent. -/
def send (conversation : Option String) (text : String) : Request :=
  if networkInvitationMark.toList.isPrefixOf (trim text.toList) then
    .importNetworkInvitation (String.ofList (trim text.toList))
  else submit conversation text

/-! ### The keys of the view -/

structure View where
  selected : Option String
  draft : LineEdit
  drafts : Option String → Option LineEdit
  savedDraft : String
  candidates : List String
  candidateIndex : ℕ
  historyPosition : Option ℕ

/-- What the keys find: the state of the instance and of the requests. -/
structure Surroundings where
  locked : Bool
  create : Bool
  offline : Bool
  pending : Bool
  history : List String
  available : Option String → Bool

inductive Key where
  | enter
  | char (c : Char)
  | left
  | right
  | home
  | toEnd
  | delete
  | backspace
  | tab
  | backTab
  | up
  | down
  | esc
deriving DecidableEq

def LineEdit.empty : LineEdit := ⟨"", 0, false⟩

def View.initial (selected : Option String) : View :=
  ⟨selected, .empty, fun _ => none, "", [], 0, none⟩

/-- The view after an edit of the draft. -/
def View.edited (v : View) (draft : LineEdit) : View :=
  { v with draft := draft, historyPosition := none, candidates := [] }

def pressEnter (s : Surroundings) (v : View) : Option (View × Option Request) :=
  if v.candidates ≠ [] then
    v.candidates[v.candidateIndex]?.map fun candidate =>
      ({ v with draft := v.draft.set (candidate ++ " "), candidates := [] }, none)
  else if !s.pending && !s.offline && v.draft.value ≠ "" then
    let text := v.draft.take.1
    let request := if s.locked then .unlock text s.create else send v.selected text
    some ({ v with draft := v.draft.take.2, historyPosition := none }, some request)
  else some (v, none)

def pressTab (s : Surroundings) (v : View) : View × Option Request :=
  if !s.locked && v.candidates ≠ [] then
    ({ v with candidateIndex := (v.candidateIndex + 1) % v.candidates.length }, none)
  else if !s.pending && !s.locked && !isNetworkInvitation v.draft.value then
    (v, some (.complete v.selected v.draft.value))
  else (v, none)

/-- The text before the one that is shown. -/
def pressUp (s : Surroundings) (v : View) : Option View :=
  if !s.locked && !isNetworkInvitation v.draft.value then
    if s.history = [] then some v
    else
      let next := v.historyPosition.getD s.history.length - 1
      s.history[next]?.map fun text =>
        { v with
          savedDraft := if v.historyPosition.isNone then v.draft.value else v.savedDraft
          draft := v.draft.set text
          historyPosition := some next }
  else some v

def pressDown (s : Surroundings) (v : View) : View :=
  if s.locked then v
  else
    match v.historyPosition with
    | none => v
    | some current =>
        match s.history[current + 1]? with
        | some text => { v with draft := v.draft.set text, historyPosition := some (current + 1) }
        | none =>
            { v with draft := v.draft.set v.savedDraft, savedDraft := "", historyPosition := none }

/-- A key of the view; `none` is a panic. -/
def press (s : Surroundings) (v : View) : Key → Option (View × Option Request)
  | .enter => pressEnter s v
  | .char c =>
      if v.draft.value.utf8ByteSize + c.utf8Size ≤ inputLimit v.draft.value then
        (v.draft.push c).map fun draft => (v.edited draft, none)
      else some (v, none)
  | .left => some ({ v with draft := v.draft.left }, none)
  | .right => some ({ v with draft := v.draft.right }, none)
  | .home => some ({ v with draft := v.draft.home }, none)
  | .toEnd => some ({ v with draft := v.draft.toEnd }, none)
  | .delete => v.draft.delete.map fun draft => (v.edited draft, none)
  | .backspace => v.draft.backspace.map fun draft => (v.edited draft, none)
  | .tab => some (pressTab s v)
  | .backTab =>
      some ({ v with candidateIndex :=
        if v.candidates = [] then v.candidateIndex
        else (v.candidateIndex + v.candidates.length - 1) % v.candidates.length }, none)
  | .up => (pressUp s v).map fun v => (v, none)
  | .down => some (pressDown s v, none)
  | .esc =>
      if v.candidates ≠ [] then some ({ v with candidates := [] }, none)
      else some ({ v with draft := v.draft.clear }, none)

def paste (v : View) (text : String) : Option View :=
  let limit := if v.draft.value = "" then inputLimit text else inputLimit v.draft.value
  if v.draft.value.utf8ByteSize + text.utf8ByteSize ≤ limit then
    (v.draft.insertExact text).map v.edited
  else some v

/-- Another conversation is selected: the draft is kept for the old one. -/
def select (s : Surroundings) (v : View) (target : Option String) : View :=
  if target = v.selected then v
  else
    let draft := if isNetworkInvitation v.draft.value then v.draft.clear else v.draft
    let drafts := Function.update v.drafts v.selected (some draft)
    { v with
      selected := target
      draft := (drafts target).getD .empty
      drafts := fun id => if id = target ∨ !s.available id then none else drafts id
      candidates := []
      historyPosition := none
      savedDraft := "" }

inductive Event where
  | key (key : Key)
  | paste (text : String)
  | select (target : Option String)
  /-- A failed submission is edited again. -/
  | resume (target : Option String) (text : String)
  /-- The answer to a request for completions. -/
  | completed (conversation : Option String) (text : String) (items : List String)
  /-- The conversations of a new snapshot. -/
  | snapshot
  | lock

def step (s : Surroundings) (v : View) : Event → Option (View × Option Request)
  | .key key => press s v key
  | .paste text => (paste v text).map fun v => (v, none)
  | .select target => some (select s v target, none)
  | .resume target text =>
      let v := select s v target
      some ({ v with draft := v.draft.set text }, none)
  | .completed conversation text items =>
      if !s.locked && conversation = v.selected && text = v.draft.value then
        some ({ v with candidates := items, candidateIndex := 0 }, none)
      else some (v, none)
  | .snapshot =>
      some ({ v with drafts := fun id => if s.available id then v.drafts id else none }, none)
  | .lock =>
      some ({ v with
        draft := v.draft.clear, drafts := fun _ => none, savedDraft := "", candidates := []
        historyPosition := none }, none)

/-- The views of a terminal, from the start, under any events and surroundings. -/
def views (selected : Option String) : Machine View (Surroundings × Event) where
  start v := v = View.initial selected
  next v label w := ∃ request, step label.1 v label.2 = some (w, request)

end Terminal

end GChat
