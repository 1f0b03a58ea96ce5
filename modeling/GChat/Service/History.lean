import GChat.Archive.Model
import GChat.Foundation.Pages
import GChat.Service.Model

/-!
# Reading and searching a conversation

A page of a conversation is cut from the messages that match the search; the messages of
ignored members are left out of the page afterwards. There are three kinds of conversations
with an implementation each, which differ in where the messages are kept.
-/

namespace GChat

namespace Service

open Foundation Api

/-- A message of a page. -/
structure Shown where
  message : Message
  highlighted : Option Bool
deriving DecidableEq

abbrev HistoryPage := Page Shown

def contains (text word : String) : Bool := decide (word.toList <:+: text.toList)

section History

-- the lower case of Unicode text
variable (lowercase : String → String)

/-! ### Preferences -/

def Preferences.ignores (p : Preferences) (conversation : String) (member : Option String)
    (mine : Bool) : Bool :=
  !mine && member.any fun m => p.ignored[conversation]?.any (·.contains m)

def Preferences.highlighted (p : Preferences) (m : Message) : Bool :=
  !m.mine && p.highlights.keys.any fun word => contains (lowercase m.body) word

/-- The messages of ignored members are not shown. -/
def Preferences.shows (p : Preferences) (m : Message) : Bool :=
  !p.ignores m.conversationId m.memberId m.mine

def Preferences.decorate (p : Preferences) (page : HistoryPage) : HistoryPage :=
  { page with
    entries := (page.entries.filter fun m => p.shows m.message).map fun m =>
      { m with highlighted := some (p.highlighted lowercase m.message) } }

/-! ### The three implementations -/

/-- The search is in lower case. -/
def matching (search : Option String) (body name : String) : Bool :=
  search.all fun query => contains (lowercase body) query || contains (lowercase name) query

def clampLimit (limit : ℕ) : ℕ := max 1 (min limit 200)

/-- A page of messages, each as it is shown. -/
def historyPage {α : Type} (id : α → String) (shown : α → Message) (missing : String)
    (messages : List α) (before : Option String) (limit : ℕ) : Except String HistoryPage :=
  match page id (clampLimit limit) messages before with
  | none => .error missing
  | some p => .ok (p.map fun a => ⟨shown a, none⟩)

/-- A message of the archive, with what is saved about an own one. -/
def message (metadata : StringMap MessageMetadata) (conversation : String) (m : Archive.Message) :
    Message :=
  let saved := if m.mine then metadata[hex m.id.toList]? else none
  { messageKind := none
    id := hex m.id.toList
    conversationId := conversation
    memberId := m.senderMemberId.map fun id => hex id.toList
    nickname := m.senderName
    body := m.text
    timestamp := m.tsUnix
    mine := m.mine
    operationId := saved.bind (·.operationId)
    delivery := saved.bind (·.delivery) }

def conversationMessages (archive : Archive.ArchiveData) (conversation : String) :
    Except String (List Archive.Message) :=
  match archive.channels.find? fun c => Archive.recordKey c == conversation with
  | some c => .ok c.messages
  | none =>
      match archive.scopedPms.find? fun p => Archive.queryKey p.id == conversation with
      | some p => .ok p.messages
      | none => .error "conversation is not in this instance"

def archiveHistory (metadata : StringMap MessageMetadata) (conversation : String)
    (messages : List Archive.Message) (before : Option String) (limit : ℕ)
    (search : Option String) : Except String HistoryPage :=
  historyPage (fun m => hex m.id.toList) (message metadata conversation)
    "history cursor is not in this conversation"
    (messages.filter fun m => matching lowercase search m.text m.senderName) before limit

def hostedHistory (room : Hosted.Archive) (before : Option String) (limit : ℕ)
    (search : Option String) : Except String HistoryPage :=
  historyPage (·.id) id "history cursor is not in this conversation"
    (room.messages.filter fun m => matching lowercase search m.body m.nickname) before limit

/-- The search is put into lower case once more. -/
def contactHistory (book : Contacts.Book) (conversation : String) (before : Option String)
    (limit : ℕ) (search : Option String) : Except String HistoryPage := do
  let contact ← okOr book.contacts[conversation]? "Unknown contact"
  historyPage (·.id) id "Unknown history cursor"
    (contact.messages.filter fun m =>
      matching lowercase (search.map lowercase) m.body m.nickname) before limit

/-- A page of a conversation that is not an extension's. -/
def history {Rest : Type} (state : UiState Rest) (archive : Archive.ArchiveData)
    (conversation : String) (before : Option String) (limit : ℕ) (search : Option String) :
    Except String HistoryPage :=
  if Commands.isContact conversation then
    (contactHistory lowercase state.contacts conversation before limit search).map
      (state.preferences.decorate lowercase)
  else
    match state.hosted[conversation]? with
    | some room =>
        (hostedHistory lowercase room before limit search).map
          (state.preferences.decorate lowercase)
    | none => do
        let messages ← conversationMessages archive conversation
        let page ← archiveHistory lowercase state.messageMetadata conversation messages before
          limit search
        pure (state.preferences.decorate lowercase page)

/-- The messages of a conversation, as they are shown. -/
def conversation {Rest : Type} (state : UiState Rest) (archive : Archive.ArchiveData)
    (id : String) : Option (List Message) :=
  if Commands.isContact id then (state.contacts.contacts[id]?).map (·.messages)
  else
    match state.hosted[id]? with
    | some room => some room.messages
    | none =>
        (conversationMessages archive id).toOption.map (·.map (message state.messageMetadata id))

/-- The messages a search finds, all of them without one. -/
def found (search : Option String) (messages : List Message) : List Message :=
  messages.filter fun m => matching lowercase search m.body m.nickname

/-- A message as it is shown with the preferences. -/
def Preferences.show (p : Preferences) (m : Message) : Shown :=
  ⟨m, some (p.highlighted lowercase m)⟩

/-! ### One implementation for all -/

variable {lowercase}

theorem historyPage_toOption {α : Type} (id : α → String) (shown : α → Message)
    (missing : String) (messages : List α) (before : Option String) (limit : ℕ) :
    (historyPage id shown missing messages before limit).toOption =
      (page id (clampLimit limit) messages before).map (Page.map fun a => ⟨shown a, none⟩) := by
  unfold historyPage
  split
  next hnone =>
    rw [hnone]
    rfl
  next p hsome =>
    rw [hsome]
    rfl

theorem decorate_map (p : Preferences) (q : Page Message) :
    p.decorate lowercase (q.map fun m => ⟨m, none⟩) =
      ⟨(q.entries.filter p.shows).map (p.show lowercase), q.before⟩ := by
  simp [Preferences.decorate, Page.map, List.filter_map, Function.comp_def, Preferences.show]

theorem decorate_historyPage {α : Type} (p : Preferences) (id : α → String) (shown : α → Message)
    (missing : String) (messages : List α) (before : Option String) (limit : ℕ)
    (hid : ∀ a, (shown a).id = id a) :
    ((historyPage id shown missing messages before limit).map (p.decorate lowercase)).toOption =
      (page (·.id) (clampLimit limit) (messages.map shown) before).map fun q =>
        ⟨(q.entries.filter p.shows).map (p.show lowercase), q.before⟩ := by
  have hids : (fun a => (shown a).id) = id := funext hid
  rw [toOption_map, historyPage_toOption, page_map, hids, Option.map_map, Option.map_map]
  congr 1
  funext q
  rw [Function.comp_apply, Function.comp_apply, ← decorate_map]
  simp [Page.map, Function.comp_def]

/-- A message that is kept as it is shown. -/
theorem decorate_stored (p : Preferences) (missing : String) (messages : List Message)
    (before : Option String) (limit : ℕ) :
    ((historyPage (·.id) id missing messages before limit).map (p.decorate lowercase)).toOption =
      (page (·.id) (clampLimit limit) messages before).map fun q =>
        ⟨(q.entries.filter p.shows).map (p.show lowercase), q.before⟩ := by
  have hpage : ((historyPage (·.id) id missing messages before limit).map
      (p.decorate lowercase)).toOption =
        (page (·.id) (clampLimit limit) (messages.map id) before).map fun q =>
          ⟨(q.entries.filter p.shows).map (p.show lowercase), q.before⟩ :=
    decorate_historyPage p (·.id) id missing messages before limit fun _ => rfl
  rwa [List.map_id] at hpage

/-- The three kinds of conversations are read alike: a page of the messages found, without
those that are not shown. -/
theorem history_eq {Rest : Type} {state : UiState Rest} {archive : Archive.ArchiveData}
    {name : String} {messages : List Message} {search : Option String}
    (hlower : ∀ text, lowercase (lowercase text) = lowercase text)
    (h : conversation state archive name = some messages) (before : Option String) (limit : ℕ) :
    (history lowercase state archive name before limit (search.map lowercase)).toOption =
      (page (·.id) (clampLimit limit) (found lowercase (search.map lowercase) messages)
        before).map fun q =>
          ⟨(q.entries.filter state.preferences.shows).map (state.preferences.show lowercase),
            q.before⟩ := by
  have hagain : (search.map lowercase).map lowercase = search.map lowercase := by
    rw [Option.map_map]
    congr 1
    funext text
    exact hlower text
  unfold conversation at h
  unfold history
  split at h
  case isTrue hcontact =>
    obtain ⟨contact, hget, rfl⟩ := Option.map_eq_some_iff.mp h
    rw [if_pos hcontact]
    simp only [contactHistory, hget, okOr, bind, Except.bind, hagain]
    rw [decorate_stored]
    rfl
  case isFalse hcontact =>
    rw [if_neg hcontact]
    split at h
    next room hroom =>
      cases h
      simp only [hroom, hostedHistory]
      rw [decorate_stored]
      rfl
    next hroom =>
      obtain ⟨archived, harchived, rfl⟩ := Option.map_eq_some_iff.mp h
      have hfound : found lowercase (search.map lowercase)
          (archived.map (message state.messageMetadata name)) =
            (archived.filter fun m => matching lowercase (search.map lowercase) m.text
              m.senderName).map (message state.messageMetadata name) := by
        rw [found, List.filter_map]
        rfl
      simp only [hroom, toOption_eq_some.mp harchived, archiveHistory, bind, Except.bind]
      rw [hfound, ← decorate_historyPage state.preferences (fun m => hex m.id.toList)
        (message state.messageMetadata name) "history cursor is not in this conversation" _ before
        limit fun _ => rfl]
      cases historyPage (fun m : Archive.Message => hex m.id.toList)
        (message state.messageMetadata name) "history cursor is not in this conversation"
        (archived.filter fun m => matching lowercase (search.map lowercase) m.text m.senderName)
        before limit with
      | error message => rfl
      | ok page => rfl

/-! ### Following the cursors -/

/-- A message without what may still change. -/
def fixed (m : Message) : Message := { m with operationId := none, delivery := none }

def Shown.fixed (m : Shown) : Shown := { m with message := Service.fixed m.message }

theorem found_fixed (search : Option String) (messages : List Message) :
    found lowercase search (messages.map fixed) = (found lowercase search messages).map fixed := by
  rw [found, List.filter_map]
  rfl

theorem shows_fixed (p : Preferences) (messages : List Message) :
    (messages.map fixed).filter p.shows = (messages.filter p.shows).map fixed := by
  rw [List.filter_map]
  rfl

/-- While messages are added to a conversation, and the operations and deliveries of others
change, following the cursors ends and shows every message that was found at first and is not
ignored, once and in order. A page is the last one only if nothing older was found. -/
theorem history_complete {Rest : Type} (lowercase : String → String)
    (hlower : ∀ text, lowercase (lowercase text) = lowercase text) (states : ℕ → UiState Rest)
    (archives : ℕ → Archive.ArchiveData) (name : String) (messages : ℕ → List Message)
    (preferences : Preferences) (limit : ℕ) (search : Option String)
    (hopen : ∀ n, conversation (states n) (archives n) name = some (messages n))
    (hpreferences : ∀ n, (states n).preferences = preferences)
    (hgrow : ∀ n, (messages n).map fixed <+: (messages (n + 1)).map fixed)
    (hdistinct : ∀ n, ((messages n).map (·.id)).Nodup) :
    ((∃ pages, Follows (fun n before => (history lowercase (states n) (archives n) name before
        limit (search.map lowercase)).toOption) 0 none pages) ∧
      ∀ pages, Follows (fun n before => (history lowercase (states n) (archives n) name before
          limit (search.map lowercase)).toOption) 0 none pages →
        pages.reverse.flatten.map Shown.fixed =
          ((found lowercase (search.map lowercase) (messages 0)).filter preferences.shows).map
            fun m => (preferences.show lowercase m).fixed) ∧
    ∀ n before p, history lowercase (states n) (archives n) name before limit
        (search.map lowercase) = .ok p →
      ∃ older page newer, found lowercase (search.map lowercase) (messages n) =
          older ++ page ++ newer ∧
        p.entries = (page.filter preferences.shows).map (preferences.show lowercase) ∧
        (p.before = none ↔ older = []) ∧ (before = none → newer = []) ∧
        ∀ cursor, before = some cursor → newer.head?.map (·.id) = some cursor := by
  have hlimit : 0 < clampLimit limit := Nat.lt_of_lt_of_le Nat.zero_lt_one (Nat.le_max_left _ _)
  have hfetch : ∀ n before, (history lowercase (states n) (archives n) name before limit
      (search.map lowercase)).toOption =
        (page (·.id) (clampLimit limit) (found lowercase (search.map lowercase) (messages n))
          before).map fun q =>
            ⟨(q.entries.filter preferences.shows).map (preferences.show lowercase), q.before⟩ := by
    intro n before
    rw [history_eq hlower (hopen n) before limit, hpreferences n]
  constructor
  · have hgrows : ∀ n, (found lowercase (search.map lowercase) (messages n)).map fixed <+:
        (found lowercase (search.map lowercase) (messages (n + 1))).map fixed := by
      intro n
      rw [← found_fixed, ← found_fixed]
      exact (hgrow n).filter _
    have hnodup : ∀ n,
        ((found lowercase (search.map lowercase) (messages n)).map (·.id)).Nodup := by
      intro n
      exact (hdistinct n).sublist (List.filter_sublist.map _)
    obtain ⟨pages, hfollows, hflatten⟩ := follows_all (f := fixed) hlimit
      (fun a b hab => congrArg (fun m => m.id) hab) hgrows hnodup
    have hshown : Follows (fun n before => (history lowercase (states n) (archives n) name before
        limit (search.map lowercase)).toOption) 0 none (pages.map fun entries =>
          (entries.filter preferences.shows).map (preferences.show lowercase)) := by
      apply hfollows.map
      intro n before p hpage
      rw [hfetch, hpage]
      rfl
    refine ⟨⟨_, hshown⟩, ?_⟩
    · intro pages' hfollows'
      rw [hfollows'.unique hshown]
      have hpages : ∀ l : List Message, ((l.filter preferences.shows).map fun m =>
          (preferences.show lowercase m).fixed) =
            ((l.map fixed).filter preferences.shows).map (preferences.show lowercase) := by
        intro l
        rw [shows_fixed, List.map_map]
        rfl
      rw [hpages, ← hflatten, ← hpages, ← List.map_reverse]
      simp [List.filter_flatten, List.map_flatten, Function.comp_def]
  · intro n before p hok
    have hsome := hfetch n before
    rw [hok] at hsome
    obtain ⟨q, hq, rfl⟩ := Option.map_eq_some_iff.mp hsome.symm
    obtain ⟨older, newer, hsplit, hlast, hnone, hcursor⟩ := page_spec hlimit hq
    exact ⟨older, q.entries, newer, hsplit, rfl, hlast, hnone, hcursor⟩

end History

namespace Sample

/-! ### A hosted channel, with a new message before each fetch -/

def alpha : String := "hosted/alpha"

def messageId (n : ℕ) : String := String.ofList (List.replicate n 'x')

/-- Every second message is of one member. -/
def chatMessage (n : ℕ) : Message :=
  { messageKind := some .text, id := messageId n, conversationId := alpha,
    memberId := some (if n % 2 = 0 then "ann" else "bob"), nickname := "guest", body := "Hello",
    timestamp := n, mine := false, operationId := none, delivery := none }

def chatMessages (n : ℕ) : List Message := (List.range (n + 3)).map chatMessage

def chatRoom (n : ℕ) : Hosted.Archive :=
  { channel := ⟨Bytes.fill 32 1, Bytes.fill 32 2, [], []⟩, cursor := 0, messages := chatMessages n,
    files := ∅, operations := ∅, error := none, names := [] }

/-- One of the members is ignored. -/
def ignoring : Preferences :=
  { Preferences.default with
    ignored := (∅ : StringMap StringSet).insert alpha ((∅ : StringSet).insert "bob" ()) }

def chat (n : ℕ) : UiState Unit :=
  { UiState.default () with
    hosted := (∅ : StringMap Hosted.Archive).insert alpha (chatRoom n)
    preferences := ignoring }

theorem chat_conversation (n : ℕ) (archive : Archive.ArchiveData) :
    conversation (chat n) archive alpha = some (chatMessages n) := by
  have hcontact : Commands.isContact alpha = false := by decide +kernel
  have hroom : (chat n).hosted[alpha]? = some (chatRoom n) := StringMap.get_insert_self _ _ _
  unfold conversation
  rw [hcontact, hroom]
  rfl

theorem chat_grows (n : ℕ) :
    (chatMessages n).map fixed <+: (chatMessages (n + 1)).map fixed := by
  rw [chatMessages, chatMessages, List.range_succ (n := n + 3), List.map_append, List.map_append]
  exact List.prefix_append _ _

theorem chat_distinct (n : ℕ) : ((chatMessages n).map (·.id)).Nodup := by
  rw [chatMessages, List.map_map, List.nodup_map_iff_inj_on List.nodup_range]
  intro a _ b _ h
  have hlength := congrArg List.length (String.ofList_inj.mp h)
  simpa using hlength

end Sample

/-- Pages of one message of a channel with an ignored member, while messages come in. -/
theorem sample_history : ∃ pages, Follows (fun n before => (history toAsciiLowercase
      (Sample.chat n) (.create "") Sample.alpha before 1
        ((some "hello").map toAsciiLowercase)).toOption) 0 none pages ∧
    pages.reverse.flatten.map Shown.fixed =
      ((found toAsciiLowercase ((some "hello").map toAsciiLowercase) (Sample.chatMessages 0)).filter
        Sample.ignoring.shows).map fun m => (Sample.ignoring.show toAsciiLowercase m).fixed := by
  obtain ⟨⟨pages, hpages⟩, hall⟩ := (history_complete toAsciiLowercase toAsciiLowercase_idem
    Sample.chat (fun _ => .create "") Sample.alpha Sample.chatMessages Sample.ignoring 1
    (some "hello") (fun n => Sample.chat_conversation n _) (fun _ => rfl) Sample.chat_grows
    Sample.chat_distinct).1
  exact ⟨pages, hpages, hall pages hpages⟩

end Service

end GChat
