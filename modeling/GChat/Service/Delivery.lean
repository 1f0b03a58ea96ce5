import GChat.Service.History
import GChat.Service.Metadata

/-!
# Deliveries as they are shown

A page of an archived conversation shows the deliveries that are saved, never those of the
archive itself. `Profile` is an instance with its client, its files and all it has answered;
it may stop at any moment and be unlocked again, and a snapshot under way leaves the client
free to go on.
-/

namespace GChat

namespace Service

open Foundation Api Store

section Requests

variable {Key Rest : Type} (env : Env Key Rest)

/-- Open the files of a profile that was created. Unlocking saves them next. -/
def Env.openFiles (files : Files) (opening : Opening) : Except String (Unlocked Key Rest) := do
  let (legacy, state) ← openOrCreate env.cipher env.codec env.formats.legacy files.legacy
    (UiState.default env.newRest).toLegacy env.keys.legacy opening.salts.legacy opening.create
  refuse ((!state.instanceId.isEmpty && state.instanceId != env.host.id) ||
      (!state.safetyNumber.isEmpty && state.safetyNumber != opening.safetyNumber))
    "chat service state belongs to a different instance"
  let (store, state) ← ServiceStateStore.open env.cipher env.codec env.formats env.contactCodec
    env.keys files opening.salts legacy (env.prepare opening state)
  .ok ⟨store, state⟩

/-- Whether a conversation is read from the archive of the client. -/
def Unlocked.isArchived (s : Unlocked Key Rest) (conversation : String) : Bool :=
  !Commands.isContact conversation && s.state.hosted[conversation]?.isNone

/-- A page of a conversation. What changed in the archive is saved before it is shown. -/
def Env.requestHistory (lowercase : String → String) (s : Unlocked Key Rest)
    (archive : Archive.ArchiveData) (conversation : String) (before : Option String) (limit : ℕ)
    (search : Option String) (io : SaveIo) : Unlocked Key Rest × Except String HistoryPage :=
  if s.isArchived conversation then
    match env.readHistory s (ownMessages archive) io with
    | (s, .error message) => (s, .error message)
    | (s, .ok _) => (s, history lowercase s.state archive conversation before limit search)
  else (s, history lowercase s.state archive conversation before limit search)

/-- The state with what a snapshot observed: `rest` holds the topics and the members. -/
def UiState.refreshed (state : UiState Rest) (own : List OwnMessage) (rest : Rest)
    (added : List Hosted.Activity) : UiState Rest :=
  { state with
    messageMetadata := observeMessages state.messageMetadata own
    rest := rest
    activity := Hosted.trim (state.activity ++ added) }

/-- The observations of a snapshot are saved if they differ from those before. -/
def Env.refresh (s : Unlocked Key Rest) (own : List OwnMessage) (rest : Rest) (differs : Bool)
    (added : List Hosted.Activity) (io : SaveIo) : Unlocked Key Rest × Except String Unit :=
  if observeMessages s.state.messageMetadata own = s.state.messageMetadata ∧ differs = false then
    (s, .ok ())
  else env.commit s (s.state.refreshed own rest added) io

end Requests

/-! ### A profile and what it answers -/

inductive Session (Key Rest : Type) where
  | closed (files : Files)
  | opened (s : Unlocked Key Rest)

def Session.files {Key Rest : Type} : Session Key Rest → Files
  | .closed files => files
  | .opened s => s.store.files

/-- A snapshot, with the versions read before it was built. Its revision is a digest of the
deliveries, among others. -/
structure Cached where
  serviceVersion : ℕ
  clientVersion : ℕ
  revision : Metadata

/-- A snapshot under way has looked at the archive, and waits for the topics. -/
structure Refreshing where
  own : List OwnMessage
  serviceVersion : ℕ
  clientVersion : ℕ

/-- An answer: the own messages of a page with their deliveries, or the revision of a
snapshot. `past` are the files of the profile, as they were up to the answer. -/
structure Answer where
  past : List Files
  shown : List (String × Option Delivery)
  revision : Option Metadata

/-- `sent` are the identifiers of all messages that were ever sent. -/
structure Profile (Key Rest : Type) where
  archive : Archive.Inbox
  session : Session Key Rest
  refreshing : Option Refreshing
  serviceVersion : ℕ
  clientVersion : ℕ
  cache : Option Cached
  sent : List String
  past : List Files
  answers : List Answer

inductive Act (Rest : Type) where
  | client (step : Archive.InboxStep)
  | clientChanged
  | invalidate
  | perform (operation : Operation Rest)
  | history (conversation : String) (before : Option String) (limit : ℕ) (search : Option String)
      (io : SaveIo)
  | snapshot (expired : Bool)
  | present (rest : Rest) (differs : Bool) (added : List Hosted.Activity) (io : SaveIo)
  | cancel
  | stop
  | unlock (opening : Opening)

section Profiles

variable {Key Rest : Type}

/-- The files are as the session has left them. -/
def Profile.settle (p : Profile Key Rest) (session : Session Key Rest) : Profile Key Rest :=
  { p with session := session, past := p.past ++ [session.files] }

def Profile.invalidate (p : Profile Key Rest) : Profile Key Rest :=
  { p with serviceVersion := p.serviceVersion + 1, cache := none }

def Profile.answer (p : Profile Key Rest) (shown : List (String × Option Delivery))
    (revision : Option Metadata) : Profile Key Rest :=
  { p with answers := p.answers ++ [⟨p.past, shown, revision⟩] }

/-- The own messages of a page. -/
def shownIn (page : HistoryPage) : List (String × Option Delivery) :=
  page.entries.filterMap fun m =>
    if m.message.mine then some (m.message.id, m.message.delivery) else none

def Profile.startSnapshot (p : Profile Key Rest) : Profile Key Rest :=
  { p with
    refreshing := some ⟨ownMessages p.archive.memory, p.serviceVersion, p.clientVersion⟩ }

/-- A step of a profile. A request waits while a snapshot is under way. -/
def Env.act (env : Env Key Rest) (lowercase : String → String) (p : Profile Key Rest) :
    Act Rest → Profile Key Rest
  | .client step =>
      match p.session with
      | .closed _ => p
      | .opened _ =>
          { p with
            archive := p.archive.step step
            sent := p.sent ++ step.recorded.toList.map fun id => hex id.toList }
  | .clientChanged => { p with clientVersion := p.clientVersion + 1 }
  | .invalidate => p.invalidate
  | .perform operation =>
      match p.session, p.refreshing with
      | .opened s, none => p.settle (.opened (env.perform s operation).1)
      | _, _ => p
  | .history conversation before limit search io =>
      match p.session, p.refreshing with
      | .opened s, none =>
          let (t, result) :=
            env.requestHistory lowercase s p.archive.memory conversation before limit search io
          let p := if t.metadata = s.metadata then p else p.invalidate
          let p := p.settle (.opened t)
          match result with
          | .error _ => p
          | .ok page => p.answer (if s.isArchived conversation then shownIn page else []) none
      | _, _ => p
  | .snapshot expired =>
      match p.session, p.refreshing with
      | .opened _, none =>
          match p.cache with
          | none => p.startSnapshot
          | some cached =>
              if cached.serviceVersion = p.serviceVersion ∧
                  cached.clientVersion = p.clientVersion ∧ expired = false then
                p.answer [] (some cached.revision)
              else p.startSnapshot
      | _, _ => p
  | .present rest differs added io =>
      match p.session, p.refreshing with
      | .opened s, some r =>
          match env.refresh s r.own rest differs added io with
          | (t, .error _) => { p with refreshing := none }.settle (.opened t)
          | (t, .ok _) =>
              (({ p with
                refreshing := none
                cache := some ⟨r.serviceVersion, r.clientVersion, t.metadata⟩ } : Profile
                  Key Rest).settle (.opened t)).answer [] (some t.metadata)
      | _, _ => p
  | .cancel => { p with refreshing := none }
  | .stop =>
      { p with
        archive := p.archive.step .crash
        session := .closed p.session.files
        refreshing := none
        cache := none }
  | .unlock opening =>
      match p.session with
      | .opened _ => p
      | .closed files =>
          match env.openFiles files opening with
          | .error _ => p
          | .ok s =>
              match env.commit s s.state opening.save with
              | (t, .error _) => p.settle (.closed t.store.files)
              | (t, .ok _) => p.settle (.opened t)

/-- The protocol library gives every message an identifier of its own, and an operation looks
at the archive as it is. -/
def Profile.Allows (p : Profile Key Rest) : Act Rest → Prop
  | .client step => step ≠ .crash ∧ ∀ id, step.recorded = some id → hex id.toList ∉ p.sent
  | .perform operation =>
      ∀ s, p.session = .opened s → operation.Looks s (ownMessages p.archive.memory)
  | _ => True

/-- A profile that was created and has shown nothing. -/
structure Profile.Starts (env : Env Key Rest) (p : Profile Key Rest) : Prop where
  files : ∃ (store : ServiceStateStore Key) (d : Documents Rest),
    p.session = .closed store.files ∧ store.Holds env d ∧
      ∀ id x, d.metadata.delivery id = some x → id ∈ p.sent
  archive : p.archive.OwnSaved
  sent : ∀ id ∈ p.archive.memory.ownIds, hex id.toList ∈ p.sent
  refreshing : p.refreshing = none
  cache : p.cache = none
  answers : p.answers = []

def Env.profile (env : Env Key Rest) (lowercase : String → String) :
    Machine (Profile Key Rest) (Act Rest) where
  start := Profile.Starts env
  next p act q := p.Allows act ∧ q = env.act lowercase p act

end Profiles

/-! ### What a page shows -/

section Pages

variable {Key Rest : Type} {env : Env Key Rest} {lowercase : String → String}
  {archive : Archive.ArchiveData}

/-- The identifiers of the own messages, as they are shown. -/
def shownIds (archive : Archive.ArchiveData) : List String :=
  archive.ownIds.map fun id => hex id.toList

theorem any_ownMessages (archive : Archive.ArchiveData) (id : String) :
    (ownMessages archive).any (·.id == id) = true ↔ id ∈ shownIds archive := by
  simp [ownMessages, shownIds, Archive.ArchiveData.ownIds]

theorem mem_conversationMessages {name : String} {messages : List Archive.Message}
    (h : conversationMessages archive name = .ok messages) {m : Archive.Message}
    (hm : m ∈ messages) (hmine : m.mine = true) : hex m.id.toList ∈ shownIds archive := by
  have hown : m ∈ archive.own := by
    simp only [Archive.ArchiveData.own, List.mem_filter, List.mem_append, List.mem_flatMap]
    refine ⟨?_, hmine⟩
    unfold conversationMessages at h
    split at h
    next c hc =>
      cases h
      exact Or.inl ⟨c, List.mem_of_find?_eq_some hc, hm⟩
    next hc =>
      split at h
      next q hq =>
        cases h
        exact Or.inr ⟨q, List.mem_of_find?_eq_some hq, hm⟩
      · cases h
  exact List.mem_map.mpr ⟨m.id, List.mem_map.mpr ⟨m, hown, rfl⟩, rfl⟩

/-- A page of an archived conversation shows its own messages as they are saved. -/
theorem history_shown {s : Unlocked Key Rest} {name : String} {before : Option String} {limit : ℕ}
    {search : Option String} {result : HistoryPage} (harchived : s.isArchived name = true)
    (h : history lowercase s.state archive name before limit search = .ok result) {id : String}
    {x : Option Delivery} (hshown : (id, x) ∈ shownIn result) :
    id ∈ shownIds archive ∧ x = s.metadata.delivery id := by
  simp only [Unlocked.isArchived, Bool.and_eq_true, Bool.not_eq_true',
    Option.isNone_iff_eq_none] at harchived
  unfold history at h
  rw [if_neg (by simp [harchived.1]), harchived.2] at h
  obtain ⟨messages, hmessages, h⟩ := bind_eq_ok.mp h
  obtain ⟨found, hfound, h⟩ := bind_eq_ok.mp h
  cases h
  obtain ⟨m, hm, hown⟩ := List.mem_filterMap.mp hshown
  obtain ⟨m', hm', rfl⟩ := List.mem_map.mp hm
  have hentry := (List.mem_filter.mp hm').1
  unfold archiveHistory historyPage at hfound
  split at hfound
  · cases hfound
  next q hq =>
    cases hfound
    obtain ⟨a, ha, rfl⟩ := List.mem_map.mp hentry
    have hmem : a ∈ messages := (List.mem_filter.mp (mem_page hq ha)).1
    cases hmine : a.mine with
    | false =>
        simp [message, hmine] at hown
    | true =>
        simp only [message, hmine, if_true, Option.some.injEq, Prod.mk.injEq] at hown
        obtain ⟨rfl, rfl⟩ := hown
        exact ⟨mem_conversationMessages hmessages hmem hmine, rfl⟩

/-- After a page was asked for, what was shown is what is saved. -/
theorem requestHistory_cases {s t : Unlocked Key Rest} {name : String} {before : Option String}
    {limit : ℕ} {search : Option String} {io : SaveIo} {result : Except String HistoryPage}
    (h : env.requestHistory lowercase s archive name before limit search io = (t, result)) :
    s.Observes env (ownMessages archive) t ∧
      ∀ q, result = .ok q → s.isArchived name = true → ∀ id x, (id, x) ∈ shownIn q →
        id ∈ shownIds archive ∧ x = t.metadata.delivery id := by
  unfold Env.requestHistory at h
  split at h
  case isTrue harchived =>
    have hobserves : s.Observes env (ownMessages archive)
        (env.readHistory s (ownMessages archive) io).1 := observes_readHistory _ io
    split at h
    next u message heq =>
      cases h
      rw [heq] at hobserves
      exact ⟨hobserves, fun q hq => nomatch hq⟩
    next u _ heq =>
      cases h
      rw [heq] at hobserves
      refine ⟨hobserves, ?_⟩
      intro q hq _ id x hshown
      have harchived' : t.isArchived name = true := by
        have hhosted : t.state.hosted = s.state.hosted := by
          have hresult : (env.readHistory s (ownMessages archive) io).1.state.hosted =
              s.state.hosted := readHistory_hosted s _ io
          rwa [heq] at hresult
        rwa [Unlocked.isArchived, hhosted]
      exact history_shown harchived' hq hshown
  case isFalse harchived =>
    cases h
    exact ⟨(Unlocked.Quiet.refl s).observes _, fun q _ htrue => absurd htrue harchived⟩

end Pages

theorem observes_refresh {Key Rest : Type} {env : Env Key Rest} {s : Unlocked Key Rest}
    (own : List OwnMessage) (rest : Rest) (differs : Bool) (added : List Hosted.Activity)
    (io : SaveIo) : s.Observes env own (env.refresh s own rest differs added io).1 := by
  unfold Env.refresh
  split
  · exact (Unlocked.Quiet.refl s).observes own
  · exact observes_commit io rfl

/-! ### Unlocking -/

section Unlocking

variable {Key Rest : Type} {env : Env Key Rest}

theorem unlock_eq (files : Files) (opening : Opening) :
    env.unlock files opening = (env.openFiles files opening).bind fun s =>
      match env.commit s s.state opening.save with
      | (_, .error message) => .error message
      | (s, .ok _) => .ok s := by
  unfold Env.unlock Env.openFiles
  cases openOrCreate env.cipher env.codec env.formats.legacy files.legacy
      (UiState.default env.newRest).toLegacy env.keys.legacy opening.salts.legacy
      opening.create with
  | error message => rfl
  | ok opened =>
      obtain ⟨legacy, state⟩ := opened
      simp only [bind, Except.bind]
      split
      · rfl
      · cases ServiceStateStore.open env.cipher env.codec env.formats env.contactCodec env.keys
            files opening.salts legacy (env.prepare opening state) with
        | error message => rfl
        | ok companions =>
            obtain ⟨store, state⟩ := companions
            simp only [Env.commit]
            split
            · rfl
            · rfl

/-- What is opened is what the files hold. -/
theorem openFiles_holds {store : ServiceStateStore Key} {d : Documents Rest}
    (hcipher : env.cipher.Lawful) (hformats : env.formats.Lawful) (hd : store.Holds env d)
    {opening : Opening} {s : Unlocked Key Rest}
    (h : env.openFiles store.files opening = .ok s) :
    s.store.Holds env d ∧ s.metadata = d.metadata := by
  obtain ⟨legacy, hlegacy, hkey, hfile, hlegacyHolds⟩ :=
    hd.legacy.openOrCreate hcipher hformats.legacy hd.created opening.salts.legacy opening.create
  obtain ⟨hosted, hhosted, hhostedHolds⟩ :=
    hd.retained.companion hcipher hformats.retained opening.salts.hosted
  obtain ⟨contacts, hcontacts, hcontactsHolds⟩ :=
    hd.book.companion hcipher hformats.book opening.salts.contacts
  obtain ⟨preferences, hpreferences, hpreferencesHolds⟩ :=
    hd.preferences.companion hcipher hformats.preferences opening.salts.preferences
  unfold Env.openFiles at h
  simp only [ServiceStateStore.files, hlegacy, bind, Except.bind] at h
  split at h
  · cases h
  · split at h
    · cases h
    next opened hopen =>
      cases h
      unfold ServiceStateStore.open at hopen
      simp only [hkey, hhosted, hcontacts, hpreferences, bind, Except.bind] at hopen
      split at hopen
      · cases hopen
      · cases hopen
        refine ⟨⟨?_, hlegacyHolds, ?_, ?_, ?_⟩, rfl⟩
        · simp only [hfile]
          exact hd.created
        · simp only [hkey]
          exact hhostedHolds
        · simp only [hkey]
          exact hcontactsHolds
        · simp only [hkey]
          exact hpreferencesHolds

end Unlocking

/-! ### What holds of a profile -/

section Safety

variable {Key Rest : Type} {env : Env Key Rest} {lowercase : String → String}
  {p q : Profile Key Rest}

/-- The files hold the documents. -/
def Session.Holds (env : Env Key Rest) (d : Documents Rest) : Session Key Rest → Prop
  | .closed files => ∃ store : ServiceStateStore Key, store.files = files ∧ store.Holds env d
  | .opened s => s.store.Holds env d

/-- What is known about messages; while the profile is closed, what its files keep. -/
def Session.metadata (d : Documents Rest) : Session Key Rest → Metadata
  | .closed _ => d.metadata
  | .opened s => s.metadata

/-- The own messages of the archive, as they are shown. -/
def Profile.own (p : Profile Key Rest) : List String := shownIds p.archive.memory

/-- The files kept this once. -/
def Kept (env : Env Key Rest) (past : List Files) (metadata : Metadata) : Prop :=
  ∃ files ∈ past, env.metadata files = some metadata

/-- Every delivery that was shown had been kept, and so had the revisions. -/
def Answer.Saved (env : Env Key Rest) (a : Answer) : Prop :=
  (∀ id x, (id, some x) ∈ a.shown → ∃ metadata, Kept env a.past metadata ∧
    metadata.delivery id = some x) ∧ ∀ revision, a.revision = some revision →
      Kept env a.past revision

/-- What was shown as delivered is shown as delivered later. -/
def Answer.Precedes (a b : Answer) : Prop :=
  ∀ id x, (id, some .delivered) ∈ a.shown → (id, x) ∈ b.shown → x = some .delivered

/-- What is known in memory, and what the files keep. -/
structure Profile.Knows (env : Env Key Rest) (p : Profile Key Rest) (known kept : Metadata) :
    Prop where
  sent : ∀ id x, known.delivery id = some x ∨ kept.delivery id = some x → id ∈ p.sent
  ahead : ∀ id ∈ p.own, known.delivery id = some .delivered → kept.delivery id = some .delivered
  shown : ∀ a ∈ p.answers, ∀ id, (id, some .delivered) ∈ a.shown →
    id ∈ p.sent ∧ (id ∈ p.own → known.delivery id = some .delivered)

/-- A snapshot under way has looked at all messages that are known to be delivered. -/
def Profile.Looked (p : Profile Key Rest) : Prop :=
  ∀ r s, p.refreshing = some r → p.session = .opened s →
    (∀ id, r.own.any (·.id == id) = true → id ∈ p.sent) ∧
      ∀ id ∈ p.own, r.own.any (·.id == id) = true ∨ s.metadata.delivery id ≠ some .delivered

structure Profile.Safe (env : Env Key Rest) (p : Profile Key Rest) : Prop where
  archive : p.archive.OwnSaved
  own : ∀ id ∈ p.own, id ∈ p.sent
  knows : ∃ d, p.session.Holds env d ∧ p.Knows env (p.session.metadata d) d.metadata
  past : ∀ s, p.session = .opened s → Kept env p.past s.metadata
  looked : p.Looked
  idle : ∀ files, p.session = .closed files → p.refreshing = none
  cache : ∀ c, p.cache = some c → Kept env p.past c.revision
  saved : ∀ a ∈ p.answers, a.Saved env
  ordered : p.answers.Pairwise Answer.Precedes

theorem Kept.append {past : List Files} {metadata : Metadata} (h : Kept env past metadata)
    (files : Files) : Kept env (past ++ [files]) metadata := by
  obtain ⟨f, hf, hmetadata⟩ := h
  exact ⟨f, List.mem_append_left _ hf, hmetadata⟩

theorem kept_last {files : Files} {metadata : Metadata} (h : env.metadata files = some metadata)
    (past : List Files) : Kept env (past ++ [files]) metadata :=
  ⟨files, List.mem_append_right _ (List.mem_singleton_self _), h⟩

/-- An observation of the own messages, or of those that were there before and of which
nothing is shown as delivered. -/
theorem Profile.Knows.observe {known kept known' kept' : Metadata} {own : List OwnMessage}
    (h : p.Knows env known kept) (hsent : ∀ id, own.any (·.id == id) = true → id ∈ p.sent)
    (hown : ∀ id ∈ p.own, own.any (·.id == id) = true ∨ known.delivery id ≠ some .delivered)
    (hobserves : (known' = known ∧ (kept' = kept ∨ kept' = known ∨
        kept' = observeMessages known own)) ∨
      known' = observeMessages known own ∧ kept' = known') :
    p.Knows env known' kept' := by
  have hobserved : ∀ id x, Metadata.delivery (observeMessages known own) id = some x →
      id ∈ p.sent := fun id x hx => hsent id (own_of_observe hx)
  have hdelivered : ∀ id ∈ p.own, known.delivery id = some .delivered →
      Metadata.delivery (observeMessages known own) id = some .delivered := by
    intro id hid hknown
    exact observe_delivered hknown ((hown id hid).resolve_right fun hne => hne hknown)
  obtain ⟨rfl, hkept⟩ | ⟨rfl, rfl⟩ := hobserves
  · obtain rfl | rfl | rfl := hkept
    · exact h
    · exact ⟨fun id x hx => h.sent id x (Or.inl (hx.elim (fun hx => hx) fun hx => hx)),
        fun id _ hx => hx, h.shown⟩
    · exact ⟨fun id x hx => hx.elim (fun hx => h.sent id x (Or.inl hx)) (hobserved id x),
        hdelivered, h.shown⟩
  · refine ⟨fun id x hx => hobserved id x (hx.elim (fun hx => hx) fun hx => hx),
      fun id _ hx => hx, ?_⟩
    intro a ha id hid
    obtain ⟨hsent, hknown⟩ := h.shown a ha id hid
    exact ⟨hsent, fun hmem => hdelivered id hmem (hknown hmem)⟩

/-! ### What each step keeps -/

theorem Profile.Safe.invalidate (h : p.Safe env) : p.invalidate.Safe env := by
  obtain ⟨d, hholds, hknows⟩ := h.knows
  exact ⟨h.archive, h.own, ⟨d, hholds, hknows.sent, hknows.ahead, hknows.shown⟩, h.past, h.looked,
    h.idle, fun _ hc => (nomatch hc), h.saved, h.ordered⟩

/-- The session took something over, and nothing waits for it any more. -/
theorem Profile.Safe.observed (hcipher : env.cipher.Lawful) (hformats : env.formats.Lawful)
    (h : p.Safe env) {s t : Unlocked Key Rest} {own : List OwnMessage}
    (hsession : p.session = .opened s) (hobserves : s.Observes env own t)
    (hsent : ∀ id, own.any (·.id == id) = true → id ∈ p.sent)
    (hown : ∀ id ∈ p.own, own.any (·.id == id) = true ∨
      s.metadata.delivery id ≠ some .delivered) :
    ({ p.settle (.opened t) with refreshing := none } : Profile Key Rest).Safe env := by
  obtain ⟨d, hholds, hknows⟩ := h.knows
  rw [hsession] at hholds hknows
  obtain ⟨kept, hkept, hcases⟩ := hobserves d hholds
  refine ⟨h.archive, h.own, ⟨kept, hkept, ?_⟩, ?_, fun _ _ hr => (nomatch hr),
    fun _ _ => rfl, fun c hc => (h.cache c hc).append _, h.saved, h.ordered⟩
  · have hnext := hknows.observe hsent hown hcases
    exact ⟨hnext.sent, hnext.ahead, hnext.shown⟩
  · rintro u hu
    cases hu
    obtain ⟨hsame, -⟩ | ⟨-, hfile⟩ := hcases
    · rw [hsame]
      exact (h.past s hsession).append _
    · rw [← hfile]
      exact kept_last (hkept.metadata hcipher hformats) _

/-- An answer of what is known. -/
theorem Profile.Safe.answer (h : p.Safe env) {s : Unlocked Key Rest}
    (hsession : p.session = .opened s) {shown : List (String × Option Delivery)}
    {revision : Option Metadata}
    (hshown : ∀ id x, (id, x) ∈ shown → id ∈ p.own ∧ x = s.metadata.delivery id)
    (hrevision : ∀ r, revision = some r → Kept env p.past r) :
    (p.answer shown revision).Safe env := by
  obtain ⟨d, hholds, hknows⟩ := h.knows
  have hmetadata : p.session.metadata d = s.metadata := by
    rw [hsession]
    rfl
  rw [hmetadata] at hknows
  have hlast : ∀ a ∈ p.answers, a.Precedes ⟨p.past, shown, revision⟩ := by
    intro a ha id x hid hx
    obtain ⟨hmem, rfl⟩ := hshown id x hx
    exact (hknows.shown a ha id hid).2 hmem
  refine ⟨h.archive, h.own, ⟨d, hholds, ?_⟩, h.past, h.looked, h.idle, h.cache, ?_, ?_⟩
  · have hsame : (p.answer shown revision).session.metadata d = s.metadata := hmetadata
    rw [hsame]
    refine ⟨hknows.sent, hknows.ahead, ?_⟩
    intro a ha id hid
    obtain ha | ha := List.mem_append.mp ha
    · exact hknows.shown a ha id hid
    · rw [List.mem_singleton.mp ha] at hid
      obtain ⟨hmem, hx⟩ := hshown id _ hid
      exact ⟨h.own id hmem, fun _ => hx.symm⟩
  · intro a ha
    obtain ha | ha := List.mem_append.mp ha
    · exact h.saved a ha
    · rw [List.mem_singleton.mp ha]
      refine ⟨?_, hrevision⟩
      intro id x hx
      exact ⟨s.metadata, h.past s hsession, (hshown id _ hx).2.symm⟩
  · refine List.pairwise_append.mpr ⟨h.ordered, List.pairwise_singleton _ _, ?_⟩
    intro a ha b hb
    rw [List.mem_singleton.mp hb]
    exact hlast a ha

/-- The client goes on; a message that is sent is a new one. -/
theorem Profile.Safe.client (h : p.Safe env) {step : Archive.InboxStep} (hcrash : step ≠ .crash)
    (hfresh : ∀ id, step.recorded = some id → hex id.toList ∉ p.sent) :
    ({ p with
      archive := p.archive.step step
      sent := p.sent ++ step.recorded.toList.map fun id => hex id.toList } : Profile
        Key Rest).Safe env := by
  obtain ⟨harchive, -, hadded⟩ := Archive.ownSaved_step h.archive hcrash
  obtain ⟨d, hholds, hknows⟩ := h.knows
  have hnew : ∀ id ∈ shownIds (p.archive.step step).memory, id ∈ p.own ∨
      id ∉ p.sent ∧ id ∈ step.recorded.toList.map fun id => hex id.toList := by
    intro id hid
    obtain ⟨m, hm, rfl⟩ := List.mem_map.mp hid
    obtain hold | hrecorded := hadded m hm
    · exact Or.inl (List.mem_map.mpr ⟨m, hold, rfl⟩)
    · refine Or.inr ⟨hfresh m hrecorded, ?_⟩
      rw [hrecorded]
      exact List.mem_singleton_self _
  have hdelivered : ∀ id ∈ shownIds (p.archive.step step).memory,
      (p.session.metadata d).delivery id = some .delivered → id ∈ p.own := by
    intro id hid hknown
    exact (hnew id hid).resolve_right fun hfresh => hfresh.1 (hknows.sent id _ (Or.inl hknown))
  refine ⟨harchive, ?_, ⟨d, hholds, ?_, ?_, ?_⟩, h.past, ?_, h.idle, h.cache, h.saved,
    h.ordered⟩
  · intro id hid
    obtain hold | ⟨-, hrecorded⟩ := hnew id hid
    · exact List.mem_append_left _ (h.own id hold)
    · exact List.mem_append_right _ hrecorded
  · intro id x hx
    exact List.mem_append_left _ (hknows.sent id x hx)
  · intro id hid hknown
    exact hknows.ahead id (hdelivered id hid hknown) hknown
  · intro a ha id hid
    obtain ⟨hsent, hknown⟩ := hknows.shown a ha id hid
    refine ⟨List.mem_append_left _ hsent, fun hmem => ?_⟩
    exact hknown ((hnew id hmem).resolve_right fun hfresh => hfresh.1 hsent)
  · intro r u hr hu
    obtain ⟨hlooked, hown⟩ := h.looked r u hr hu
    refine ⟨fun id hid => List.mem_append_left _ (hlooked id hid), fun id hid => ?_⟩
    have hmetadata : p.session.metadata d = u.metadata := by
      have hu : p.session = .opened u := hu
      rw [hu]
      rfl
    by_cases hknown : u.metadata.delivery id = some .delivered
    · exact hown id (hdelivered id hid (by rw [hmetadata]; exact hknown))
    · exact Or.inr hknown

/-- The profile stops, and is left to its files. -/
theorem Profile.Safe.stop (h : p.Safe env) :
    ({ p with
      archive := p.archive.step .crash
      session := .closed p.session.files
      refreshing := none
      cache := none } : Profile Key Rest).Safe env := by
  obtain ⟨d, hholds, hknows⟩ := h.knows
  have hback : ∀ id ∈ shownIds (p.archive.step .crash).memory, id ∈ p.own := by
    intro id hid
    obtain ⟨m, hm, rfl⟩ := List.mem_map.mp hid
    have hm : m ∈ p.archive.disk.stored.ownIds := hm
    rw [Archive.ownIds_stored] at hm
    exact List.mem_map.mpr ⟨m, h.archive m hm, rfl⟩
  have harchive : (p.archive.step .crash).OwnSaved := by
    intro id hid
    have hsame : (p.archive.step .crash).memory.ownIds = p.archive.disk.ownIds :=
      Archive.ownIds_stored _
    rw [hsame]
    exact hid
  refine ⟨harchive, fun id hid => h.own id (hback id hid), ⟨d, ?_, ?_⟩, fun _ hs => (nomatch hs),
    fun _ _ hr => (nomatch hr), fun _ _ => rfl, fun _ hc => (nomatch hc), h.saved, h.ordered⟩
  · cases hsession : p.session with
    | closed files =>
        rw [hsession] at hholds
        exact hholds
    | opened s =>
        rw [hsession] at hholds
        exact ⟨s.store, rfl, hholds⟩
  · refine ⟨fun id x hx => hknows.sent id x (Or.inr (hx.elim (fun hx => hx) fun hx => hx)),
      fun id _ hx => hx, ?_⟩
    intro a ha id hid
    obtain ⟨hsent, hknown⟩ := hknows.shown a ha id hid
    exact ⟨hsent, fun hmem => hknows.ahead id (hback id hmem) (hknown (hback id hmem))⟩

/-- The files are opened, and are saved once before the profile is. -/
theorem Profile.Safe.unlock (hcipher : env.cipher.Lawful) (hformats : env.formats.Lawful)
    (h : p.Safe env) {files : Files} (hsession : p.session = .closed files)
    {opening : Opening} {s t : Unlocked Key Rest}
    {result : Except String Unit} (hopen : env.openFiles files opening = .ok s)
    (hcommit : env.commit s s.state opening.save = (t, result)) :
    (p.settle (.closed t.store.files)).Safe env ∧ (p.settle (.opened t)).Safe env := by
  obtain ⟨d, hholds, hknows⟩ := h.knows
  rw [hsession] at hholds hknows
  have hidle := h.idle files hsession
  obtain ⟨store, rfl, hstore⟩ := hholds
  obtain ⟨hs, hmetadata⟩ := openFiles_holds hcipher hformats hstore hopen
  have hquiet : s.Quiet env t := by
    have hcandidate : s.Quiet env (env.commit s s.state opening.save).1 :=
      quiet_commit opening.save rfl
    rwa [hcommit] at hcandidate
  obtain ⟨kept, hkept, hsame⟩ := hquiet.2 d hs
  have hkeptMetadata : kept.metadata = d.metadata := by
    rw [hmetadata, or_self] at hsame
    exact hsame
  have hknown : t.metadata = d.metadata := hquiet.1.trans hmetadata
  have hlooked : ∀ session : Session Key Rest, (p.settle session).Looked := by
    intro session r u hr
    have hr : p.refreshing = some r := hr
    rw [hidle] at hr
    cases hr
  constructor
  · refine ⟨h.archive, h.own, ⟨kept, ⟨t.store, rfl, hkept⟩, ?_⟩, fun _ hu => (nomatch hu),
      hlooked _, fun _ _ => hidle, fun c hc => (h.cache c hc).append _, h.saved, h.ordered⟩
    have hkeeps : (p.settle (.closed t.store.files)).session.metadata kept = d.metadata :=
      hkeptMetadata
    rw [hkeeps, hkeptMetadata]
    exact ⟨hknows.sent, hknows.ahead, hknows.shown⟩
  · refine ⟨h.archive, h.own, ⟨kept, hkept, ?_⟩, ?_, hlooked _,
      fun _ _ => hidle, fun c hc => (h.cache c hc).append _, h.saved, h.ordered⟩
    · have hkeeps : (p.settle (.opened t)).session.metadata kept = d.metadata := hknown
      rw [hkeeps, hkeptMetadata]
      exact ⟨hknows.sent, hknows.ahead, hknows.shown⟩
    · rintro u hu
      cases hu
      rw [hknown, ← hkeptMetadata]
      exact kept_last (hkept.metadata hcipher hformats) _

/-- The messages the archive has now. -/
theorem Profile.Safe.looks (h : p.Safe env) (metadata : Metadata) :
    (∀ id, (ownMessages p.archive.memory).any (·.id == id) = true → id ∈ p.sent) ∧
      ∀ id ∈ p.own, (ownMessages p.archive.memory).any (·.id == id) = true ∨
        metadata.delivery id ≠ some .delivered :=
  ⟨fun id hid => h.own id ((any_ownMessages _ id).mp hid),
    fun id hid => Or.inl ((any_ownMessages _ id).mpr hid)⟩

theorem settle_refreshing (h : p.refreshing = none) (session : Session Key Rest) :
    ({ p.settle session with refreshing := none } : Profile Key Rest) = p.settle session := by
  obtain ⟨archive, old, refreshing, serviceVersion, clientVersion, cache, sent, past, answers⟩ := p
  cases h
  rfl

/-- A step that is allowed keeps all of this. -/
theorem safe_act (hcipher : env.cipher.Lawful) (hformats : env.formats.Lawful) (h : p.Safe env)
    {act : Act Rest} (hallows : p.Allows act) : (env.act lowercase p act).Safe env := by
  cases act with
  | client step =>
      simp only [Env.act]
      split
      · exact h
      · exact h.client hallows.1 hallows.2
  | clientChanged =>
      obtain ⟨d, hholds, hknows⟩ := h.knows
      exact ⟨h.archive, h.own, ⟨d, hholds, hknows.sent, hknows.ahead, hknows.shown⟩, h.past,
        h.looked, h.idle, h.cache, h.saved, h.ordered⟩
  | invalidate => exact h.invalidate
  | perform operation =>
      simp only [Env.act]
      split
      next s hsession hrefreshing =>
        obtain ⟨hsent, hown⟩ := h.looks s.metadata
        rw [← settle_refreshing hrefreshing]
        exact h.observed hcipher hformats hsession (observes_perform (hallows s hsession)) hsent hown
      · exact h
  | history conversation before limit search io =>
      simp only [Env.act]
      split
      next s hsession hrefreshing =>
        cases hrequest : env.requestHistory lowercase s p.archive.memory conversation before limit
          search io with
        | mk t result =>
            obtain ⟨hobserves, hshown⟩ := requestHistory_cases hrequest
            have hsettled : ((if t.metadata = s.metadata then p else p.invalidate).settle
                (.opened t)).Safe env := by
              split
              · obtain ⟨hsent, hown⟩ := h.looks s.metadata
                rw [← settle_refreshing hrefreshing]
                exact h.observed hcipher hformats hsession hobserves hsent hown
              · obtain ⟨hsent, hown⟩ := h.looks s.metadata
                have hinvalidate : p.invalidate.refreshing = none := hrefreshing
                rw [← settle_refreshing hinvalidate]
                exact h.invalidate.observed hcipher hformats hsession hobserves hsent hown
            have hsame : ((if t.metadata = s.metadata then p else p.invalidate).settle
                (.opened t)).own = p.own := by
              split
              · rfl
              · rfl
            cases result with
            | error message => exact hsettled
            | ok page =>
                apply hsettled.answer rfl
                · intro id x hx
                  rw [hsame]
                  split at hx
                  next harchived => exact hshown page rfl harchived id x hx
                  next => exact absurd hx List.not_mem_nil
                · exact fun _ hr => nomatch hr
      · exact h
  | snapshot expired =>
      have hstart : ∀ s, p.session = .opened s → p.startSnapshot.Safe env := by
        intro s hsession
        obtain ⟨d, hholds, hknows⟩ := h.knows
        refine ⟨h.archive, h.own, ⟨d, hholds, hknows.sent, hknows.ahead, hknows.shown⟩, h.past, ?_,
          ?_, h.cache, h.saved, h.ordered⟩
        · rintro r s ⟨⟩ -
          exact h.looks s.metadata
        · intro files hfiles
          have hfiles : p.session = .closed files := hfiles
          rw [hsession] at hfiles
          cases hfiles
      simp only [Env.act]
      split
      next s hsession _ =>
        split
        · exact hstart s hsession
        next cached hcached =>
          split
          · apply h.answer hsession
            · intro id x hx
              exact absurd hx List.not_mem_nil
            · rintro r ⟨⟩
              exact h.cache cached hcached
          · exact hstart s hsession
      · exact h
  | present rest differs added io =>
      simp only [Env.act]
      split
      next s r hsession hrefreshing =>
        obtain ⟨hsent, hown⟩ := h.looked r s hrefreshing hsession
        have hobserves : s.Observes env r.own (env.refresh s r.own rest differs added io).1 :=
          observes_refresh r.own rest differs added io
        split
        next t message heq =>
          rw [heq] at hobserves
          exact h.observed hcipher hformats hsession hobserves hsent hown
        next t _ heq =>
          rw [heq] at hobserves
          have hsafe := h.observed hcipher hformats hsession hobserves hsent hown
          have hkept : Kept env (p.past ++ [t.store.files]) t.metadata := hsafe.past t rfl
          obtain ⟨d, hholds, hknows⟩ := hsafe.knows
          have hcached : ((({ p with
              refreshing := none
              cache := some ⟨r.serviceVersion, r.clientVersion, t.metadata⟩ } : Profile
                Key Rest).settle (.opened t))).Safe env := by
            refine ⟨h.archive, h.own, ⟨d, hholds, hknows.sent, hknows.ahead, hknows.shown⟩,
              hsafe.past, hsafe.looked, fun _ _ => rfl, ?_, h.saved, h.ordered⟩
            rintro c ⟨⟩
            exact hkept
          apply hcached.answer rfl
          · intro id x hx
            exact absurd hx List.not_mem_nil
          · rintro revision ⟨⟩
            exact hkept
      · exact h
  | cancel =>
      obtain ⟨d, hholds, hknows⟩ := h.knows
      exact ⟨h.archive, h.own, ⟨d, hholds, hknows.sent, hknows.ahead, hknows.shown⟩, h.past,
        fun _ _ hr => (nomatch hr), fun _ _ => rfl, h.cache, h.saved, h.ordered⟩
  | stop => exact h.stop
  | unlock opening =>
      simp only [Env.act]
      split
      · exact h
      next files hsession =>
        split
        · exact h
        next s hopen =>
          split
          next t message hcommit =>
            exact (h.unlock hcipher hformats hsession hopen hcommit).1
          next t _ hcommit =>
            exact (h.unlock hcipher hformats hsession hopen hcommit).2

theorem safe_of_reachable (hcipher : env.cipher.Lawful) (hformats : env.formats.Lawful)
    (h : (env.profile lowercase).Reachable p) : p.Safe env := by
  refine h.invariant ?_ ?_
  · rintro p ⟨⟨store, d, hsession, hholds, hsent⟩, harchive, hown, hrefreshing, hcache, hanswers⟩
    refine ⟨harchive, ?_, ⟨d, ?_, ?_⟩, ?_, ?_, fun _ _ => hrefreshing, ?_, ?_, ?_⟩
    · intro id hid
      obtain ⟨m, hm, rfl⟩ := List.mem_map.mp hid
      exact hown m hm
    · rw [hsession]
      exact ⟨store, rfl, hholds⟩
    · rw [hsession]
      refine ⟨fun id x hx => hsent id x (hx.elim (fun hx => hx) fun hx => hx),
        fun _ _ hx => hx, fun a ha => ?_⟩
      rw [hanswers] at ha
      exact absurd ha List.not_mem_nil
    · intro s hs
      rw [hsession] at hs
      cases hs
    · intro r s hr
      rw [hrefreshing] at hr
      cases hr
    · intro c hc
      rw [hcache] at hc
      cases hc
    · intro a ha
      rw [hanswers] at ha
      exact absurd ha List.not_mem_nil
    · rw [hanswers]
      exact List.Pairwise.nil
  · rintro p act _ - hp ⟨hallows, rfl⟩
    exact safe_act hcipher hformats hp hallows

/-- A run of steps that are allowed. -/
theorem reachable_foldl {start : Profile Key Rest} (h : (env.profile lowercase).Reachable start)
    {acts : List (Act Rest)} (hacts : Machine.Meets Profile.Allows (env.act lowercase) start acts) :
    (env.profile lowercase).Reachable (acts.foldl (env.act lowercase) start) := by
  induction acts generalizing start with
  | nil => exact h
  | cons act acts ih => exact ih (h.step ⟨hacts.1, rfl⟩) hacts.2

end Safety

/-- Every delivery that was shown had been saved before, and so had what the revision of a
snapshot was computed from; what was shown as delivered is shown as delivered from then on,
after any stop; and observing an archive once more changes nothing. -/
theorem displayed_delivery {Key Rest : Type} (env : Env Key Rest) (lowercase : String → String)
    (hcipher : env.cipher.Lawful) (hformats : env.formats.Lawful) :
    (∀ p : Profile Key Rest, (env.profile lowercase).Reachable p →
      (∀ a ∈ p.answers, a.Saved env) ∧ p.answers.Pairwise Answer.Precedes) ∧
    (∀ (metadata : Metadata) (archive : Archive.ArchiveData),
      observeMessages (observeMessages metadata (ownMessages archive)) (ownMessages archive) =
        observeMessages metadata (ownMessages archive)) ∧
    ∀ (s t : Unlocked Key Rest) (archive : Archive.ArchiveData) (io io' : SaveIo),
      env.readHistory s (ownMessages archive) io = (t, .ok ()) →
        env.readHistory t (ownMessages archive) io' = (t, .ok ()) := by
  refine ⟨?_, fun metadata archive => observe_twice metadata _, ?_⟩
  · intro p hp
    have hsafe := safe_of_reachable hcipher hformats hp
    exact ⟨hsafe.saved, hsafe.ordered⟩
  · intro s t archive io io' h
    have hsame : (t.state.observe (ownMessages archive)).messageMetadata =
        t.state.messageMetadata := by
      unfold Env.readHistory at h
      dsimp only at h
      split at h
      next hsame =>
        cases h
        exact hsame
      · obtain ⟨message, herror, -⟩ | ⟨store, -, hok⟩ :=
          commit_cases env s (s.state.observe (ownMessages archive)) io
        · rw [h] at herror
          cases herror
        · rw [hok] at h
          cases h
          exact observe_twice _ _
    rw [Env.readHistory, if_pos hsame]

namespace Sample

/-! ### A message is delivered, and the profile is opened again -/

def profileLegacy (metadata : Metadata) : Legacy Unit :=
  { (UiState.default ()).toLegacy with
    instanceId := env.host.id
    safetyNumber := "12345"
    messageMetadata := metadata
    fileKey := some (Bytes.fill 32 5) }

def sentId : Archive.MessageId := Bytes.fill 16 9

def delivered : Metadata :=
  (∅ : Metadata).insert (hex sentId.toList) ⟨none, some .delivered⟩

/-- The JSON of the document, without the fields that are those of a new profile. -/
def profileText (metadata : List Char) : List UInt8 :=
  utf8 (object [("instance_id", quote env.host.id), ("safety_number", quote "12345"),
    ("message_metadata", metadata),
    ("file_key", array (List.replicate 32 (number 5)))])

def newText : List UInt8 := profileText (object [])

def deliveredText : List UInt8 :=
  profileText (object [("09090909090909090909090909090909",
    object [("operation_id", null), ("delivery", quote "Delivered")])])

def isProfile (d : Legacy Unit) : Bool :=
  d.activity == [] && d.instanceId == env.host.id && d.safetyNumber == "12345" &&
    d.read.isEmpty && d.commandHistory == [] && d.inputHistory == [] && d.operations.isEmpty &&
    d.fileKey == some (Bytes.fill 32 5)

def profileFormat : Format (Legacy Unit) where
  toVec d :=
    if isProfile d && d.messageMetadata == ∅ then .ok newText
    else if isProfile d && d.messageMetadata == delivered then .ok deliveredText
    else .error "no sample"
  fromSlice bytes :=
    if bytes = newText then .ok (profileLegacy ∅)
    else if bytes = deliveredText then .ok (profileLegacy delivered)
    else .error "no sample"

def deliveryEnv : Env Unit Unit :=
  { crashEnv with formats := { crashEnv.formats with legacy := profileFormat } }

theorem isProfile_eq {d : Legacy Unit} (h : isProfile d = true) :
    d = profileLegacy d.messageMetadata := by
  obtain ⟨activity, instanceId, safetyNumber, read, commandHistory, inputHistory, operations,
    messageMetadata, fileKey, rest⟩ := d
  simp only [isProfile, Bool.and_eq_true, beq_iff_eq, Std.ExtTreeMap.isEmpty_iff] at h
  obtain ⟨⟨⟨⟨⟨⟨⟨rfl, rfl⟩, rfl⟩, rfl⟩, rfl⟩, rfl⟩, rfl⟩, rfl⟩ := h
  rfl

theorem profileFormat_lawful : profileFormat.Lawful := by
  have htexts : deliveredText ≠ newText := by decide +kernel
  intro d bytes h
  change (if _ then _ else if _ then _ else _) = _ at h
  change (if _ then _ else if _ then _ else _) = _
  split at h
  case isTrue heq =>
    cases h
    simp only [Bool.and_eq_true, beq_iff_eq] at heq
    rw [if_pos rfl, isProfile_eq heq.1, heq.2]
  case isFalse =>
    split at h
    case isTrue heq =>
      cases h
      simp only [Bool.and_eq_true, beq_iff_eq] at heq
      rw [if_neg htexts, if_pos rfl, isProfile_eq heq.1, heq.2]
    case isFalse => cases h

theorem deliveryFormats_lawful : deliveryEnv.formats.Lawful :=
  ⟨formats_lawful.retained, formats_lawful.book, formats_lawful.preferences, profileFormat_lawful⟩

def profileStore : ServiceStateStore Unit :=
  { saved with
    legacy := ⟨savedLegacy,
      some (savedLegacy.output sampleCipher Store.sampleCodec (Bytes.fill 12 0) newText)⟩ }

def profileDocuments : Documents Unit :=
  { (before []).documents with legacy := profileLegacy ∅ }

def profile : Profile Unit Unit where
  archive := Archive.Inbox.opened .archive (.create "")
  session := .closed profileStore.files
  refreshing := none
  serviceVersion := 0
  clientVersion := 0
  cache := none
  sent := []
  past := []
  answers := []

theorem profile_starts : profile.Starts deliveryEnv where
  files := by
    refine ⟨profileStore, profileDocuments, rfl, ?_, fun id x hx => ?_⟩
    · exact ⟨rfl, ⟨⟨rfl, rfl⟩, Or.inr ⟨newText, Bytes.fill 12 0, rfl, rfl⟩⟩,
        saved_holds.retained, saved_holds.book, saved_holds.preferences⟩
    · have hnone : (∅ : Metadata)[id]? = none := Std.ExtTreeMap.getElem?_empty
      have hx : Metadata.delivery ∅ id = some x := hx
      rw [Metadata.delivery, hnone] at hx
      cases hx
  archive := fun _ hid => hid
  sent := fun _ hid => absurd hid List.not_mem_nil
  refreshing := rfl
  cache := rfl
  answers := rfl

def read : Act Unit := .history (Archive.channelKey Archive.room.id) none 10 none saveIo

/-- The message is sent before its delivery is told, and the archive is saved. -/
def sends : List (Act Unit) :=
  [.client (.op (.mergeChannel Archive.room (Archive.ownRoster (Bytes.fill 32 1)) 1)),
    .client (.op (.recordChannelSend Archive.room.id ⟨2, "hello", none, sentId⟩)),
    .client (.op (.event (.channelDelivered "room" sentId))),
    .client (.backgroundSave .saved)]

/-- The conversation is read, and once more after the profile was opened again. -/
def acts : List (Act Unit) := .unlock opening :: sends ++ [read, .stop, .unlock opening, read]

theorem acts_allowed :
    Machine.Meets Profile.Allows (deliveryEnv.act toAsciiLowercase) profile acts := by
  have hsent : (deliveryEnv.act toAsciiLowercase
      (deliveryEnv.act toAsciiLowercase profile (.unlock opening))
      (.client (.op (.mergeChannel Archive.room (Archive.ownRoster (Bytes.fill 32 1)) 1)))).sent =
        [] := by decide +kernel
  refine ⟨trivial, ⟨by simp, fun _ h => nomatch h⟩, ⟨by simp, fun id _ => ?_⟩,
    ⟨by simp, fun _ h => nomatch h⟩, ⟨by simp, fun _ h => nomatch h⟩, trivial, trivial, trivial,
    trivial, trivial⟩
  rw [hsent]
  exact List.not_mem_nil

end Sample

/-- The message is shown as delivered, before the profile stops and after it. -/
theorem sample_displayed :
    let p := Sample.acts.foldl (Sample.deliveryEnv.act toAsciiLowercase) Sample.profile
    p.answers.map (·.shown) = List.replicate 2
        [("09090909090909090909090909090909", some .delivered)] ∧
      (∀ a ∈ p.answers, a.Saved Sample.deliveryEnv) ∧ p.answers.Pairwise Answer.Precedes := by
  refine ⟨by decide +kernel, ?_⟩
  exact (displayed_delivery Sample.deliveryEnv toAsciiLowercase sampleCipher_lawful
    Sample.deliveryFormats_lawful).1 _
    (reachable_foldl (Machine.Reachable.start Sample.profile_starts) Sample.acts_allowed)

end Service

end GChat
