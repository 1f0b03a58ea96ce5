import GChat.Foundation.StableSort
import GChat.Hosted.Projection
import GChat.Service.Saved

/-!
# A crash between two writes

A save writes one file after the other, each as a whole. A crash in the middle leaves
some files new and the others old, as a failure at the same place does. The hosted
channels are in one file with their cursors and activity, so that what was fetched again
after the crash is either passed over or applied as before.
-/

namespace GChat

namespace Service

open Foundation Api Store

/-! ### What a file keeps -/

/-- What the JSON library writes it reads back. -/
def Format.Lawful {α : Type} (format : Format α) : Prop :=
  ∀ document bytes, format.toVec document = .ok bytes → format.fromSlice bytes = .ok document

structure Formats.Lawful {Rest : Type} (formats : Formats Rest) : Prop where
  retained : formats.retained.Lawful
  book : formats.book.Lawful
  preferences : formats.preferences.Lawful
  legacy : formats.legacy.Lawful

section One

variable {Key α : Type} {cipher : Cipher Key} {codec : Codec (List UInt8)} {format : Format α}
  {magic : Bytes 6} {key : Bytes 16 → Key} {s : ChatServiceStore Key} {new document : α}

/-- The document is in the file, as an earlier save wrote it, or it is the one of a new
profile and was never written. -/
structure ChatServiceStore.Holds (cipher : Cipher Key) (codec : Codec (List UInt8))
    (format : Format α) (magic : Bytes 6) (key : Bytes 16 → Key) (new : α)
    (s : ChatServiceStore Key) (document : α) : Prop where
  keyed : Keyed magic key s.store
  kept : (s.file = none ∧ document = new) ∨ ∃ bytes nonce, format.toVec document = .ok bytes ∧
    s.file = some (s.store.output cipher codec nonce bytes)

/-- A save leaves the store as it was, or the file with the new document. -/
theorem save_outcome (cipher : Cipher Key) (codec : Codec (List UInt8)) (format : Format α)
    (s : ChatServiceStore Key) (candidate : α) (io : Io) :
    (s.save cipher codec format candidate io).1 = s ∨
      ∃ bytes initialized, format.toVec candidate = .ok bytes ∧
        (s.save cipher codec format candidate io).1 =
          ⟨{ s.store with initialized := initialized },
            some (s.store.output cipher codec io.nonce bytes)⟩ := by
  unfold ChatServiceStore.save
  cases hvec : format.toVec candidate with
  | error message => exact Or.inl rfl
  | ok bytes =>
      simp only []
      split
      · exact Or.inl rfl
      · obtain ⟨message, hsave⟩ | ⟨message, -, hsave⟩ | ⟨-, hsave⟩ :=
          save_cases cipher codec s.store s.file io.nonce bytes io.fault
        · rw [hsave]
          exact Or.inl rfl
        · rw [hsave]
          exact Or.inr ⟨bytes, s.store.initialized, rfl, rfl⟩
        · rw [hsave]
          exact Or.inr ⟨bytes, true, rfl, rfl⟩

theorem save_key (cipher : Cipher Key) (codec : Codec (List UInt8)) (format : Format α)
    (s : ChatServiceStore Key) (candidate : α) (io : Io) :
    (s.save cipher codec format candidate io).1.store.key = s.store.key := by
  obtain hold | ⟨bytes, initialized, -, hnew⟩ := save_outcome cipher codec format s candidate io
  · rw [hold]
  · rw [hnew]

theorem save_isSome (h : s.file.isSome = true) (candidate : α) (io : Io) :
    (s.save cipher codec format candidate io).1.file.isSome = true := by
  obtain hold | ⟨bytes, initialized, -, hnew⟩ := save_outcome cipher codec format s candidate io
  · rw [hold, h]
  · rw [hnew]
    rfl

namespace ChatServiceStore.Holds

/-- After a save that may fail anywhere the file holds the old document or the new one. -/
theorem save (h : s.Holds cipher codec format magic key new document) (candidate : α) (io : Io) :
    ∃ kept, (kept = document ∨ kept = candidate) ∧
      (s.save cipher codec format candidate io).1.Holds cipher codec format magic key new kept := by
  obtain hold | ⟨bytes, initialized, hvec, hnew⟩ := save_outcome cipher codec format s candidate io
  · rw [hold]
    exact ⟨document, Or.inl rfl, h⟩
  · rw [hnew]
    exact ⟨candidate, Or.inr rfl, h.keyed, Or.inr ⟨bytes, io.nonce, hvec, rfl⟩⟩

theorem saveIf (h : s.Holds cipher codec format magic key new document) (there : Bool)
    (candidate : α) (io : Io) :
    ∃ kept, (kept = document ∨ kept = candidate) ∧
      (s.saveIf cipher codec format there candidate io).1.Holds cipher codec format magic key new
        kept := by
  unfold ChatServiceStore.saveIf
  split
  · exact h.save candidate io
  · exact ⟨document, Or.inl rfl, h⟩

/-- What the file holds is what opening it reads. -/
theorem opens (hcipher : cipher.Lawful) (hformat : format.Lawful)
    (h : s.Holds cipher codec format magic key new document) {raw : List UInt8}
    (hraw : s.file = some raw) (corruption : String) :
    ∃ bytes, openWithKey cipher codec raw magic corruption key =
        .ok ({ s.store with initialized := true }, bytes) ∧ format.fromSlice bytes = .ok document := by
  obtain ⟨hnone, -⟩ | ⟨bytes, nonce, hvec, hfile⟩ := h.kept
  · rw [hnone] at hraw
    cases hraw
  · rw [hfile] at hraw
    cases hraw
    refine ⟨bytes, ?_, hformat document bytes hvec⟩
    rw [← h.keyed.1]
    exact openWithKey_output hcipher s.store h.keyed.2 corruption nonce bytes

/-- The store that is opened on a file holds what the file does. -/
theorem reopened (h : s.Holds cipher codec format magic key new document) {raw : List UInt8}
    (hraw : s.file = some raw) :
    ChatServiceStore.Holds cipher codec format magic key new
      ⟨{ s.store with initialized := true }, some raw⟩ document := by
  refine ⟨h.keyed, ?_⟩
  rw [← hraw]
  exact h.kept

theorem companion (hcipher : cipher.Lawful) (hformat : format.Lawful)
    (h : s.Holds cipher codec format magic key new document) (salt : Bytes 16) :
    ∃ t, Service.companion cipher codec format s.file new magic key salt = .ok (t, document) ∧
      t.Holds cipher codec format magic key new document := by
  unfold Service.companion
  cases hfile : s.file with
  | none =>
      obtain ⟨-, rfl⟩ | ⟨bytes, nonce, -, hsome⟩ := h.kept
      · exact ⟨_, rfl, ⟨rfl, rfl⟩, Or.inl ⟨rfl, rfl⟩⟩
      · rw [hfile] at hsome
        cases hsome
  | some raw =>
      obtain ⟨bytes, hopen, hdocument⟩ := h.opens hcipher hformat hfile "corrupted application archive"
      refine ⟨⟨{ s.store with initialized := true }, some raw⟩, ?_, h.reopened hfile⟩
      simp only [hopen, hdocument, bind, Except.bind]

theorem openOrCreate (hcipher : cipher.Lawful) (hformat : format.Lawful)
    (h : s.Holds cipher codec format uiMagic key new document) (hfile : s.file.isSome = true)
    (salt : Bytes 16) (io : Io) :
    ∃ t, Service.openOrCreate cipher codec format s.file new key salt io = .ok (t, document) ∧
      t.store.key = s.store.key ∧ t.file = s.file ∧
      t.Holds cipher codec format uiMagic key new document := by
  unfold Service.openOrCreate
  cases hraw : s.file with
  | none =>
      rw [hraw] at hfile
      cases hfile
  | some raw =>
      obtain ⟨bytes, hopen, hdocument⟩ :=
        h.opens hcipher hformat hraw "wrong passphrase or corrupted chat service state"
      refine ⟨⟨{ s.store with initialized := true }, some raw⟩, ?_, rfl, rfl, h.reopened hraw⟩
      simp only [hopen, hdocument, bind, Except.bind]

end ChatServiceStore.Holds

end One

/-! ### The four files -/

/-- The four documents of a state. -/
structure Documents (Rest : Type) where
  retained : Retained
  book : Contacts.Book
  preferences : Preferences
  legacy : Legacy Rest

def UiState.documents {Rest : Type} (state : UiState Rest) : Documents Rest :=
  ⟨state.retained, state.contacts, state.preferences, state.legacy⟩

/-- The state that is read from four documents. -/
def Documents.state {Rest : Type} (d : Documents Rest) : UiState Rest :=
  { d.legacy with
    activity := sortActivity (d.legacy.activity.filter (fun a => !isHosted a) ++ d.retained.activity)
    hosted := d.retained.channels
    contacts := d.book
    preferences := d.preferences }

/-- Each document is one of two. -/
structure Documents.Mixes {Rest : Type} (d old new : Documents Rest) : Prop where
  retained : d.retained = old.retained ∨ d.retained = new.retained
  book : d.book = old.book ∨ d.book = new.book
  preferences : d.preferences = old.preferences ∨ d.preferences = new.preferences
  legacy : d.legacy = old.legacy ∨ d.legacy = new.legacy

/-- The files of a profile, as the stores have them. -/
def ServiceStateStore.files {Key : Type} (s : ServiceStateStore Key) : Files :=
  ⟨s.legacy.file, s.hosted.file, s.contacts.file, s.preferences.file⟩

/-- Read the file of the service and its companions. -/
def Env.reopen {Key Rest : Type} (env : Env Key Rest) (files : Files) (salts : Salts)
    (create : Io) : Except String (ServiceStateStore Key × UiState Rest) := do
  let (legacy, state) ← openOrCreate env.cipher env.codec env.formats.legacy files.legacy
    (UiState.default env.newRest).toLegacy env.keys.legacy salts.legacy create
  ServiceStateStore.open env.cipher env.codec env.formats env.contactCodec env.keys files salts
    legacy state

section Four

variable {Key Rest : Type} {env : Env Key Rest} {s : ServiceStateStore Key} {d : Documents Rest}

/-- The files hold the documents; the one of the service is there. -/
structure ServiceStateStore.Holds (env : Env Key Rest) (s : ServiceStateStore Key)
    (d : Documents Rest) : Prop where
  created : s.legacy.file.isSome = true
  legacy : s.legacy.Holds env.cipher env.codec env.formats.legacy uiMagic env.keys.legacy
    (UiState.default env.newRest).toLegacy d.legacy
  retained : s.hosted.Holds env.cipher env.codec env.formats.retained hostedMagic
    (env.keys.derive s.legacy.store.key "gchat-hosted-archive-v1") ⟨∅, []⟩ d.retained
  book : s.contacts.Holds env.cipher env.codec env.formats.book contactMagic
    (env.keys.derive s.legacy.store.key "gchat-contact-archive-v1") Contacts.Book.default d.book
  preferences : s.preferences.Holds env.cipher env.codec env.formats.preferences preferencesMagic
    (env.keys.derive s.legacy.store.key "gchat-preferences-v1") Preferences.default d.preferences

/-- A save that fails anywhere leaves each file with the old document or the new one. -/
theorem ServiceStateStore.Holds.save (h : s.Holds env d) (state : UiState Rest) (io : SaveIo) :
    ∃ kept, kept.Mixes d state.documents ∧
      (s.save env.cipher env.codec env.formats state io).1.Holds env kept := by
  obtain ⟨retained, hretained, hhosted⟩ :=
    h.retained.saveIf (!state.hosted.isEmpty) state.retained io.hosted
  obtain ⟨book, hbook, hcontacts⟩ :=
    h.book.saveIf (!Book.isEmpty state.contacts) state.contacts io.contacts
  obtain ⟨prefs, hprefs, hpreferences⟩ :=
    h.preferences.saveIf (!state.preferences.isEmpty) state.preferences io.preferences
  obtain ⟨service, hservice, hlegacy⟩ := h.legacy.save state.legacy io.legacy
  unfold ServiceStateStore.save
  split
  next hosted message heq =>
    rw [heq] at hhosted
    exact ⟨{ d with retained := retained }, ⟨hretained, Or.inl rfl, Or.inl rfl, Or.inl rfl⟩,
      ⟨h.created, h.legacy, hhosted, h.book, h.preferences⟩⟩
  next hosted _ heq =>
    rw [heq] at hhosted
    split
    next contacts message heq =>
      rw [heq] at hcontacts
      exact ⟨{ d with retained := retained, book := book },
        ⟨hretained, hbook, Or.inl rfl, Or.inl rfl⟩,
        ⟨h.created, h.legacy, hhosted, hcontacts, h.preferences⟩⟩
    next contacts _ heq =>
      rw [heq] at hcontacts
      split
      next preferences message heq =>
        rw [heq] at hpreferences
        exact ⟨{ d with retained := retained, book := book, preferences := prefs },
          ⟨hretained, hbook, hprefs, Or.inl rfl⟩,
          ⟨h.created, h.legacy, hhosted, hcontacts, hpreferences⟩⟩
      next preferences _ heq =>
        rw [heq] at hpreferences
        have hkey := save_key env.cipher env.codec env.formats.legacy s.legacy state.legacy io.legacy
        refine ⟨⟨retained, book, prefs, service⟩, ⟨hretained, hbook, hprefs, hservice⟩, ?_⟩
        refine ⟨save_isSome h.created state.legacy io.legacy, hlegacy, ?_, ?_, ?_⟩
        · simp only [hkey]
          exact hhosted
        · simp only [hkey]
          exact hcontacts
        · simp only [hkey]
          exact hpreferences

/-- Opening the files makes the state of the documents in them. -/
theorem ServiceStateStore.Holds.reopen (hcipher : env.cipher.Lawful) (hformats : env.formats.Lawful)
    (h : s.Holds env d) (hbook : Contacts.validateBook env.contactCodec d.book = .ok ())
    (salts : Salts) (create : Io) :
    ∃ t, env.reopen s.files salts create = .ok (t, d.state) := by
  obtain ⟨legacy, hlegacy, hkey, -⟩ :=
    h.legacy.openOrCreate hcipher hformats.legacy h.created salts.legacy create
  obtain ⟨hosted, hhosted, -⟩ := h.retained.companion hcipher hformats.retained salts.hosted
  obtain ⟨contacts, hcontacts, -⟩ := h.book.companion hcipher hformats.book salts.contacts
  obtain ⟨preferences, hpreferences, -⟩ :=
    h.preferences.companion hcipher hformats.preferences salts.preferences
  refine ⟨⟨legacy, hosted, contacts, preferences⟩, ?_⟩
  unfold Env.reopen
  simp only [ServiceStateStore.files, hlegacy, bind, Except.bind]
  unfold ServiceStateStore.open
  simp only [hkey, hhosted, hcontacts, hpreferences, hbook, bind, Except.bind]
  rfl

end Four

/-! ### The order of the activity -/

/-- The activity as a reopen orders it. -/
def reopened (activity : List Hosted.Activity) : List Hosted.Activity :=
  sortActivity (activity.filter (fun a => !isHosted a) ++ activity.filter isHosted)

/-- The activity a batch leaves in a state, before the bound on activity. -/
def entries (completionType : String) (state : Hosted.UiState) (channel : Hosted.Channel)
    (events : List Hosted.Event) : List Hosted.Activity :=
  match events.foldlM (Hosted.applyEvent completionType (Hosted.key channel.id))
    (state.enter channel, []) with
  | .ok (_, activity) => activity
  | .error _ => []

/-- What a batch makes of the channels, with the error of a channel that was recovered. -/
def archived (recovered : Bool) (channel : Hosted.Channel) (candidate : Hosted.UiState) :
    Hosted.UiState :=
  if recovered then candidate.recovered channel else candidate

section Again

variable {completionType : String} {state : Hosted.UiState} {channel : Hosted.Channel}
  {events : List Hosted.Event} {candidate : Hosted.UiState} {through : ℕ}

/-- The archive that is kept of a batch. -/
def kept (recovered : Bool) (room : Hosted.Archive) : Hosted.Archive :=
  if recovered then { room.fillOperations with error := none } else room.fillOperations

end Again

section Crash

variable {Key Rest : Type} {env : Env Key Rest} {s : ServiceStateStore Key}

end Crash

namespace Sample

/-! ### A member joins, and the save of it stops -/

def entry (id : String) (timestamp : ℕ) : Hosted.Activity :=
  ⟨id, "alpha", "join", "bob joined", timestamp⟩

def late : Hosted.Activity := entry "2" 10

def early : Hosted.Activity := entry "1" 5

/-- Activity that was not added in the order of its times. -/
def unordered : List Hosted.Activity := [late, early]

/-- A profile with activity of a channel that is not hosted. -/
def before (activity : List Hosted.Activity) : UiState Unit :=
  { UiState.default () with activity := activity }

def channel : Hosted.Channel := ⟨Bytes.fill 32 1, Bytes.fill 32 2, [⟨Bytes.fill 32 2, "ann"⟩], []⟩

def joined : List Hosted.Event := [⟨1, Bytes.fill 32 1, 20, .joined (Bytes.fill 32 3) "bob"⟩]

def candidate (state : UiState Unit) : Hosted.UiState :=
  ((Hosted.apply "" state.channels channel joined).toOption.map (·.1)).getD state.channels

def after (state : UiState Unit) : UiState Unit :=
  state.withChannels (archived false channel (candidate state))

def activityText (a : Hosted.Activity) : List Char :=
  object [("id", quote a.id), ("conversation", quote a.conversation), ("kind", quote a.kind),
    ("text", quote a.text), ("timestamp", number a.timestamp)]

/-- The fields of a new profile, but for the activity. -/
def plain (d : Legacy Unit) : Bool :=
  d.instanceId == "" && d.safetyNumber == "" && d.read.isEmpty && d.commandHistory == [] &&
    d.inputHistory == [] && d.operations.isEmpty && d.messageMetadata.isEmpty &&
    d.fileKey == none

def utf8 (text : List Char) : List UInt8 := text.map fun c => UInt8.ofNat c.toNat

/-- The JSON of the saved document of the service, without the fields of a new profile. -/
def savedText : List UInt8 :=
  utf8 (object [("activity", array (unordered.map activityText))])

def legacyFormat : Format (Legacy Unit) where
  toVec d := if plain d && d.activity == unordered then .ok savedText else .error "no sample"
  fromSlice bytes := if bytes = savedText then .ok (before unordered).legacy
    else .error "no sample"

deriving instance DecidableEq for Retained

/-- The JSON of the hosted channel, without the fields that are empty. -/
def retainedText : List UInt8 :=
  utf8 (object [("channels", object [(Hosted.key channel.id, object [("cursor", number 1)])]),
    ("activity", array ((after (before unordered)).retained.activity.map activityText))])

def retainedFormat : Format Retained where
  toVec d := if d = (after (before unordered)).retained then .ok retainedText
    else .error "no sample"
  fromSlice bytes := if bytes = retainedText then .ok (after (before unordered)).retained
    else .error "no sample"

def crashEnv : Env Unit Unit :=
  { env with
    formats := ⟨retainedFormat, absent, absent, legacyFormat⟩
    completionType := "" }

def closed (magic : Bytes 6) : ChatServiceStore Unit :=
  ⟨⟨magic, Bytes.fill 16 1, (), false⟩, none⟩

def savedLegacy : EncryptedStore Unit := ⟨uiMagic, Bytes.fill 16 1, (), true⟩

def saved : ServiceStateStore Unit where
  legacy := ⟨savedLegacy,
    some (savedLegacy.output sampleCipher Store.sampleCodec (Bytes.fill 12 0) savedText)⟩
  hosted := closed hostedMagic
  contacts := closed contactMagic
  preferences := closed preferencesMagic

/-- The save fails at the file of the service, after the hosted channels were written. -/
def failing : SaveIo := { saveIo with legacy := ⟨Bytes.fill 12 0, some (.rename, "I/O error")⟩ }

/-- The save fails at its first file. -/
def stopped : SaveIo :=
  { saveIo with hosted := ⟨Bytes.fill 12 0, some (.createTemporary, "I/O error")⟩ }

theorem plain_eq {d : Legacy Unit} (h : plain d = true) :
    d = (before d.activity).toLegacy := by
  obtain ⟨activity, instanceId, safetyNumber, read, commandHistory, inputHistory, operations,
    messageMetadata, fileKey, rest⟩ := d
  simp only [plain, Bool.and_eq_true, beq_iff_eq, Std.ExtTreeMap.isEmpty_iff] at h
  obtain ⟨⟨⟨⟨⟨⟨⟨rfl, rfl⟩, rfl⟩, rfl⟩, rfl⟩, rfl⟩, rfl⟩, rfl⟩ := h
  rfl

theorem formats_lawful : crashEnv.formats.Lawful where
  retained document bytes h := by
    change (if _ then _ else _) = _ at h
    change (if _ then _ else _) = _
    split at h
    case isTrue heq =>
      cases h
      rw [if_pos rfl, heq]
    case isFalse => cases h
  book _ _ h := by cases h
  preferences _ _ h := by cases h
  legacy document bytes h := by
    change (if _ then _ else _) = _ at h
    change (if _ then _ else _) = _
    split at h
    case isTrue heq =>
      cases h
      simp only [Bool.and_eq_true, beq_iff_eq] at heq
      rw [if_pos rfl, plain_eq heq.1, heq.2]
      rfl
    case isFalse => cases h

theorem saved_holds : saved.Holds crashEnv (before unordered).documents where
  created := rfl
  legacy := ⟨⟨rfl, rfl⟩, Or.inr ⟨savedText, Bytes.fill 12 0, rfl, rfl⟩⟩
  retained := ⟨⟨rfl, rfl⟩, Or.inl ⟨rfl, rfl⟩⟩
  book := ⟨⟨rfl, rfl⟩, Or.inl ⟨rfl, rfl⟩⟩
  preferences := ⟨⟨rfl, rfl⟩, Or.inl ⟨rfl, rfl⟩⟩

/-- The activity before a batch, with others of one later time. -/
def full (n : ℕ) : List Hosted.Activity := late :: early :: List.replicate n (entry "3" 15)

/-- The entry that the batch leaves. -/
def bob : List Hosted.Activity := entries "" (before []).channels channel joined

end Sample

end Service

end GChat
