import GChat.Service.Redaction
import GChat.Unlock.Model

/-!
# The files an attempt leaves

The files of a profile are those of one instance, or they were never written. A save that stops
half way leaves some files new and the others old. What a later attempt makes of them is what the
first one did.
-/

namespace GChat

namespace Unlock

open Foundation Store
open Service (Documents Files ServiceStateStore ChatServiceStore UiState Opening isHosted
  sortActivity)

section Documents

variable {Key Rest : Type} {env : Service.Env Key Rest} {d kept : Documents Rest}
  {opening other : Opening}

/-- The state that unlocking makes of the documents. -/
def openedState (env : Service.Env Key Rest) (opening : Opening) (d : Documents Rest) :
    UiState Rest :=
  Documents.state { d with legacy := env.prepare opening d.legacy }

/-- Each document serializes within the bound. -/
structure Fits (formats : Service.Formats Rest) (d : Documents Rest) : Prop where
  retained : formats.retained.Fits d.retained
  book : formats.book.Fits d.book
  preferences : formats.preferences.Fits d.preferences
  legacy : formats.legacy.Fits d.legacy

/-- The documents of this instance, or of none yet. What unlocking makes of them can be saved. -/
structure Ours (env : Service.Env Key Rest) (safety : String) (d : Documents Rest) :
    Prop where
  instanceId : d.legacy.instanceId = "" ∨ d.legacy.instanceId = env.host.id
  safetyNumber : d.legacy.safetyNumber = "" ∨ d.legacy.safetyNumber = safety
  book : Contacts.validateBook env.contactCodec d.book = .ok ()
  activity : ∀ a ∈ d.retained.activity, isHosted a = true
  fits : ∀ opening, opening.safetyNumber = safety →
    Fits env.formats (openedState env opening d).documents

theorem prepare_prepare (h : other.safetyNumber = opening.safetyNumber)
    (state : Service.Legacy Rest) (activity : List Hosted.Activity) :
    env.prepare other { env.prepare opening state with activity := activity } =
      { env.prepare opening state with activity := activity } := by
  simp [Service.Env.prepare, h, Commands.recallText_idem]

/-! ### The activity of kept files -/

theorem filter_of_all {activity : List Hosted.Activity} (h : ∀ a ∈ activity, isHosted a = true) :
    activity.filter isHosted = activity ∧ activity.filter (fun a => !isHosted a) = [] := by
  refine ⟨List.filter_eq_self.mpr h, List.filter_eq_nil_iff.mpr fun a ha => ?_⟩
  rw [h a ha]
  nofun

theorem sortActivity_filter {plain hosted : List Hosted.Activity}
    (h : ∀ a ∈ hosted, isHosted a = true) :
    (sortActivity (plain.filter (fun a => !isHosted a) ++ hosted)).filter
        (fun a => !isHosted a) =
      sortBy Hosted.Activity.timestamp (plain.filter fun a => !isHosted a) ∧
    (sortActivity (plain.filter (fun a => !isHosted a) ++ hosted)).filter isHosted =
      sortBy Hosted.Activity.timestamp hosted := by
  obtain ⟨hall, hnone⟩ := filter_of_all h
  constructor
  · change (sortBy Hosted.Activity.timestamp _).filter _ = _
    rw [filter_sortBy]
    simp [List.filter_append, List.filter_filter, hnone]
  · change (sortBy Hosted.Activity.timestamp _).filter _ = _
    rw [filter_sortBy]
    simp [List.filter_append, List.filter_filter, hall]

/-- Sorting again, with either part sorted or not, is sorting once. -/
theorem sortActivity_kept {plain hosted other : List Hosted.Activity}
    {more : List Hosted.Activity} (h : ∀ a ∈ hosted, isHosted a = true)
    (hplain : other = plain ∨ other =
      (sortActivity (plain.filter (fun a => !isHosted a) ++ hosted)).filter fun a => !isHosted a)
    (hmore : more = hosted ∨ more =
      (sortActivity (plain.filter (fun a => !isHosted a) ++ hosted)).filter isHosted) :
    sortActivity (other.filter (fun a => !isHosted a) ++ more) =
      sortActivity (plain.filter (fun a => !isHosted a) ++ hosted) := by
  obtain ⟨hfirst, hsecond⟩ := @sortActivity_filter plain hosted h
  rw [hfirst] at hplain
  rw [hsecond] at hmore
  refine sortBy_congr fun k => ?_
  rw [part_append, part_append]
  congr 1
  · obtain rfl | rfl := hplain
    · rfl
    · rw [filter_sortBy, List.filter_filter, part_sortBy]
      simp
  · obtain rfl | rfl := hmore
    · rfl
    · rw [part_sortBy]

/-! ### Documents that are kept -/

theorem openedState_activity (opening : Opening) (d : Documents Rest) :
    (openedState env opening d).activity =
      sortActivity (d.legacy.activity.filter (fun a => !isHosted a) ++ d.retained.activity) := rfl

/-- Whichever documents a save that stopped half way has kept, unlocking makes the same of them as
of those before. -/
theorem openedState_mixes (hactivity : ∀ a ∈ d.retained.activity, isHosted a = true)
    (hmixes : kept.Mixes d (openedState env opening d).documents)
    (hsafety : other.safetyNumber = opening.safetyNumber) :
    ∃ first : Opening, first.safetyNumber = opening.safetyNumber ∧
      openedState env other kept = openedState env first d := by
  obtain ⟨retained, book, preferences, legacy⟩ := kept
  obtain ⟨hretained, hbook, hpreferences, hlegacy⟩ := hmixes
  dsimp only at hretained hbook hpreferences hlegacy
  have hsorted : sortActivity (legacy.activity.filter (fun a => !isHosted a) ++
      retained.activity) =
        sortActivity (d.legacy.activity.filter (fun a => !isHosted a) ++ d.retained.activity) := by
    refine sortActivity_kept hactivity ?_ ?_
    · exact hlegacy.imp (congrArg _) (congrArg _)
    · exact hretained.imp (congrArg _) (congrArg _)
  have hchannels : retained.channels = d.retained.channels := by
    obtain rfl | rfl := hretained
    · rfl
    · rfl
  have hbook : book = d.book := hbook.elim id id
  have hpreferences : preferences = d.preferences := hpreferences.elim id id
  have hstate : ∀ first : Opening,
      env.prepare other legacy = { env.prepare first d.legacy with activity := legacy.activity } →
      openedState env other ⟨retained, book, preferences, legacy⟩ = openedState env first d := by
    intro first hprepare
    have hprepared : (env.prepare other legacy).activity = legacy.activity := rfl
    simp only [openedState, Documents.state, hprepare, hchannels, hbook, hpreferences]
    rw [hsorted]
    rfl
  obtain rfl | rfl := hlegacy
  · exact ⟨other, hsafety, hstate other rfl⟩
  · exact ⟨opening, rfl, hstate opening (prepare_prepare hsafety d.legacy _)⟩

theorem Ours.mixes {safety : String} (h : Ours env safety d) (hsafety : opening.safetyNumber = safety)
    (hmixes : kept.Mixes d (openedState env opening d).documents) : Ours env safety kept := by
  have hfits : ∀ other : Opening, other.safetyNumber = safety →
      Fits env.formats (openedState env other kept).documents := by
    intro other hother
    obtain ⟨first, hfirst, hsame⟩ :=
      openedState_mixes h.activity hmixes (hother.trans hsafety.symm)
    rw [hsame]
    exact h.fits first (hfirst.trans hsafety)
  refine ⟨?_, ?_, ?_, ?_, hfits⟩
  · obtain hold | hnew := hmixes.legacy
    · rw [hold]
      exact h.instanceId
    · rw [hnew]
      exact Or.inr rfl
  · obtain hold | hnew := hmixes.legacy
    · rw [hold]
      exact h.safetyNumber
    · rw [hnew]
      exact Or.inr hsafety
  · obtain hold | hnew := hmixes.book
    · rw [hold]
      exact h.book
    · rw [hnew]
      exact h.book
  · obtain hold | hnew := hmixes.retained
    · rw [hold]
      exact h.activity
    · rw [hnew]
      exact fun a ha => (List.mem_filter.mp ha).2

theorem Ours.accepted {safety : String} (h : Ours env safety d) (message : String) :
    refuse ((!d.legacy.instanceId.isEmpty && d.legacy.instanceId != env.host.id) ||
      (!d.legacy.safetyNumber.isEmpty && d.legacy.safetyNumber != safety)) message = .ok () := by
  rw [refuse_eq_ok, Bool.or_eq_false_iff]
  constructor
  · obtain hempty | hsame := h.instanceId
    · simp [hempty]
    · simp [hsame]
  · obtain hempty | hsame := h.safetyNumber
    · simp [hempty]
    · simp [hsame]

end Documents

/-! ### Files that are opened and saved -/

section Opening

variable {Key Rest : Type} {env : Service.Env Key Rest} {d : Documents Rest} {safety : String}
  {s : ServiceStateStore Key} {opening : Opening}

/-- The files were never written, or they hold the documents of this instance. -/
def Sound (env : Service.Env Key Rest) (safety : String) (files : Files) : Prop :=
  files = ⟨none, none, none, none⟩ ∨
    ∃ (s : ServiceStateStore Key) (d : Documents Rest),
      s.files = files ∧ s.Holds env d ∧ Ours env safety d

/-- The file of the service was opened, and its document was read. -/
def Read (env : Service.Env Key Rest) (safety : String) (files : Files)
    (legacy : ChatServiceStore Key) (state : Service.Legacy Rest) : Prop :=
  ∃ (s : ServiceStateStore Key) (d : Documents Rest), s.files = files ∧ s.Holds env d ∧
    Ours env safety d ∧ s.legacy = legacy ∧ d.legacy = state ∧ legacy.Ready

theorem Read.sound {files : Files} {legacy : ChatServiceStore Key} {state : Service.Legacy Rest}
    (h : Read env safety files legacy state) : Sound env safety files := by
  obtain ⟨s, d, hfiles, hholds, hours, -⟩ := h
  exact Or.inr ⟨s, d, hfiles, hholds, hours⟩

/-- The companions of a file that was opened open as well. -/
theorem opens_companions (hcipher : env.cipher.Lawful) (hformats : env.formats.Lawful)
    (h : s.Holds env d) (hours : Ours env safety d) (hready : s.legacy.Ready)
    (opening : Opening) :
    ∃ t : ServiceStateStore Key, ServiceStateStore.open env.cipher env.codec env.formats
        env.contactCodec env.keys s.files opening.salts s.legacy
          (env.prepare opening d.legacy) = .ok (t, openedState env opening d) ∧
      t.Holds env d ∧ t.Ready := by
  obtain ⟨hosted, hhosted, hhostedHolds⟩ :=
    h.retained.companion hcipher hformats.retained opening.salts.hosted
  obtain ⟨contacts, hcontacts, hcontactsHolds⟩ :=
    h.book.companion hcipher hformats.book opening.salts.contacts
  obtain ⟨preferences, hpreferences, hpreferencesHolds⟩ :=
    h.preferences.companion hcipher hformats.preferences opening.salts.preferences
  refine ⟨⟨s.legacy, hosted, contacts, preferences⟩, ?_, ?_, ?_⟩
  · unfold ServiceStateStore.open
    simp only [ServiceStateStore.files, hhosted, hcontacts, hpreferences, hours.book, bind,
      Except.bind]
    rfl
  · exact ⟨h.created, h.legacy, hhostedHolds, hcontactsHolds, hpreferencesHolds⟩
  · exact ⟨Service.companion_ready hhosted, Service.companion_ready hcontacts,
      Service.companion_ready hpreferences, hready⟩

/-- A save of what was opened leaves sound files wherever it fails. -/
theorem sound_of_save (h : s.Holds env d) (hours : Ours env safety d)
    (hsafety : opening.safetyNumber = safety) (io : Service.SaveIo) :
    Sound env safety
      (s.save env.cipher env.codec env.formats (openedState env opening d) io).1.files := by
  obtain ⟨kept, hmixes, hholds⟩ := h.save (openedState env opening d) io
  exact Or.inr ⟨_, kept, rfl, hholds, hours.mixes hsafety hmixes⟩

/-- It succeeds where the disk does. -/
theorem save_opened (hours : Ours env safety d) (hready : s.Ready)
    (hsafety : opening.safetyNumber = safety) {io : Service.SaveIo} (hio : io.Works) :
    ∃ t, s.save env.cipher env.codec env.formats (openedState env opening d) io = (t, .ok ()) := by
  have hfits := hours.fits opening hsafety
  exact Service.save_of_within hready
    ⟨fun _ => hfits.retained, fun _ => hfits.book, fun _ => hfits.preferences, hfits.legacy⟩ hio

/-- What a new profile has can be saved. -/
structure Fresh (env : Service.Env Key Rest) (safety : String) : Prop where
  legacy : env.formats.legacy.Fits (UiState.default env.newRest).toLegacy
  opened : ∀ opening : Opening, opening.safetyNumber = safety →
    Fits env.formats (openedState env opening (UiState.default env.newRest).documents).documents

theorem Fresh.ours (h : Fresh env safety) :
    Ours env safety (UiState.default env.newRest).documents where
  instanceId := Or.inl rfl
  safetyNumber := Or.inl rfl
  book := rfl
  activity := nofun
  fits := h.opened

/-- The file of the service with the state of a new profile, and no companions yet. -/
theorem holds_new {legacy : ChatServiceStore Key} {bytes : List UInt8} {nonce : Bytes 12}
    (hkeyed : Keyed Service.uiMagic env.keys.legacy legacy.store)
    (hbytes : env.formats.legacy.toVec (UiState.default env.newRest).toLegacy = .ok bytes)
    (hfile : legacy.file = some (legacy.store.output env.cipher env.codec nonce bytes))
    (salts : Service.Salts) :
    ∃ s : ServiceStateStore Key, s.files = ⟨legacy.file, none, none, none⟩ ∧ s.legacy = legacy ∧
      s.Holds env (UiState.default env.newRest).documents := by
  let derive := env.keys.derive legacy.store.key
  let closed := fun (magic : Bytes 6) (domain : String) (salt : Bytes 16) =>
    (⟨⟨magic, salt, derive domain salt, false⟩, none⟩ : ChatServiceStore Key)
  refine ⟨⟨legacy, closed Service.hostedMagic "gchat-hosted-archive-v1" salts.hosted,
    closed Service.contactMagic "gchat-contact-archive-v1" salts.contacts,
    closed Service.preferencesMagic "gchat-preferences-v1" salts.preferences⟩, rfl, rfl, ?_⟩
  refine ⟨?_, ⟨hkeyed, Or.inr ⟨bytes, nonce, hbytes, hfile⟩⟩, ?_, ?_, ?_⟩
  · rw [hfile]
    rfl
  · exact ⟨⟨rfl, rfl⟩, Or.inl ⟨rfl, rfl⟩⟩
  · exact ⟨⟨rfl, rfl⟩, Or.inl ⟨rfl, rfl⟩⟩
  · exact ⟨⟨rfl, rfl⟩, Or.inl ⟨rfl, rfl⟩⟩

/-- Saving the state of a new profile leaves no file, or one that holds it. -/
theorem save_new {store : EncryptedStore Key}
    (hkeyed : Keyed Service.uiMagic env.keys.legacy store) (io : Service.Io)
    (salts : Service.Salts) {legacy : ChatServiceStore Key} {result : Except String Unit}
    (hsave : ChatServiceStore.save env.cipher env.codec env.formats.legacy ⟨store, none⟩
      (UiState.default env.newRest).toLegacy io = (legacy, result)) :
    legacy = ⟨store, none⟩ ∨ ∃ s : ServiceStateStore Key,
      s.files = ⟨legacy.file, none, none, none⟩ ∧ s.legacy = legacy ∧
        s.Holds env (UiState.default env.newRest).documents := by
  obtain hold | ⟨bytes, initialized, hbytes, hnew⟩ := Service.save_outcome env.cipher env.codec
    env.formats.legacy ⟨store, none⟩ (UiState.default env.newRest).toLegacy io
  · rw [hsave] at hold
    exact Or.inl hold
  · rw [hsave] at hnew
    dsimp only at hnew
    subst hnew
    exact Or.inr (holds_new hkeyed hbytes rfl salts)

end Opening

end Unlock

end GChat
