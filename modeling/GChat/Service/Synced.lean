import GChat.Service.Metadata

/-!
# Memory and disk in step

After a save that succeeded the files hold the documents of the state in memory. A save that
fails leaves them in step if it replaced no file whose document would change: the other
files hold the same documents again.
-/

namespace GChat

namespace Service

open Foundation Store

section One

variable {Key α : Type} {cipher : Cipher Key} {codec : Codec (List UInt8)} {format : Format α}
  {magic : Bytes 6} {key : Bytes 16 → Key} {s t : ChatServiceStore Key}
  {new document current candidate : α} {there there' : Bool} {io : Io}

/-- A save that replaced nothing, or wrote what is in memory, leaves the document. -/
theorem ChatServiceStore.Holds.spared (h : s.Holds cipher codec format magic key new document)
    (hagrees : (there || s.store.initialized) = true → document = current)
    (hthere : candidate = current → there' = there)
    (hspared : candidate = current ∨
      (s.saveIf cipher codec format there' candidate io).1 = s) :
    (s.saveIf cipher codec format there' candidate io).1.Holds cipher codec format magic key new
        document ∧
      ((there || (s.saveIf cipher codec format there' candidate io).1.store.initialized) = true →
        document = current) := by
  obtain rfl | hsame := hspared
  · rw [hthere rfl]
    cases hsaves : there || s.store.initialized with
    | false =>
        have hnot : s.saveIf cipher codec format there candidate io = (s, .ok ()) := by
          rw [ChatServiceStore.saveIf, hsaves]
          rfl
        rw [hnot]
        exact ⟨h, hagrees⟩
    | true =>
        have hdocument := hagrees hsaves
        obtain ⟨kept, hkept, hholds⟩ := h.saveIf there candidate io
        have heq : kept = document := by
          obtain hold | hnew := hkept
          · exact hold
          · rw [hnew, hdocument]
        rw [heq] at hholds
        exact ⟨hholds, fun _ => hdocument⟩
  · rw [hsame]
    exact ⟨h, hagrees⟩

/-- After a save that succeeded the file holds the candidate, where it is written. -/
theorem ChatServiceStore.Holds.saveIf_ok (h : s.Holds cipher codec format magic key new document)
    (hsave : s.saveIf cipher codec format there candidate io = (t, .ok ())) :
    ∃ kept, t.Holds cipher codec format magic key new kept ∧
      ((there || t.store.initialized) = true → kept = candidate) := by
  unfold ChatServiceStore.saveIf at hsave
  cases hsaves : there || s.store.initialized with
  | true =>
      rw [if_pos hsaves] at hsave
      exact ⟨candidate, h.save_ok hsave, fun _ => rfl⟩
  | false =>
      rw [if_neg (Bool.eq_false_iff.mp hsaves)] at hsave
      cases hsave
      refine ⟨document, h, fun hwritten => ?_⟩
      rw [hsaves] at hwritten
      cases hwritten

end One

section Four

variable {Key Rest : Type}

/-- The documents are those in memory, where their files are written. -/
structure Agrees (s : ServiceStateStore Key) (state : UiState Rest) (d : Documents Rest) :
    Prop where
  retained : (!state.hosted.isEmpty || s.hosted.store.initialized) = true →
    d.retained = state.retained
  book : (!Book.isEmpty state.contacts || s.contacts.store.initialized) = true →
    d.book = state.contacts
  preferences : (!state.preferences.isEmpty || s.preferences.store.initialized) = true →
    d.preferences = state.preferences
  legacy : d.legacy = state.legacy

/-- The files hold the documents, and the state in memory is that of the documents. -/
structure Unlocked.InSync (env : Env Key Rest) (s : Unlocked Key Rest) (d : Documents Rest) :
    Prop where
  holds : s.store.Holds env d
  agrees : Agrees s.store s.state d

/-- A save of the candidate replaces no file whose document differs from the one in memory. -/
structure Env.Spares (env : Env Key Rest) (s : Unlocked Key Rest) (candidate : UiState Rest)
    (io : SaveIo) : Prop where
  retained : candidate.retained = s.state.retained ∨
    (s.store.save env.cipher env.codec env.formats candidate io).1.hosted = s.store.hosted
  book : candidate.contacts = s.state.contacts ∨
    (s.store.save env.cipher env.codec env.formats candidate io).1.contacts = s.store.contacts
  preferences : candidate.preferences = s.state.preferences ∨
    (s.store.save env.cipher env.codec env.formats candidate io).1.preferences =
      s.store.preferences
  legacy : candidate.legacy = s.state.legacy ∨
    (s.store.save env.cipher env.codec env.formats candidate io).1.legacy = s.store.legacy

variable {env : Env Key Rest} {s : Unlocked Key Rest} {d : Documents Rest}
  {candidate : UiState Rest} {io : SaveIo}

theorem spares_self (env : Env Key Rest) (s : Unlocked Key Rest) (io : SaveIo) :
    env.Spares s s.state io :=
  ⟨Or.inl rfl, Or.inl rfl, Or.inl rfl, Or.inl rfl⟩

/-- Each file is as it was, or as its own save left it. -/
theorem save_parts (store : ServiceStateStore Key) (env : Env Key Rest) (state : UiState Rest)
    (io : SaveIo) :
    ((store.save env.cipher env.codec env.formats state io).1.hosted = store.hosted ∨
      (store.save env.cipher env.codec env.formats state io).1.hosted =
        (store.hosted.saveIf env.cipher env.codec env.formats.retained (!state.hosted.isEmpty)
          state.retained io.hosted).1) ∧
    ((store.save env.cipher env.codec env.formats state io).1.contacts = store.contacts ∨
      (store.save env.cipher env.codec env.formats state io).1.contacts =
        (store.contacts.saveIf env.cipher env.codec env.formats.book (!Book.isEmpty state.contacts)
          state.contacts io.contacts).1) ∧
    ((store.save env.cipher env.codec env.formats state io).1.preferences = store.preferences ∨
      (store.save env.cipher env.codec env.formats state io).1.preferences =
        (store.preferences.saveIf env.cipher env.codec env.formats.preferences
          (!state.preferences.isEmpty) state.preferences io.preferences).1) ∧
    ((store.save env.cipher env.codec env.formats state io).1.legacy = store.legacy ∨
      (store.save env.cipher env.codec env.formats state io).1.legacy =
        (store.legacy.save env.cipher env.codec env.formats.legacy state.legacy io.legacy).1) := by
  unfold ServiceStateStore.save
  split
  next hosted message hhosted =>
    rw [hhosted]
    exact ⟨Or.inr rfl, Or.inl rfl, Or.inl rfl, Or.inl rfl⟩
  next hosted _ hhosted =>
    rw [hhosted]
    split
    next contacts message hcontacts =>
      rw [hcontacts]
      exact ⟨Or.inr rfl, Or.inr rfl, Or.inl rfl, Or.inl rfl⟩
    next contacts _ hcontacts =>
      rw [hcontacts]
      split
      next preferences message hpreferences =>
        rw [hpreferences]
        exact ⟨Or.inr rfl, Or.inr rfl, Or.inr rfl, Or.inl rfl⟩
      next preferences _ hpreferences =>
        rw [hpreferences]
        split
        next legacy result hlegacy =>
          rw [hlegacy]
          exact ⟨Or.inr rfl, Or.inr rfl, Or.inr rfl, Or.inr rfl⟩

theorem save_legacy_key (store : ServiceStateStore Key) (env : Env Key Rest) (state : UiState Rest)
    (io : SaveIo) :
    (store.save env.cipher env.codec env.formats state io).1.legacy.store.key =
      store.legacy.store.key := by
  obtain ⟨-, -, -, hsame | hsaved⟩ := save_parts store env state io
  · rw [hsame]
  · rw [hsaved, save_key]

theorem save_created (store : ServiceStateStore Key) (env : Env Key Rest) (state : UiState Rest)
    (io : SaveIo) (h : store.legacy.file.isSome = true) :
    (store.save env.cipher env.codec env.formats state io).1.legacy.file.isSome = true := by
  obtain ⟨-, -, -, hsame | hsaved⟩ := save_parts store env state io
  · rw [hsame, h]
  · rw [hsaved]
    exact save_isSome h state.legacy io.legacy

/-- A save that spares the files leaves memory and disk in step. -/
theorem Unlocked.InSync.spared (h : s.InSync env d) (hspares : env.Spares s candidate io) :
    (⟨(s.store.save env.cipher env.codec env.formats candidate io).1, s.state⟩ :
      Unlocked Key Rest).InSync env d := by
  obtain ⟨hhosted, hcontacts, hpreferences, hlegacy⟩ := save_parts s.store env candidate io
  have hkey := save_legacy_key s.store env candidate io
  have hcreated := save_created s.store env candidate io h.holds.created
  have hretained := hspares.retained
  have hbook := hspares.book
  have hprefs := hspares.preferences
  have hservice := hspares.legacy
  generalize (s.store.save env.cipher env.codec env.formats candidate io).1 = t at *
  have hone : t.hosted.Holds env.cipher env.codec env.formats.retained hostedMagic
        (env.keys.derive s.store.legacy.store.key "gchat-hosted-archive-v1") ⟨∅, []⟩ d.retained ∧
      ((!s.state.hosted.isEmpty || t.hosted.store.initialized) = true →
        d.retained = s.state.retained) := by
    obtain heq | heq := hhosted
    · rw [heq]
      exact ⟨h.holds.retained, h.agrees.retained⟩
    · rw [heq] at hretained ⊢
      refine h.holds.retained.spared h.agrees.retained (fun hsame => ?_) hretained
      rw [show candidate.hosted = s.state.hosted from congrArg Retained.channels hsame]
  have htwo : t.contacts.Holds env.cipher env.codec env.formats.book contactMagic
        (env.keys.derive s.store.legacy.store.key "gchat-contact-archive-v1")
        Contacts.Book.default d.book ∧
      ((!Book.isEmpty s.state.contacts || t.contacts.store.initialized) = true →
        d.book = s.state.contacts) := by
    obtain heq | heq := hcontacts
    · rw [heq]
      exact ⟨h.holds.book, h.agrees.book⟩
    · rw [heq] at hbook ⊢
      refine h.holds.book.spared h.agrees.book (fun hsame => ?_) hbook
      rw [hsame]
  have hthree : t.preferences.Holds env.cipher env.codec env.formats.preferences preferencesMagic
        (env.keys.derive s.store.legacy.store.key "gchat-preferences-v1") Preferences.default
        d.preferences ∧
      ((!s.state.preferences.isEmpty || t.preferences.store.initialized) = true →
        d.preferences = s.state.preferences) := by
    obtain heq | heq := hpreferences
    · rw [heq]
      exact ⟨h.holds.preferences, h.agrees.preferences⟩
    · rw [heq] at hprefs ⊢
      refine h.holds.preferences.spared h.agrees.preferences (fun hsame => ?_) hprefs
      rw [hsame]
  have hfour : t.legacy.Holds env.cipher env.codec env.formats.legacy uiMagic env.keys.legacy
      (UiState.default env.newRest).toLegacy d.legacy := by
    obtain heq | heq := hlegacy
    · rw [heq]
      exact h.holds.legacy
    · rw [heq] at hservice ⊢
      have hagrees : (true || s.store.legacy.store.initialized) = true →
          d.legacy = s.state.legacy := fun _ => h.agrees.legacy
      have hthere : candidate.legacy = s.state.legacy → true = true := fun _ => rfl
      exact (h.holds.legacy.spared hagrees hthere hservice).1
  rw [← hkey] at hone htwo hthree
  exact ⟨⟨hcreated, hfour, hone.1, htwo.1, hthree.1⟩,
    ⟨hone.2, htwo.2, hthree.2, h.agrees.legacy⟩⟩

/-- After a save that succeeded memory and disk are in step. -/
theorem inSync_of_save {store : ServiceStateStore Key} {state : UiState Rest}
    (h : store.Holds env d) {t : ServiceStateStore Key}
    (hsave : store.save env.cipher env.codec env.formats state io = (t, .ok ())) :
    ∃ kept, (⟨t, state⟩ : Unlocked Key Rest).InSync env kept := by
  obtain ⟨hhosted, hcontacts, hpreferences, hlegacy⟩ := saves_of_ok hsave
  obtain ⟨retained, hretained, hone⟩ := h.retained.saveIf_ok hhosted
  obtain ⟨book, hbook, htwo⟩ := h.book.saveIf_ok hcontacts
  obtain ⟨prefs, hprefs, hthree⟩ := h.preferences.saveIf_ok hpreferences
  have hkey := save_legacy_key store env state io
  have hcreated := save_created store env state io h.created
  rw [hsave] at hkey hcreated
  rw [← hkey] at hretained hbook hprefs
  exact ⟨⟨retained, book, prefs, state.legacy⟩,
    ⟨⟨hcreated, h.legacy.save_ok hlegacy, hretained, hbook, hprefs⟩, ⟨hone, htwo, hthree, rfl⟩⟩⟩

theorem commit_of_error {store : ServiceStateStore Key} {message : String}
    (hsave : s.store.save env.cipher env.codec env.formats candidate io =
      (store, .error message)) :
    env.commit s candidate io = ({ s with store := store }, .error message) := by
  unfold Env.commit
  rw [hsave]

theorem commit_of_ok {store : ServiceStateStore Key}
    (hsave : s.store.save env.cipher env.codec env.formats candidate io = (store, .ok ())) :
    env.commit s candidate io = (⟨store, candidate⟩, .ok ()) := by
  unfold Env.commit
  rw [hsave]

/-- Saving the candidate succeeds, or it replaces no file whose document differs. -/
def Env.Clean (env : Env Key Rest) (s : Unlocked Key Rest) (candidate : UiState Rest)
    (io : SaveIo) : Prop :=
  (s.store.save env.cipher env.codec env.formats candidate io).2 = .ok () ∨
    env.Spares s candidate io

/-- The candidate is published and saved, or it is dropped and the files hold the documents
that they held. -/
theorem commit_inSync (h : s.InSync env d) (hclean : env.Clean s candidate io) :
    (∃ store kept, env.commit s candidate io = (⟨store, candidate⟩, .ok ()) ∧
      (⟨store, candidate⟩ : Unlocked Key Rest).InSync env kept) ∨
    ∃ store message, env.commit s candidate io = (⟨store, s.state⟩, .error message) ∧
      (⟨store, s.state⟩ : Unlocked Key Rest).InSync env d := by
  cases hsave : s.store.save env.cipher env.codec env.formats candidate io with
  | mk store result =>
      cases result with
      | ok u =>
          obtain ⟨kept, hkept⟩ := inSync_of_save h.holds hsave
          exact Or.inl ⟨store, kept, commit_of_ok hsave, hkept⟩
      | error message =>
          right
          refine ⟨store, message, commit_of_error hsave, ?_⟩
          obtain hsaved | hspares := hclean
          · rw [hsave] at hsaved
            cases hsaved
          · have hspared := h.spared hspares
            rwa [hsave] at hspared

end Four

end Service

end GChat
