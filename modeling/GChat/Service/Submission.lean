import GChat.Service.Saved

/-!
# Submissions and batches of the service

The submission of the service is that of the journal, and its projection of a batch that
of the hosted channels, each with the saves of the service. A submission can be refused
for the bound only because of the service's own document, which neither contacts nor
hosted channels enlarge. A refused one stays in memory, and then no save succeeds.
-/

namespace GChat

namespace Service

open Foundation Api Store

section

variable {Key Rest : Type} (env : Env Key Rest) {s : Unlocked Key Rest}

/-! ### The models of the parts -/

/-- What the journal is told of a save. -/
def written : Except String Unit → Written
  | .ok _ => .saved
  | .error message => .failed message

/-- Saving in place leaves the state as it is. -/
theorem persist_state {t : Unlocked Key Rest} {io : SaveIo} {result : Except String Unit}
    (h : env.persist s io = (t, result)) : t.state = s.state := by
  unfold Env.persist at h
  split at h
  cases h
  rfl

/-- The journal after a submission, and the answer, are those of the journal's own model under
the outcomes of the saves. -/
theorem submit_eq_beginSubmit (s : Unlocked Key Rest) (now : ℕ) (admitted : Bool)
    (request : Journal.Submit) (first second : SaveIo) (disk : Journal.Operations) :
    ∃ firstOutcome secondOutcome,
      (env.submit s now admitted request first second).1.state.operations =
        (env.host.beginSubmit now admitted s.state.preferences.aliases request firstOutcome
          secondOutcome ⟨s.state.operations, disk⟩).1.memory ∧
      (env.submit s now admitted request first second).2 =
        (env.host.beginSubmit now admitted s.state.preferences.aliases request firstOutcome
          secondOutcome ⟨s.state.operations, disk⟩).2.map fun _ => () := by
  unfold Env.submit Journal.Host.beginSubmit
  cases hdecide : env.host.decide now admitted request s.state.operations with
  | error message => exact ⟨.saved, .saved, rfl, rfl⟩
  | ok decision =>
      cases decision with
      | answer response => exact ⟨.saved, .saved, rfl, rfl⟩
      | full operations => exact ⟨.saved, .saved, rfl, rfl⟩
      | accept operations =>
          have hnamed : ∀ (t u : Unlocked Key Rest) (result : Except String Unit),
              t.state.preferences = s.state.preferences →
              env.persist (t.setOperations (Journal.describe request operations)) second =
                (u, result) →
              u.state.operations = Journal.describe request operations ∧
                u.state.preferences = s.state.preferences := by
            intro t u result ht hpersist
            rw [persist_state env hpersist, setOperations_operations, setOperations_preferences]
            exact ⟨rfl, ht⟩
          have hexpand : ∀ result : Except String String,
              (result.map fun _ => ()) = (result.map Journal.Begun.started).map fun _ => () := by
            intro result
            cases result with
            | error message => rfl
            | ok text => rfl
          cases admitted with
          | true =>
              simp only [Env.saveAdmission, Journal.saveAdmission, if_true]
              cases hsecond : env.persist
                ((s.setOperations operations).setOperations (Journal.describe request operations))
                second with
              | mk u result =>
                  obtain ⟨hoperations, hpreferences⟩ := hnamed _ _ _ rfl hsecond
                  cases result with
                  | error message => exact ⟨.saved, .failed message, hoperations, rfl⟩
                  | ok _ =>
                      refine ⟨.saved, .saved, hoperations, ?_⟩
                      simp only [hpreferences]
                      exact hexpand _
          | false =>
              simp only [Env.saveAdmission, Journal.saveAdmission, Bool.false_eq_true, if_false]
              cases hfirst : env.persist (s.setOperations operations) first with
              | mk t admission =>
                  have ht := persist_state env hfirst
                  cases admission with
                  | error message =>
                      exact ⟨.failed message, .saved, congrArg (·.operations) ht, rfl⟩
                  | ok _ =>
                      have hkept : t.state.preferences = s.state.preferences :=
                        congrArg (·.preferences) ht
                      dsimp only [Cell.write]
                      cases hsecond : env.persist
                        (t.setOperations (Journal.describe request operations)) second with
                      | mk u result =>
                          obtain ⟨hoperations, hpreferences⟩ := hnamed _ _ _ hkept hsecond
                          cases result with
                          | error message => exact ⟨.saved, .failed message, hoperations, rfl⟩
                          | ok _ =>
                              refine ⟨.saved, .saved, hoperations, ?_⟩
                              simp only [hpreferences]
                              exact hexpand _

/-- The hosted channels and the activity after a batch are those of the projection. -/
theorem archiveHosted_eq (channel : Hosted.Channel) (recovered : Bool)
    (events : List Hosted.Event) (io : SaveIo) :
    (env.archiveHosted s channel recovered events io).1.state.channels =
      (Hosted.archiveHosted env.completionType
        (fun candidate => (s.store.save env.cipher env.codec env.formats
          (s.state.withChannels candidate) io).2)
        s.state.channels channel recovered events).1 := by
  unfold Env.archiveHosted Hosted.archiveHosted
  cases happly : Hosted.apply env.completionType s.state.channels channel events with
  | error message => rfl
  | ok result =>
      obtain ⟨candidate, through⟩ := result
      dsimp only
      generalize (if recovered then candidate.recovered channel else candidate) = candidate
      by_cases hchanged : (candidate != s.state.channels) = true
      · rw [if_pos hchanged, if_pos hchanged]
        unfold Env.commit
        cases hsave : s.store.save env.cipher env.codec env.formats
            (s.state.withChannels candidate) io with
        | mk store result =>
            cases result with
            | error message => rfl
            | ok _ => rfl
      · rw [if_neg hchanged, if_neg hchanged]

/-! ### Submissions at the bound -/

theorem persist_within {io : SaveIo} (hready : s.store.Ready)
    (hwithin : Within env.formats s.store s.state) (hworks : io.Works) :
    ∃ t, env.persist s io = (t, .ok ()) ∧ t.Saved env ∧ t.state = s.state := by
  obtain ⟨store, hsave⟩ := save_of_within hready hwithin hworks
  have hpersist : env.persist s io = ({ s with store := store }, .ok ()) := by
    unfold Env.persist
    rw [hsave]
  exact ⟨_, hpersist, persist_saved hready hpersist, rfl⟩

/-- The journal is in the service's own document only. -/
theorem within_setOperations {store : ServiceStateStore Key} {operations : Journal.Operations}
    (h : Within env.formats store s.state)
    (hlegacy : env.formats.legacy.Fits (s.setOperations operations).state.legacy) :
    Within env.formats store (s.setOperations operations).state :=
  ⟨h.hosted, h.contacts, h.preferences, hlegacy⟩

/-- A submission that the journal admits is saved if its own two documents fit. What contacts
and hosted channels hold does not matter. -/
theorem submit_accepted {now : ℕ} {request : Journal.Submit} {operations : Journal.Operations}
    {first second : SaveIo} (hs : s.Saved env)
    (hdecide : env.host.decide now false request s.state.operations = .ok (.accept operations))
    (hfirst : env.formats.legacy.Fits (s.setOperations operations).state.legacy)
    (hsecond : env.formats.legacy.Fits
      (s.setOperations (Journal.describe request operations)).state.legacy)
    (hfirstWorks : first.Works) (hsecondWorks : second.Works) :
    ∃ t, t.Saved env ∧ env.submit s now false request first second =
      (t, (Journal.expand s.state.preferences.aliases request.text).map fun _ => ()) := by
  obtain ⟨t, hadmission, ht, htstate⟩ := persist_within env (s := s.setOperations operations)
    hs.ready (within_setOperations env hs.within hfirst) hfirstWorks
  have hlegacy : (t.setOperations (Journal.describe request operations)).state.legacy =
      (s.setOperations (Journal.describe request operations)).state.legacy := by
    simp only [Unlocked.setOperations, htstate]
  obtain ⟨u, hnamed, hu, hustate⟩ := persist_within env
    (s := t.setOperations (Journal.describe request operations)) ht.ready
    (within_setOperations env ht.within (hlegacy ▸ hsecond)) hsecondWorks
  refine ⟨u, hu, ?_⟩
  have hpreferences : u.state.preferences = s.state.preferences := by
    rw [hustate, setOperations_preferences, htstate, setOperations_preferences]
  unfold Env.submit Env.saveAdmission
  simp only [hdecide, Bool.false_eq_true, if_false, hadmission, hnamed, hpreferences]

/-- A submission that does not fit is refused, and its record stays in memory: until it
expires or the profile is opened again the state cannot be saved. -/
theorem submit_refused_stuck {now : ℕ} {request : Journal.Submit}
    {operations : Journal.Operations} {first second : SaveIo}
    (hdecide : env.host.decide now false request s.state.operations = .ok (.accept operations))
    (hbeyond : ¬ env.formats.legacy.Fits (s.setOperations operations).state.legacy) :
    ∃ t message, env.submit s now false request first second = (t, .error message) ∧
      t.state = (s.setOperations operations).state ∧
      ∀ io u, env.persist t io ≠ (u, .ok ()) := by
  have hrefused : ∀ (t u : Unlocked Key Rest) (io : SaveIo),
      t.state = (s.setOperations operations).state → env.persist t io ≠ (u, .ok ()) := by
    intro t u io ht hpersist
    unfold Env.persist at hpersist
    split at hpersist
    next store result hsave =>
      cases hpersist
      have hlegacy := (save_ok (saves_of_ok hsave).2.2.2).2.2
      exact hbeyond (ht ▸ hlegacy)
  cases hfirst : env.persist (s.setOperations operations) first with
  | mk t result =>
      have ht := persist_state env hfirst
      cases result with
      | ok _ => exact absurd hfirst (hrefused _ _ _ rfl)
      | error message =>
          refine ⟨t, message, ?_, ht, fun io u => hrefused t u io ht⟩
          unfold Env.submit Env.saveAdmission
          simp only [hdecide, Bool.false_eq_true, if_false, hfirst]

end

end Service

end GChat
