import GChat.Files.Runs

/-!
# Every file is announced once

A file is announced when it is first taken up, and again only after a look at the caches did not
find it.
-/

namespace GChat

namespace Files

open Foundation Dialect

/-- The file was taken up, and every later look found it. -/
def Seen (start : FilesState) : List Happened → String → Prop
  | [], id => id ∈ start.sharedFiles
  | .look look :: past, id =>
      if look.saves then id ∈ look.appearing.map Appeared.id ∨ Seen start past id ∧ id ∈ look.retained
      else Seen start past id
  | .configured :: past, id => Seen start past id
  | .committed file _ :: past, id => id = file.id ∨ Seen start past id

/-- A look was saved. -/
def Looked (start : FilesState) : List Happened → Prop
  | [] => start.filesObserved = true
  | .look look :: past => look.saves = true ∨ Looked start past
  | .configured :: past => Looked start past
  | .committed _ _ :: past => Looked start past

theorem recordAll_sharedFiles (stamp : ℕ → String × ℕ) (files : List Appeared) :
    ∀ state : FilesState, (recordAll stamp files state).sharedFiles = state.sharedFiles ∧
      (recordAll stamp files state).filesObserved = state.filesObserved := by
  induction files with
  | nil =>
      intro state
      exact ⟨rfl, rfl⟩
  | cons file files ih =>
      intro state
      rw [recordAll_cons]
      have hnext := ih (state.recordActivity stamp file.conversation file.text)
      simp only [FilesState.recordActivity] at hnext ⊢
      exact hnext

/-- The activities depend on those before and on the number of identifiers that were drawn. -/
theorem recordAll_activity (stamp : ℕ → String × ℕ) (files : List Appeared) :
    ∀ {s t : FilesState}, s.activity = t.activity → s.drawn = t.drawn →
      (recordAll stamp files s).activity = (recordAll stamp files t).activity := by
  induction files with
  | nil =>
      intro s t hactivity _
      exact hactivity
  | cons file files ih =>
      intro s t hactivity hdrawn
      rw [recordAll_cons, recordAll_cons]
      apply ih
      · simp only [FilesState.recordActivity, hactivity, hdrawn]
      · simp only [FilesState.recordActivity, hdrawn]

theorem mem_sharedFiles_observe {state : FilesState} {look : Look} {id : String} :
    id ∈ (observe state look).sharedFiles ↔
      if look.saves then id ∈ look.appearing.map Appeared.id ∨
        id ∈ state.sharedFiles ∧ id ∈ look.retained
      else id ∈ state.sharedFiles := by
  cases hsaves : look.saves with
  | false =>
      rw [observe_failed hsaves]
      simp
  | true =>
      rcases observe_saved hsaves state with ⟨news, -, -, -, hobserve⟩
      rw [hobserve, (recordAll_sharedFiles _ _ _).1, mem_gather]
      simp

theorem filesObserved_observe {state : FilesState} {look : Look} :
    (observe state look).filesObserved = true ↔
      look.saves = true ∨ state.filesObserved = true := by
  cases hsaves : look.saves with
  | false =>
      rw [observe_failed hsaves]
      simp
  | true =>
      rcases observe_saved hsaves state with ⟨news, -, -, -, hobserve⟩
      rw [hobserve, (recordAll_sharedFiles _ _ _).2]
      simp

theorem publish_keeps {m : Setting} {original canonical : ShareId} {file : FileInfo}
    {state : FilesState} {candidate : Candidate}
    (h : publish m original canonical file state = .ok candidate) :
    candidate.state.sharedFiles = state.sharedFiles ∧
      candidate.state.filesObserved = state.filesObserved ∧
      candidate.state.activity = state.activity ∧ candidate.state.drawn = state.drawn := by
  rcases publish_cases h with rfl | ⟨-, metadata, -, rfl⟩
  · exact ⟨rfl, rfl, rfl, rfl⟩
  · exact ⟨rfl, rfl, rfl, rfl⟩

theorem announce_sharedFiles (m : Setting) (file : FileInfo) (candidate : Candidate) :
    (announce m file candidate).state.sharedFiles =
      insert file.id candidate.state.sharedFiles := by
  unfold announce
  split
  next hmem => rw [Finset.insert_eq_of_mem hmem]
  · rfl

theorem announce_filesObserved (m : Setting) (file : FileInfo) (candidate : Candidate) :
    (announce m file candidate).state.filesObserved = candidate.state.filesObserved := by
  unfold announce
  split
  · rfl
  · rfl

/-- A commit takes up the committed file and announces it if it is new. -/
theorem commit_sharedFiles {m : Setting} {original canonical : ShareId} {value : FileSnapshot}
    {file : FileInfo} {state : FilesState} {candidate : Candidate}
    (h : commitCandidate m original canonical value state = .ok candidate)
    (hfile : value.files.find? (fun f => f.id == hex canonical.toList) = some file) :
    candidate.state.sharedFiles = insert file.id state.sharedFiles ∧
      candidate.state.filesObserved = state.filesObserved ∧
      candidate.state.activity = if file.id ∈ state.sharedFiles then state.activity
        else (state.recordActivity m.stamp file.conversation
          (sharedText file.name file.sizeBytes)).activity := by
  unfold commitCandidate at h
  rw [hfile] at h
  obtain ⟨first, hfirst, h⟩ := bind_eq_ok.mp h
  injection h with h
  rcases publish_keeps hfirst with ⟨hshared, hobserved, hactivity, hdrawn⟩
  have hstate : candidate.state.sharedFiles = (announce m file first).state.sharedFiles ∧
      candidate.state.filesObserved = (announce m file first).state.filesObserved ∧
      candidate.state.activity = (announce m file first).state.activity := by
    split at h
    next => rw [← h]; exact ⟨rfl, rfl, rfl⟩
    next => rw [← h]; exact ⟨rfl, rfl, rfl⟩
  refine ⟨?_, ?_, ?_⟩
  · rw [hstate.1, announce_sharedFiles, hshared]
  · rw [hstate.2.1, announce_filesObserved, hobserved]
  · rw [hstate.2.2]
    unfold announce
    rw [hshared]
    split
    · exact hactivity
    · simp only [FilesState.recordActivity, hactivity, hdrawn]

theorem seen_iff {start state : FilesState} {past : List Happened} (h : Run start past state) :
    (∀ id, id ∈ state.sharedFiles ↔ Seen start past id) ∧
      (state.filesObserved = true ↔ Looked start past) := by
  induction h with
  | start => exact ⟨fun id => Iff.rfl, Iff.rfl⟩
  | look look h ih =>
      refine ⟨fun id => ?_, ?_⟩
      · rw [mem_sharedFiles_observe, ih.1 id]
        rfl
      · rw [filesObserved_observe, ih.2]
        rfl
  | configured config h ih => exact ih
  | committed h hfile hcommit hchanged ih =>
      have hkeep := commit_sharedFiles hcommit hfile
      refine ⟨fun id => ?_, ?_⟩
      · rw [hkeep.1, Finset.mem_insert, ih.1 id]
        rfl
      · rw [hkeep.2.1, ih.2]
        rfl

/-- In every run: the next look that is saved announces, in the order of the caches and each
once, the files that appear and have not been seen, provided that a look was saved before, and
nothing else; a look that is not saved changes nothing; and a commit announces the committed file
exactly if it has not been seen. -/
theorem files_announced {start state : FilesState} {past : List Happened}
    (h : Run start past state) :
    (∀ look : Look, look.saves = true → ∃ news : List Appeared, news.Sublist look.appearing ∧
      (news.map Appeared.id).Nodup ∧
      (∀ id, id ∈ news.map Appeared.id ↔ Looked start past ∧
        id ∈ look.appearing.map Appeared.id ∧ ¬ Seen start past id) ∧
      (observe state look).activity = (recordAll look.stamp news state).activity) ∧
    (∀ look : Look, look.saves = false → observe state look = state) ∧
    ∀ (m : Setting) (original canonical : ShareId) (value : FileSnapshot) (file : FileInfo)
      (candidate : Candidate),
      value.files.find? (fun f => f.id == hex canonical.toList) = some file →
      commitCandidate m original canonical value state = .ok candidate →
      (Seen start past file.id ∧ candidate.state.activity = state.activity) ∨
        ¬ Seen start past file.id ∧ candidate.state.activity = (state.recordActivity m.stamp
          file.conversation (sharedText file.name file.sizeBytes)).activity := by
  rcases seen_iff h with ⟨hseen, hlooked⟩
  refine ⟨fun look hsaves => ?_, fun look hsaves => observe_failed hsaves,
    fun m original canonical value file candidate hfile hcommit => ?_⟩
  · rcases observe_saved hsaves state with ⟨news, hsub, hnodup, hids, hobserve⟩
    refine ⟨news, hsub, hnodup, fun id => ?_, ?_⟩
    · rw [hids id, hlooked, hseen id]
    · rw [hobserve]
      exact recordAll_activity look.stamp news rfl rfl
  · have hactivity := (commit_sharedFiles hcommit hfile).2.2
    by_cases hmem : file.id ∈ state.sharedFiles
    · rw [if_pos hmem] at hactivity
      exact Or.inl ⟨(hseen _).mp hmem, hactivity⟩
    · rw [if_neg hmem] at hactivity
      exact Or.inr ⟨fun hs => hmem ((hseen _).mpr hs), hactivity⟩

/-- A state in which nothing was seen. -/
def sampleStart : FilesState := ⟨∅, false, ∅, 0, ⟨0, 0⟩, [], 0⟩

/-- One file of a hosted channel is there. -/
def sampleLook : Look where
  legacy := ⟨[], ⟨0, 0⟩, 0⟩
  modern := ⟨[⟨.fill 16 7, .hosted (.fill 32 9), "private.txt", 12, 0, .offered, 1, 0, 0, none⟩],
    ⟨0, 0⟩, 0⟩
  archive := .create ""
  stamp := fun n => (toString n, n)
  saves := true

/-- A second look announces nothing that the first one took up. -/
theorem sample_announced : ∃ news : List Appeared, news.Sublist sampleLook.appearing ∧
    (news.map Appeared.id).Nodup ∧
    (∀ id, id ∈ news.map Appeared.id ↔ Looked sampleStart [.look sampleLook] ∧
      id ∈ sampleLook.appearing.map Appeared.id ∧ ¬ Seen sampleStart [.look sampleLook] id) ∧
    (observe (observe sampleStart sampleLook) sampleLook).activity =
      (recordAll sampleLook.stamp news (observe sampleStart sampleLook)).activity :=
  (files_announced (Run.look sampleLook Run.start)).1 sampleLook rfl

end Files

end GChat
