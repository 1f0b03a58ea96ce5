import GChat.Files.Observed

/-!
# What happens to the state about files

A request leaves the state as it is, saves a new configuration or saves a commit. Together with
the looks of the worker these are the steps of a run.
-/

namespace GChat

namespace Files

open Foundation Dialect

/-! ### Commits -/

/-- The publication an original is given. -/
def publication (m : Setting) (canonical : ShareId) (metadata : Metadata) (sequence : ℕ) :
    FilePublication where
  name := metadata.name
  canonicalId := hex canonical.toList
  sha256 := hex metadata.sha256.toList
  publisherSafetyNumber := m.safetyNumber
  sequence := toString sequence
  committedUnix := toString m.now

/-- The state in which an original is published. -/
def published (m : Setting) (original canonical : ShareId) (metadata : Metadata)
    (state : FilesState) : FilesState :=
  { state with
    publicationSequence := state.publicationSequence + 1
    publications := state.publications.insert (hex original.toList)
      (publication m canonical metadata (state.publicationSequence + 1)) }

theorem publish_cases {m : Setting} {original canonical : ShareId} {file : FileInfo}
    {state : FilesState} {candidate : Candidate}
    (h : publish m original canonical file state = .ok candidate) :
    candidate = ⟨state, false⟩ ∨
      state.publications.contains (hex original.toList) = false ∧ ∃ metadata,
        state.publicationSequence + 1 < 2 ^ 64 ∧
          candidate = ⟨published m original canonical metadata state, true⟩ := by
  unfold publish at h
  split at h
  · injection h with h
    exact Or.inl h.symm
  next hnew =>
    split at h
    next metadata _ =>
      obtain ⟨_, -, h⟩ := bind_eq_ok.mp h
      obtain ⟨_, hbound, h⟩ := bind_eq_ok.mp h
      injection h with h
      rw [refuse_eq_ok, decide_eq_false_iff_not, not_le] at hbound
      exact Or.inr ⟨Bool.eq_false_iff.mpr hnew, metadata, hbound, h.symm⟩
    · injection h with h
      exact Or.inl h.symm

/-- A commit that changes the state: the file is listed, its original may be published, the file
is announced if it is new, and the publications of files that are gone are dropped. -/
theorem commitCandidate_changed {m : Setting} {original canonical : ShareId}
    {value : FileSnapshot} {state : FilesState} {candidate : Candidate}
    (h : commitCandidate m original canonical value state = .ok candidate)
    (hchanged : candidate.changed = true) :
    ∃ file first, value.files.find? (fun f => f.id == hex canonical.toList) = some file ∧
      publish m original canonical file state = .ok first ∧
      candidate.state = retainPublications value.files (announce m file first).state := by
  unfold commitCandidate at h
  split at h
  · injection h with h
    rw [← h] at hchanged
    cases hchanged
  next file hfile =>
    obtain ⟨first, hfirst, h⟩ := bind_eq_ok.mp h
    injection h with h
    refine ⟨file, first, hfile, hfirst, ?_⟩
    split at h
    next => rw [← h]
    next hsame =>
      rw [← h] at hchanged
      exact absurd hchanged hsame

/-! ### Runs -/

inductive Happened where
  | look (look : Look)
  | configured
  | committed (file : FileInfo) (listed : List FileInfo)

/-- The state after what happened, the latest first. -/
inductive Run (start : FilesState) : List Happened → FilesState → Prop
  | start : Run start [] start
  | look {past : List Happened} {state : FilesState} (look : Look) (h : Run start past state) :
      Run start (.look look :: past) (observe state look)
  | configured {past : List Happened} {state : FilesState} (config : CacheConfig)
      (h : Run start past state) : Run start (.configured :: past) { state with config := config }
  | committed {past : List Happened} {state : FilesState} {m : Setting}
      {original canonical : ShareId} {value : FileSnapshot} {file : FileInfo}
      {candidate : Candidate} (h : Run start past state)
      (hfile : value.files.find? (fun f => f.id == hex canonical.toList) = some file)
      (hcommit : commitCandidate m original canonical value state = .ok candidate)
      (hchanged : candidate.changed = true) :
      Run start (.committed file value.files :: past) candidate.state

/-- Some run that goes on from here has led to the state. -/
def Continues (start : FilesState) (past : List Happened) (d : Desk) : Prop :=
  ∃ new, Run start (new ++ past) d.state

section

variable {start : FilesState} {past : List Happened} {m : Setting}

end

end Files

end GChat
