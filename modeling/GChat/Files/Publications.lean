import GChat.Files.Announced

/-!
# Publications are numbered once

The files that were committed are numbered in the order of their commits. A number is never given
to a second file, and a publication stays as it is while its file is listed.
-/

namespace GChat

namespace Files

open Foundation Dialect

/-- Every publication has a number that was given out, and no two have the same one. -/
structure FilesState.Numbered (state : FilesState) : Prop where
  given : ∀ {original : String} {p : FilePublication}, state.publications[original]? = some p →
    ∃ n, 0 < n ∧ n ≤ state.publicationSequence ∧ p.sequence = toString n
  distinct : ∀ {original other : String} {p q : FilePublication},
    state.publications[original]? = some p → state.publications[other]? = some q →
      p.sequence = q.sequence → original = other

/-- What a later state keeps of the publications: those it has are the old ones or have numbers
above the old ones, and an old one stays while its file is listed. -/
structure Follows (later : List Happened) (old new : FilesState) : Prop where
  sequence : old.publicationSequence ≤ new.publicationSequence
  fresh : ∀ {original : String} {p : FilePublication}, new.publications[original]? = some p →
    old.publications[original]? = some p ∨
      ∃ n, old.publicationSequence < n ∧ n ≤ new.publicationSequence ∧ p.sequence = toString n
  stays : ∀ {original : String} {p : FilePublication}, old.publications[original]? = some p →
    (∀ file listed, .committed file listed ∈ later → ∃ f ∈ listed, f.id = p.canonicalId) →
      new.publications[original]? = some p

theorem toString_injective {m n : ℕ} (h : toString m = toString n) : m = n := by
  refine Archive.toDigits_injective ?_
  rw [Nat.toString_eq_ofList_toDigits, Nat.toString_eq_ofList_toDigits] at h
  exact String.ofList_injective h

/-! ### One step -/

theorem announce_publications (m : Setting) (file : FileInfo) (candidate : Candidate) :
    (announce m file candidate).state.publications = candidate.state.publications ∧
      (announce m file candidate).state.publicationSequence =
        candidate.state.publicationSequence := by
  unfold announce
  split
  · exact ⟨rfl, rfl⟩
  · exact ⟨rfl, rfl⟩

theorem get_retainPublications {files : List FileInfo} {state : FilesState} {original : String}
    {p : FilePublication} :
    (retainPublications files state).publications[original]? = some p ↔
      state.publications[original]? = some p ∧ ∃ f ∈ files, f.id = p.canonicalId := by
  simp only [retainPublications, StringMap.get_filter, Option.filter_eq_some_iff, List.any_eq_true,
    beq_iff_eq]

/-- What a commit does to the publications: those whose file is listed stay, and at most the
original gets the next number. -/
theorem commit_publications {m : Setting} {original canonical : ShareId} {value : FileSnapshot}
    {state : FilesState} {candidate : Candidate}
    (h : commitCandidate m original canonical value state = .ok candidate)
    (hchanged : candidate.changed = true) :
    ∃ first : FilesState, candidate.state.publicationSequence = first.publicationSequence ∧
      (∀ {key : String} {p : FilePublication}, candidate.state.publications[key]? = some p ↔
        first.publications[key]? = some p ∧ ∃ f ∈ value.files, f.id = p.canonicalId) ∧
      (first = state ∨ state.publications[hex original.toList]? = none ∧
        ∃ metadata, first = published m original canonical metadata state) := by
  rcases commitCandidate_changed h hchanged with ⟨file, first, -, hfirst, hstate⟩
  have hannounce := announce_publications m file first
  refine ⟨first.state, ?_, ?_, ?_⟩
  · rw [hstate]
    exact hannounce.2
  · intro key p
    rw [hstate, get_retainPublications, hannounce.1]
  · rcases publish_cases hfirst with rfl | ⟨hnew, metadata, -, rfl⟩
    · exact Or.inl rfl
    · refine Or.inr ⟨?_, metadata, rfl⟩
      rwa [StringMap.contains_eq_isSome, Option.isSome_eq_false_iff, Option.isNone_iff_eq_none]
        at hnew

theorem get_published {m : Setting} {original canonical : ShareId} {metadata : Metadata}
    {state : FilesState} {key : String} {p : FilePublication}
    (h : (published m original canonical metadata state).publications[key]? = some p) :
    key = hex original.toList ∧ p.sequence = toString (state.publicationSequence + 1) ∨
      state.publications[key]? = some p := by
  simp only [published, StringMap.get_insert] at h
  split at h
  next hkey =>
    injection h with h
    rw [← h]
    exact Or.inl ⟨hkey.symm, rfl⟩
  · exact Or.inr h

/-! ### Numbers -/

theorem FilesState.Numbered.transfer {state new : FilesState} (h : state.Numbered)
    (hsequence : state.publicationSequence ≤ new.publicationSequence)
    (hget : ∀ {key : String} {p : FilePublication}, new.publications[key]? = some p →
      state.publications[key]? = some p) : new.Numbered where
  given hp := by
    rcases h.given (hget hp) with ⟨n, hpos, hle, hn⟩
    exact ⟨n, hpos, hle.trans hsequence, hn⟩
  distinct hp hq heq := h.distinct (hget hp) (hget hq) heq

/-- The next number is above all that were given out. -/
theorem FilesState.Numbered.next {state : FilesState} (h : state.Numbered) {key : String}
    {p : FilePublication} (hp : state.publications[key]? = some p) :
    p.sequence ≠ toString (state.publicationSequence + 1) := by
  intro heq
  rcases h.given hp with ⟨n, -, hle, hn⟩
  have hsame := toString_injective (hn.symm.trans heq)
  omega

theorem FilesState.Numbered.published {m : Setting} {original canonical : ShareId}
    {metadata : Metadata} {state : FilesState} (h : state.Numbered) :
    (published m original canonical metadata state).Numbered where
  given hp := by
    rcases get_published hp with ⟨-, hp⟩ | hp
    · exact ⟨_, Nat.succ_pos _, le_rfl, hp⟩
    · rcases h.given hp with ⟨n, hpos, hle, hn⟩
      exact ⟨n, hpos, Nat.le_succ_of_le hle, hn⟩
  distinct hp hq heq := by
    rcases get_published hp with ⟨hkey, hp⟩ | hp
    · rcases get_published hq with ⟨hother, -⟩ | hq
      · rw [hkey, hother]
      · exact absurd (heq.symm.trans hp) (h.next hq)
    · rcases get_published hq with ⟨-, hq⟩ | hq
      · exact absurd (heq.trans hq) (h.next hp)
      · exact h.distinct hp hq heq

theorem Follows.refl (state : FilesState) : Follows [] state state where
  sequence := le_rfl
  fresh hp := Or.inl hp
  stays hp _ := hp

theorem Follows.trans {later last : List Happened} {old state new : FilesState}
    (h : Follows later old state) (hlast : Follows last state new) :
    Follows (last ++ later) old new where
  sequence := h.sequence.trans hlast.sequence
  fresh hp := by
    rcases hlast.fresh hp with hp | ⟨n, hlow, hhigh, hn⟩
    · rcases h.fresh hp with hp | ⟨n, hlow, hhigh, hn⟩
      · exact Or.inl hp
      · exact Or.inr ⟨n, hlow, hhigh.trans hlast.sequence, hn⟩
    · exact Or.inr ⟨n, h.sequence.trans_lt hlow, hhigh, hn⟩
  stays hp hlisted :=
    hlast.stays
      (h.stays hp fun file listed hmem => hlisted file listed (List.mem_append_right last hmem))
      fun file listed hmem => hlisted file listed (List.mem_append_left later hmem)

/-- A step that leaves the publications alone. -/
theorem Follows.same {event : Happened} {old new : FilesState}
    (hpublications : new.publications = old.publications)
    (hsequence : new.publicationSequence = old.publicationSequence) :
    Follows [event] old new where
  sequence := hsequence.ge
  fresh hp := Or.inl (hpublications ▸ hp)
  stays hp _ := hpublications ▸ hp

theorem Follows.commit {m : Setting} {original canonical : ShareId} {value : FileSnapshot}
    {file : FileInfo} {state : FilesState} {candidate : Candidate}
    (h : commitCandidate m original canonical value state = .ok candidate)
    (hchanged : candidate.changed = true) :
    Follows [.committed file value.files] state candidate.state := by
  rcases commit_publications h hchanged with ⟨first, hsequence, hget, rfl | ⟨hnew, metadata, rfl⟩⟩
  · constructor
    · exact hsequence.ge
    · intro key p hp
      exact Or.inl (hget.mp hp).1
    · intro key p hp hlisted
      exact hget.mpr ⟨hp, hlisted file value.files (List.mem_singleton_self _)⟩
  · constructor
    · rw [hsequence]
      exact Nat.le_succ _
    · intro key p hp
      rcases get_published (hget.mp hp).1 with ⟨-, hp⟩ | hp
      · exact Or.inr ⟨_, Nat.lt_succ_self _, hsequence.ge, hp⟩
      · exact Or.inl hp
    · intro key p hp hlisted
      refine hget.mpr ⟨?_, hlisted file value.files (List.mem_singleton_self _)⟩
      rw [published, StringMap.get_insert, if_neg, hp]
      intro hkey
      rw [hkey, hp] at hnew
      cases hnew

/-! ### Runs -/

end Files

end GChat
