import GChat.Files.Model

/-!
# Files that appear

The worker of the service looks at both caches from time to time and records an activity for each
file that has appeared. What it has seen is kept for the files that are still there.
-/

namespace GChat

namespace Files

open Foundation Dialect Archive

/-- What the worker sees. -/
structure Look where
  legacy : Snapshot Scope
  modern : Snapshot ModernScope
  archive : ArchiveData
  stamp : ℕ → String × ℕ
  saves : Bool

def isShareable (status : FileState) : Bool :=
  match status with
  | .importing => false
  | .failed => false
  | .cancelled => false
  | _ => true

/-- An activity that is to be recorded, with the identifier of its file. -/
structure Appeared where
  id : String
  conversation : String
  text : String
deriving DecidableEq

/-- The identifiers of the files that are there. -/
def Look.retained (look : Look) : List String :=
  look.legacy.files.map (fun f => hex f.id.toList) ++
    look.modern.files.map fun f => hex f.id.toList

/-- The files that can be announced, with their conversations, in the order of the caches. -/
def Look.appearing (look : Look) : List Appeared :=
  (look.legacy.files.filterMap fun f =>
      if isShareable f.status then
        (conversation look.archive f.scope).map fun context =>
          ⟨hex f.id.toList, context, sharedText f.name (toString f.sizeBytes.toNat)⟩
      else none) ++
    look.modern.files.filterMap fun f =>
      if isShareable f.status then
        some ⟨hex f.id.toList, modernConversation f.scope,
          sharedText f.name (toString f.sizeBytes.toNat)⟩
      else none

/-- Take up a file. It is announced if it is new and files were observed before. -/
def takeUp (observed : Bool) (gathered : Finset String × List Appeared) (file : Appeared) :
    Finset String × List Appeared :=
  if file.id ∈ gathered.1 then gathered
  else (insert file.id gathered.1, if observed then gathered.2 ++ [file] else gathered.2)

/-- The files that were seen and the activities to be recorded. -/
def gather (state : FilesState) (look : Look) : Finset String × List Appeared :=
  look.appearing.foldl (takeUp state.filesObserved)
    (state.sharedFiles.filter (· ∈ look.retained), [])

def recordAll (stamp : ℕ → String × ℕ) (files : List Appeared) (state : FilesState) :
    FilesState :=
  files.foldl (fun state file => state.recordActivity stamp file.conversation file.text) state

def observedFilesCandidate (state : FilesState) (look : Look) : Option FilesState :=
  let gathered := gather state look
  if gathered.1 = state.sharedFiles ∧ state.filesObserved = true then none
  else
    some (recordAll look.stamp gathered.2
      { state with sharedFiles := gathered.1, filesObserved := true })

/-- One turn of the worker. -/
def observe (state : FilesState) (look : Look) : FilesState :=
  match observedFilesCandidate state look with
  | none => state
  | some candidate => if look.saves then candidate else state

/-! ### What a look takes up -/

theorem recordAll_cons (stamp : ℕ → String × ℕ) (file : Appeared) (files : List Appeared)
    (state : FilesState) :
    recordAll stamp (file :: files) state =
      recordAll stamp files (state.recordActivity stamp file.conversation file.text) := by
  rw [recordAll, List.foldl_cons, recordAll]

theorem takeUp_foldl (observed : Bool) (files : List Appeared) :
    ∀ (shared : Finset String) (gathered : List Appeared), ∃ news : List Appeared,
      files.foldl (takeUp observed) (shared, gathered) =
        (shared ∪ (files.map Appeared.id).toFinset,
          gathered ++ if observed then news else []) ∧
      news.Sublist files ∧ (news.map Appeared.id).Nodup ∧
      ∀ id, id ∈ news.map Appeared.id ↔ id ∈ files.map Appeared.id ∧ id ∉ shared := by
  induction files with
  | nil =>
      intro shared gathered
      refine ⟨[], ?_, List.Sublist.slnil, List.nodup_nil, fun id => ?_⟩
      · simp
      · simp
  | cons file files ih =>
      intro shared gathered
      by_cases hmem : file.id ∈ shared
      · rcases ih shared gathered with ⟨news, hfold, hsub, hnodup, hids⟩
        refine ⟨news, ?_, hsub.cons file, hnodup, fun id => ?_⟩
        · rw [List.foldl_cons, takeUp, if_pos hmem, hfold, List.map_cons, List.toFinset_cons,
            Finset.union_insert, Finset.insert_eq_of_mem (Finset.mem_union_left _ hmem)]
        · rw [hids id, List.map_cons, List.mem_cons]
          constructor
          · rintro ⟨hid, hshared⟩
            exact ⟨Or.inr hid, hshared⟩
          · rintro ⟨rfl | hid, hshared⟩
            · exact absurd hmem hshared
            · exact ⟨hid, hshared⟩
      · rcases ih (insert file.id shared) (if observed then gathered ++ [file] else gathered) with
          ⟨news, hfold, hsub, hnodup, hids⟩
        refine ⟨file :: news, ?_, hsub.cons_cons file, ?_, fun id => ?_⟩
        · rw [List.foldl_cons, takeUp, if_neg hmem, hfold, List.map_cons, List.toFinset_cons,
            Finset.union_insert, Finset.insert_union]
          cases observed with
          | false => rfl
          | true => simp
        · rw [List.map_cons, List.nodup_cons]
          refine ⟨fun hfile => ?_, hnodup⟩
          exact ((hids file.id).mp hfile).2 (Finset.mem_insert_self file.id shared)
        · rw [List.map_cons, List.mem_cons, hids id, List.map_cons, List.mem_cons,
            Finset.mem_insert]
          constructor
          · rintro (rfl | ⟨hid, hshared⟩)
            · exact ⟨Or.inl rfl, hmem⟩
            · exact ⟨Or.inr hid, fun h => hshared (Or.inr h)⟩
          · rintro ⟨rfl | hid, hshared⟩
            · exact Or.inl rfl
            · by_cases hfile : id = file.id
              · exact Or.inl hfile
              · refine Or.inr ⟨hid, ?_⟩
                rintro (h | h)
                · exact hfile h
                · exact hshared h

theorem appearing_retained {look : Look} {file : Appeared} (h : file ∈ look.appearing) :
    file.id ∈ look.retained := by
  unfold Look.retained
  rcases List.mem_append.mp h with h | h
  · rcases List.mem_filterMap.mp h with ⟨view, hview, h⟩
    split at h
    · rcases Option.map_eq_some_iff.mp h with ⟨context, -, rfl⟩
      exact List.mem_append_left _ (List.mem_map_of_mem hview)
    · cases h
  · rcases List.mem_filterMap.mp h with ⟨view, hview, h⟩
    split at h
    · injection h with h
      subst h
      exact List.mem_append_right _ (List.mem_map_of_mem hview)
    · cases h

/-- The files that a look takes up: those that were seen and are still there, and those that
appear. -/
theorem mem_gather {state : FilesState} {look : Look} {id : String} :
    id ∈ (gather state look).1 ↔
      id ∈ look.appearing.map Appeared.id ∨ id ∈ state.sharedFiles ∧ id ∈ look.retained := by
  rcases takeUp_foldl state.filesObserved look.appearing
    (state.sharedFiles.filter (· ∈ look.retained)) [] with ⟨news, hfold, -, -, -⟩
  rw [gather, hfold]
  simp only [Finset.mem_union, Finset.mem_filter, List.mem_toFinset]
  exact or_comm

/-- A look that is saved takes up what appears and announces, in its order, what had not been
seen, provided that an earlier look was saved. -/
theorem observe_saved {look : Look} (hsaves : look.saves = true) (state : FilesState) :
    ∃ news : List Appeared, news.Sublist look.appearing ∧ (news.map Appeared.id).Nodup ∧
      (∀ id, id ∈ news.map Appeared.id ↔ state.filesObserved = true ∧
        id ∈ look.appearing.map Appeared.id ∧ id ∉ state.sharedFiles) ∧
      observe state look = recordAll look.stamp news
        { state with sharedFiles := (gather state look).1, filesObserved := true } := by
  rcases takeUp_foldl state.filesObserved look.appearing
    (state.sharedFiles.filter (· ∈ look.retained)) [] with ⟨news, hfold, hsub, hnodup, hids⟩
  have hnews : (gather state look).2 = if state.filesObserved then news else [] := by
    rw [gather, hfold, List.nil_append]
  have hseen : ∀ id, id ∈ news.map Appeared.id ↔
      id ∈ look.appearing.map Appeared.id ∧ id ∉ state.sharedFiles := by
    intro id
    rw [hids id, Finset.mem_filter]
    constructor
    · rintro ⟨hid, hshared⟩
      rcases List.mem_map.mp hid with ⟨file, hfile, rfl⟩
      exact ⟨hid, fun h => hshared ⟨h, appearing_retained hfile⟩⟩
    · rintro ⟨hid, hshared⟩
      exact ⟨hid, fun h => hshared h.1⟩
  have hsame : (gather state look).1 = state.sharedFiles → news = [] := by
    intro heq
    rw [List.eq_nil_iff_forall_not_mem]
    intro file hfile
    have hmem := (hseen file.id).mp (List.mem_map_of_mem hfile)
    refine hmem.2 ?_
    rw [← heq]
    exact mem_gather.mpr (Or.inl hmem.1)
  cases hobserved : state.filesObserved with
  | false =>
      refine ⟨[], List.nil_sublist _, List.nodup_nil, fun id => by simp, ?_⟩
      rw [observe, observedFilesCandidate, hnews, hobserved]
      simp [hsaves]
  | true =>
      refine ⟨news, hsub, hnodup, fun id => by rw [hseen id]; simp, ?_⟩
      rw [observe, observedFilesCandidate]
      by_cases heq : (gather state look).1 = state.sharedFiles
      · rw [if_pos ⟨heq, hobserved⟩, hsame heq, heq, ← hobserved]
        rfl
      · rw [if_neg fun h => heq h.1, hnews, hobserved]
        dsimp only
        rw [if_pos hsaves, if_pos rfl]

theorem observe_failed {state : FilesState} {look : Look} (hsaves : look.saves = false) :
    observe state look = state := by
  rw [observe]
  split
  · rfl
  · rw [if_neg (by rw [hsaves]; decide)]

end Files

end GChat
