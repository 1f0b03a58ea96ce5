import GChat.FileView.Model

/-!
# A list never goes back behind a mutation

A list that was asked for before the reply of a mutation was applied is not shown any more, in
whatever order the replies come.
-/

namespace GChat

namespace FileView

open Foundation Dialect

/-- The reply of a mutation merged into the list. -/
def merged (old reply : FileSnapshot) : FileSnapshot :=
  { reply with
    files := (old.files.filter fun f => !reply.files.any fun g => g.id == f.id) ++ reply.files }

/-- What a changed table holds is the new entry or an old one. -/
theorem of_update {α : Type} {f : ℕ → Option α} {i j : ℕ} {new : Option α} {x : α}
    (h : Function.update f i new j = some x) : j = i ∧ new = some x ∨ f j = some x := by
  by_cases hj : j = i
  · subst hj
    rw [Function.update_self] at h
    exact Or.inl ⟨rfl, h⟩
  · rw [Function.update_of_ne hj] at h
    exact Or.inr h

/-- Requests in progress carry the revision at which they were sent. -/
structure Dated (s : Controller) : Prop where
  listing : ∀ {k l}, s.listings k = some l → k < s.listed ∧ l.revision ≤ s.mutationRevision
  call : ∀ {i c}, s.calls i = some c → i < s.called ∧ c.revision ≤ s.mutationRevision

/-- At most one new list has been asked for, and nothing else has happened to the lists. -/
structure Quiet (s t : Controller) : Prop where
  mutations : t.mutationRevision = s.mutationRevision
  snapshot : t.value.snapshot = s.value.snapshot
  calls : t.calls = s.calls
  called : t.called = s.called
  listings : t.listings = s.listings ∧ t.listed = s.listed ∨
    t.listings = Function.update s.listings s.listed (some ⟨s.mutationRevision, none⟩) ∧
      t.listed = s.listed + 1

/-- Nothing has happened to the lists at all. -/
structure Still (s t : Controller) : Prop where
  mutations : t.mutationRevision = s.mutationRevision
  snapshot : t.value.snapshot = s.value.snapshot
  calls : t.calls = s.calls
  called : t.called = s.called
  listings : t.listings = s.listings
  listed : t.listed = s.listed

theorem Still.refl (s : Controller) : Still s s := ⟨rfl, rfl, rfl, rfl, rfl, rfl⟩

theorem Still.quiet {s t : Controller} (h : Still s t) : Quiet s t :=
  ⟨h.mutations, h.snapshot, h.calls, h.called, Or.inl ⟨h.listings, h.listed⟩⟩

theorem Still.trans {s t u : Controller} (h : Still s t) (h' : Quiet t u) : Quiet s u where
  mutations := h'.mutations.trans h.mutations
  snapshot := h'.snapshot.trans h.snapshot
  calls := h'.calls.trans h.calls
  called := h'.called.trans h.called
  listings := by
    rw [← h.listings, ← h.listed, ← h.mutations]
    exact h'.listings

theorem Quiet.trans {s t u : Controller} (h : Quiet s t) (h' : Still t u) : Quiet s u where
  mutations := h'.mutations.trans h.mutations
  snapshot := h'.snapshot.trans h.snapshot
  calls := h'.calls.trans h.calls
  called := h'.called.trans h.called
  listings := by
    rw [h'.listings, h'.listed]
    exact h.listings

section

variable (s : Controller) (n : ℕ) (task : Task)

theorem still_setStage (stage : Stage) : Still s (setStage s n task stage) :=
  ⟨rfl, rfl, rfl, rfl, rfl, rfl⟩

theorem still_settleTransfer (id error : String) : Still s (settleTransfer s n id error) := by
  unfold settleTransfer
  split
  · split
    · exact Still.refl s
    · exact ⟨rfl, rfl, rfl, rfl, rfl, rfl⟩
  · exact Still.refl s

theorem still_finish : Still s (finish s n task) := by
  unfold finish
  split
  · exact ⟨rfl, rfl, rfl, rfl, rfl, rfl⟩
  · exact still_setStage s n task .done

theorem quiet_callRefresh : Quiet s (callRefresh s).1 := by
  unfold callRefresh
  split
  · split
    · exact (Still.refl s).quiet
    · exact ⟨rfl, rfl, rfl, rfl, Or.inr ⟨rfl, rfl⟩⟩
  · exact (Still.refl s).quiet

theorem quiet_complete : Quiet s (complete s n task) := by
  unfold complete
  split
  · have hsettle := still_settleTransfer s n task.id ""
    have hcall := hsettle.trans (quiet_callRefresh (settleTransfer s n task.id ""))
    split
    next t refreshing heq =>
      rw [heq] at hcall
      exact hcall.trans (still_setStage t n task _)
    next t outcome heq =>
      rw [heq] at hcall
      exact hcall.trans (still_finish t n task)
  · exact (still_finish s n task).quiet

end

/-! ### What a step does to the lists -/

/-- What is in progress stays in progress or ends, and the revision counts the mutations that
were applied. -/
structure Passed (s t : Controller) : Prop where
  mutations : t.mutationRevision = s.mutationRevision ∨
    t.mutationRevision = s.mutationRevision + 1 ∧ ∃ old reply,
      s.value.snapshot = some old ∧ t.value.snapshot = some (merged old reply)
  listing : ∀ {k l}, s.listings k = some l →
    ∃ l', t.listings k = some l' ∧ l'.revision = l.revision
  listed : ∀ {k l}, t.listings k = some l → k < t.listed ∧ l.revision ≤ t.mutationRevision
  call : ∀ {i c}, t.calls i = some c → i < s.called → s.calls i = some c
  called : s.called ≤ t.called
  dated : ∀ {i c}, t.calls i = some c → i < t.called ∧ c.revision ≤ t.mutationRevision

theorem Quiet.passed {s t : Controller} (h : Quiet s t) (hdated : Dated s) : Passed s t where
  mutations := Or.inl h.mutations
  listing := by
    intro k l hl
    have hlt := (hdated.listing hl).1
    rcases h.listings with ⟨hsame, -⟩ | ⟨hnew, -⟩
    · exact ⟨l, hsame ▸ hl, rfl⟩
    · refine ⟨l, ?_, rfl⟩
      rw [hnew, Function.update_of_ne (Nat.ne_of_lt hlt)]
      exact hl
  listed := by
    intro k l hl
    rw [h.mutations]
    rcases h.listings with ⟨hsame, hlisted⟩ | ⟨hnew, hlisted⟩
    · rw [hsame] at hl
      rw [hlisted]
      exact hdated.listing hl
    · rw [hnew] at hl
      rw [hlisted]
      rcases of_update hl with ⟨rfl, hnew⟩ | hold
      · cases hnew
        exact ⟨Nat.lt_succ_self _, Nat.le_refl _⟩
      · exact ⟨Nat.lt_succ_of_lt (hdated.listing hold).1, (hdated.listing hold).2⟩
  call hc _ := h.calls ▸ hc
  called := h.called.ge
  dated hc := by
    rw [h.calls] at hc
    rw [h.mutations, h.called]
    exact hdated.call hc

theorem Passed.quiet {s t u : Controller} (h : Passed s t) (h' : Quiet t u) : Passed s u := by
  have hdated : Dated t := ⟨h.listed, h.dated⟩
  have hpassed := h'.passed hdated
  constructor
  · rw [h'.mutations, h'.snapshot]
    exact h.mutations
  · intro k l hl
    rcases h.listing hl with ⟨l', hl', hrevision⟩
    rcases hpassed.listing hl' with ⟨l'', hl'', hrevision'⟩
    exact ⟨l'', hl'', hrevision'.trans hrevision⟩
  · exact hpassed.listed
  · intro i c hc hi
    exact h.call (hpassed.call hc (Nat.lt_of_lt_of_le hi h.called)) hi
  · exact h.called.trans hpassed.called
  · exact hpassed.dated

end FileView

end GChat
