import GChat.Mobile.Admission

/-!
# A suspended profile is quiet

The events that are not done yet are numbered without a gap up to the last one, and no more of
them are queued than there are revisions. So a worker that finds its own revision at the gate
works for the last event, and while the gate is open nothing is left to do.
-/

namespace GChat

namespace Mobile

open Foundation

/-! ### The events that are not done yet -/

def Attachment.pending (s : Attachment) : List Job :=
  (s.worker.map (·.1)).toList ++ (s.queue ++ s.entering.toList)

structure Attachment.Numbered (s : Attachment) : Prop where
  gate : s.admission.revision = s.published % revisions
  jobs : ∀ (i : ℕ) (job : Job), s.pending[i]? = some job →
    job.index + s.pending.length = s.published + i + 1 ∧ job.revision = job.index % revisions
  bound : s.queue.length + s.entering.toList.length ≤ queueLimit

theorem queueLimit_lt : queueLimit + 1 < revisions := by decide

/-- A worker whose revision is at the gate works for the last event. -/
theorem Attachment.Numbered.last {s : Attachment} (h : s.Numbered) {job : Job} {phase : Phase}
    (hworker : s.worker = some (job, phase)) (hrevision : s.admission.revision = job.revision) :
    job.index = s.published ∧ s.pending = [job] := by
  have hpending : s.pending = job :: (s.queue ++ s.entering.toList) := by
    rw [Attachment.pending, hworker]
    rfl
  obtain ⟨hindex, hjob⟩ := h.jobs 0 job (by rw [hpending]; rfl)
  have hlength : s.pending.length = s.queue.length + s.entering.toList.length + 1 := by
    rw [hpending, List.length_cons, List.length_append]
  have hbound := h.bound
  have hlimit := queueLimit_lt
  rw [h.gate, hjob] at hrevision
  have hempty : s.queue.length + s.entering.toList.length = 0 := by
    have hsum : s.published = job.index + (s.queue.length + s.entering.toList.length) := by omega
    rw [hsum] at hrevision
    generalize s.queue.length + s.entering.toList.length = n at hrevision hbound
    have hn : n % revisions = 0 := by
      have hmod := Nat.sub_mod_eq_zero_of_mod_eq hrevision
      rwa [Nat.add_sub_cancel_left] at hmod
    rwa [Nat.mod_eq_of_lt (by omega)] at hn
  constructor
  · omega
  · have hnil : s.queue ++ s.entering.toList = [] := by
      rw [← List.length_eq_zero_iff, List.length_append, hempty]
    rw [hpending, hnil]

/-! ### What a step of the worker does -/

/-- A step of the worker leaves the events and the operations alone. -/
structure Attachment.Works (s t : Attachment) (job : Job) : Prop where
  queue : t.queue = s.queue
  entering : t.entering = s.entering
  published : t.published = s.published
  operations : t.operations = s.operations
  worker : t.worker = none ∨ ∃ phase, t.worker = some (job, phase)
  revision : t.admission.revision = s.admission.revision

theorem advance_works {s t : Attachment} {job : Job} {answer : Bool} {phase : Phase}
    (h : s.advance job answer phase = some t) : s.Works t job := by
  cases phase with
  | waiting =>
      rw [Attachment.advance] at h
      split at h
      · cases h
      · cases h
        exact ⟨rfl, rfl, rfl, rfl, Or.inr ⟨_, rfl⟩, rfl⟩
  | shutting =>
      cases h
      exact ⟨rfl, rfl, rfl, rfl, Or.inr ⟨_, rfl⟩, rfl⟩
  | draining =>
      rw [Attachment.advance] at h
      split at h
      · cases h
      · cases h
        exact ⟨rfl, rfl, rfl, rfl, Or.inr ⟨_, rfl⟩, rfl⟩
  | refreshing =>
      cases h
      exact ⟨rfl, rfl, rfl, rfl, Or.inr ⟨_, rfl⟩, rfl⟩
  | flushing =>
      cases h
      exact ⟨rfl, rfl, rfl, rfl, Or.inl rfl, rfl⟩
  | checking =>
      rw [Attachment.advance] at h
      split at h
      · cases h
        exact ⟨rfl, rfl, rfl, rfl, Or.inr ⟨_, rfl⟩, rfl⟩
      · cases h
        exact ⟨rfl, rfl, rfl, rfl, Or.inl rfl, rfl⟩
  | replacing =>
      rw [Attachment.advance] at h
      split at h
      · cases h
        exact ⟨rfl, rfl, rfl, rfl, Or.inr ⟨_, rfl⟩, rfl⟩
      · cases h
        exact ⟨rfl, rfl, rfl, rfl, Or.inl rfl, rfl⟩
  | resolving =>
      rw [Attachment.advance] at h
      split at h
      · cases h
        exact ⟨rfl, rfl, rfl, rfl, Or.inr ⟨_, rfl⟩, rfl⟩
      · cases h
        exact ⟨rfl, rfl, rfl, rfl, Or.inr ⟨_, rfl⟩, rfl⟩
  | unlocking =>
      cases h
      exact ⟨rfl, rfl, rfl, rfl, Or.inr ⟨_, rfl⟩, rfl⟩
  | resuming =>
      simp only [Attachment.advance, Admission.resume] at h
      split at h
      next heq =>
        cases h
        split at heq
        · cases heq
          exact ⟨rfl, rfl, rfl, rfl, Or.inl rfl, rfl⟩
        · cases heq
      next heq =>
        cases h
        exact ⟨rfl, rfl, rfl, rfl, Or.inr ⟨_, rfl⟩, rfl⟩
  | closing =>
      cases h
      exact ⟨rfl, rfl, rfl, rfl, Or.inr ⟨_, rfl⟩, rfl⟩
  | reflushing =>
      cases h
      exact ⟨rfl, rfl, rfl, rfl, Or.inl rfl, rfl⟩

theorem Attachment.Numbered.works {s t : Attachment} {job : Job} {phase : Phase}
    (h : s.Numbered) (hworker : s.worker = some (job, phase)) (hworks : s.Works t job) :
    t.Numbered := by
  have hs : s.pending = job :: (s.queue ++ s.entering.toList) := by
    rw [Attachment.pending, hworker]
    rfl
  have hrest : s.queue ++ s.entering.toList = t.queue ++ t.entering.toList := by
    rw [hworks.queue, hworks.entering]
  refine ⟨?_, ?_, ?_⟩
  · rw [hworks.revision, hworks.published, h.gate]
  · obtain hnone | ⟨phase', hsome⟩ := hworks.worker
    · have ht : t.pending = t.queue ++ t.entering.toList := by
        rw [Attachment.pending, hnone]
        rfl
      intro i other hi
      rw [ht, ← hrest] at hi
      obtain ⟨hindex, hrevision⟩ := h.jobs (i + 1) other (by rw [hs]; exact hi)
      rw [ht, ← hrest, hworks.published]
      rw [hs, List.length_cons] at hindex
      exact ⟨by omega, hrevision⟩
    · have ht : t.pending = s.pending := by
        rw [Attachment.pending, hsome, hs, hrest]
        rfl
      rw [ht, hworks.published]
      exact h.jobs
  · rw [hworks.queue, hworks.entering]
    exact h.bound

theorem created_numbered : Attachment.created.Numbered := by
  refine ⟨?_, ?_, ?_⟩
  · decide
  · exact fun _ _ h => nomatch h
  · exact Nat.zero_le _

theorem Attachment.Numbered.native {s t : Attachment} {event : LifecycleEvent}
    (h : s.Numbered) (ht : s.nativeEvent event = some t) : t.Numbered := by
  rw [Attachment.nativeEvent] at ht
  split at ht
  · cases ht
  next hfree =>
    simp only [Bool.or_eq_true, decide_eq_true_eq, not_or, Bool.not_eq_true,
      Option.isSome_eq_false_iff, Option.isNone_iff_eq_none, Nat.not_le] at hfree
    obtain ⟨hentering, hlength⟩ := hfree
    cases ht
    have hrevision : (s.admission.revision + 1) % revisions = (s.published + 1) % revisions := by
      rw [h.gate, Nat.mod_add_mod]
    have hs : s.pending = (s.worker.map (·.1)).toList ++ s.queue := by
      rw [Attachment.pending, hentering, Option.toList_none, List.append_nil]
    refine ⟨hrevision, ?_, ?_⟩
    · intro i job hi
      simp only [Attachment.pending, Option.toList_some, ← List.append_assoc] at hi ⊢
      rw [← hs] at hi ⊢
      rw [List.length_append, List.length_singleton]
      obtain hlt | hge := Nat.lt_or_ge i s.pending.length
      · rw [List.getElem?_append_left hlt] at hi
        obtain ⟨hindex, hjob⟩ := h.jobs i job hi
        exact ⟨by omega, hjob⟩
      · rw [List.getElem?_append_right hge] at hi
        cases hk : i - s.pending.length with
        | zero =>
            rw [hk] at hi
            cases hi
            exact ⟨by dsimp only; omega, hrevision⟩
        | succ k =>
            rw [hk] at hi
            cases hi
    · rw [Option.toList_some, List.length_singleton]
      exact hlength

theorem Attachment.Numbered.congr {s t : Attachment} (h : s.Numbered)
    (hpending : t.pending = s.pending) (hrevision : t.admission.revision = s.admission.revision)
    (hpublished : t.published = s.published)
    (hbound : t.queue.length + t.entering.toList.length ≤ queueLimit) : t.Numbered := by
  refine ⟨by rw [hrevision, hpublished, h.gate], ?_, hbound⟩
  rw [hpending, hpublished]
  exact h.jobs

theorem Attachment.Numbered.step {s t : Attachment} {x : Step} (h : s.Numbered)
    (ht : s.step x = some t) : t.Numbered := by
  cases x with
  | native event => exact h.native ht
  | enqueue =>
      simp only [Attachment.step] at ht
      cases hentering : s.entering with
      | none =>
          rw [hentering] at ht
          cases ht
      | some job =>
          rw [hentering] at ht
          cases ht
          have hbound := h.bound
          rw [hentering] at hbound
          refine h.congr ?_ rfl rfl ?_
          · simp [Attachment.pending, hentering]
          · simpa using hbound
  | receive =>
      simp only [Attachment.step] at ht
      cases hworker : s.worker with
      | some w =>
          rw [hworker] at ht
          cases ht
      | none =>
          cases hqueue : s.queue with
          | nil =>
              rw [hworker, hqueue] at ht
              cases ht
          | cons job queue =>
              rw [hworker, hqueue] at ht
              cases ht
              have hbound := h.bound
              rw [hqueue, List.length_cons] at hbound
              refine h.congr ?_ rfl rfl ?_
              · simp [Attachment.pending, hworker, hqueue]
              · dsimp only
                omega
  | work answer =>
      simp only [Attachment.step] at ht
      cases hworker : s.worker with
      | none =>
          rw [hworker] at ht
          cases ht
      | some w =>
          rw [hworker] at ht
          exact h.works hworker (advance_works ht)
  | spawn =>
      cases ht
      exact h.congr rfl rfl rfl h.bound
  | enter i =>
      simp only [Attachment.step] at ht
      split at ht
      · cases ht
        exact h.congr rfl rfl rfl h.bound
      · cases ht
  | check i =>
      simp only [Attachment.step] at ht
      split at ht
      · cases ht
        exact h.congr rfl rfl rfl h.bound
      · cases ht
  | complete i =>
      simp only [Attachment.step] at ht
      split at ht
      · cases ht
        exact h.congr rfl rfl rfl h.bound
      · cases ht

/-! ### The invariant -/

/-- The phases in which the worker holds the activity lock alone. -/
def Phase.isExclusive : Phase → Bool
  | .refreshing => true
  | .flushing => true
  | _ => false

/-- The phases in which the router was made by the worker and is not shut down. -/
def Phase.hasRouter : Phase → Bool
  | .resolving => true
  | .unlocking => true
  | .resuming => true
  | _ => false

/-- The phases after the host may have been unlocked. -/
def Phase.mayOwe : Phase → Bool
  | .resuming => true
  | .closing => true
  | .reflushing => true
  | _ => false

structure Attachment.Inv (s : Attachment) : Prop where
  opened : s.admission.isOpen = true →
    s.pending = [] ∧ s.openedBy = s.published ∧ s.router ∉ s.shut
  exclusive : s.exclusive = true → ∀ op ∈ s.operations, op.isActive = false
  drained : s.drained = true → s.admission.isOpen = false ∧ Operation.running ∉ s.operations
  lock : ∀ job phase, s.worker = some (job, phase) → phase.isExclusive = true →
    s.exclusive = true
  flushing : ∀ job, s.worker = some (job, .flushing) → s.drained = true
  router : ∀ job phase, s.worker = some (job, phase) → phase.hasRouter = true →
    s.router ∉ s.shut
  owed : s.owed = true → ∃ job phase, s.worker = some (job, phase) ∧ phase.mayOwe = true
  shut : ∀ r ∈ s.shut, r ≤ s.router

theorem created_inv : Attachment.created.Inv := by
  refine ⟨?_, nofun, nofun, nofun, nofun, nofun, nofun, nofun⟩
  exact fun _ => ⟨rfl, rfl, List.not_mem_nil⟩

/-- While the worker works the gate is closed. -/
theorem Attachment.Inv.closed {s : Attachment} (h : s.Inv) {job : Job} {phase : Phase}
    (hworker : s.worker = some (job, phase)) : s.admission.isOpen = false := by
  rw [← Bool.not_eq_true]
  intro hopen
  have hpending := (h.opened hopen).1
  rw [Attachment.pending, hworker] at hpending
  cases hpending

theorem mem_set_of_ne {l : List Operation} {i : ℕ} {a b : Operation} (h : b ∈ l.set i a)
    (hne : b ≠ a) : b ∈ l :=
  (List.mem_or_eq_of_mem_set h).resolve_right hne

/-- What a state with a closed gate needs, where the worker stands at a phase. -/
theorem Attachment.Inv.of_phase {t : Attachment} {job : Job} {phase : Phase}
    (hworker : t.worker = some (job, phase)) (hclosed : t.admission.isOpen = false)
    (hexclusive : t.exclusive = true → ∀ op ∈ t.operations, op.isActive = false)
    (hdrained : t.drained = true → Operation.running ∉ t.operations)
    (hlock : phase.isExclusive = true → t.exclusive = true)
    (hflushing : phase = .flushing → t.drained = true)
    (hrouter : phase.hasRouter = true → t.router ∉ t.shut)
    (howed : t.owed = true → phase.mayOwe = true) (hshut : ∀ r ∈ t.shut, r ≤ t.router) :
    t.Inv := by
  refine ⟨?_, hexclusive, fun h => ⟨hclosed, hdrained h⟩, ?_, ?_, ?_, ?_, hshut⟩
  · intro hopen
    rw [hclosed] at hopen
    cases hopen
  · intro job' phase' h
    rw [hworker] at h
    cases h
    exact hlock
  · intro job' h
    rw [hworker] at h
    cases h
    exact hflushing rfl
  · intro job' phase' h
    rw [hworker] at h
    cases h
    exact hrouter
  · exact fun h => ⟨job, phase, hworker, howed h⟩

/-- The worker is done and the gate stays closed. -/
theorem Attachment.Inv.of_idle {t : Attachment} (hworker : t.worker = none)
    (hclosed : t.admission.isOpen = false)
    (hexclusive : t.exclusive = true → ∀ op ∈ t.operations, op.isActive = false)
    (hdrained : t.drained = true → Operation.running ∉ t.operations)
    (howed : t.owed = false) (hshut : ∀ r ∈ t.shut, r ≤ t.router) : t.Inv := by
  refine ⟨?_, hexclusive, fun h => ⟨hclosed, hdrained h⟩, ?_, ?_, ?_, ?_, hshut⟩
  · intro hopen
    rw [hclosed] at hopen
    cases hopen
  · intro job phase h
    rw [hworker] at h
    cases h
  · intro job h
    rw [hworker] at h
    cases h
  · intro job phase h
    rw [hworker] at h
    cases h
  · intro h
    rw [howed] at h
    cases h

section Work

variable {s t : Attachment} {job : Job} {phase : Phase}

theorem Attachment.Inv.not_owed (h : s.Inv) (hworker : s.worker = some (job, phase))
    (hphase : phase.mayOwe = false) : s.owed = false := by
  rw [← Bool.not_eq_true]
  intro howed
  obtain ⟨job', phase', hworker', hphase'⟩ := h.owed howed
  rw [hworker] at hworker'
  cases hworker'
  rw [hphase] at hphase'
  cases hphase'

theorem shut_shutdownRouter (h : s.Inv) : ∀ r ∈ s.shutdownRouter.shut, r ≤ s.router := by
  intro r hr
  obtain rfl | hr := List.mem_cons.mp hr
  · exact Nat.le_refl _
  · exact h.shut r hr

theorem Attachment.Inv.work (h : s.Inv) (hnumbered : s.Numbered) {answer : Bool}
    (hworker : s.worker = some (job, phase)) (ht : s.advance job answer phase = some t) :
    t.Inv := by
  have hclosed := h.closed hworker
  have hdrained := fun hd => (h.drained hd).2
  cases phase with
  | waiting =>
      have howed := h.not_owed hworker rfl
      rw [Attachment.advance] at ht
      split at ht
      · cases ht
      · cases ht
        cases job.event with
        | background =>
            exact .of_phase rfl hclosed h.exclusive hdrained nofun nofun nofun
              (fun ho => absurd (howed.symm.trans ho) Bool.false_ne_true) h.shut
        | foreground =>
            exact .of_phase rfl hclosed h.exclusive hdrained nofun nofun nofun
              (fun ho => absurd (howed.symm.trans ho) Bool.false_ne_true) h.shut
  | shutting =>
      have howed := h.not_owed hworker rfl
      cases ht
      exact .of_phase rfl hclosed h.exclusive hdrained nofun nofun nofun
        (fun ho => absurd (howed.symm.trans ho) Bool.false_ne_true) (shut_shutdownRouter h)
  | draining =>
      have howed := h.not_owed hworker rfl
      rw [Attachment.advance] at ht
      split at ht
      · cases ht
      next hnone =>
        cases ht
        have hquiet : ∀ op ∈ s.operations, op.isActive = false := by
          simpa using hnone
        exact .of_phase rfl hclosed (fun _ => hquiet) hdrained (fun _ => rfl) nofun nofun
          (fun ho => absurd (howed.symm.trans ho) Bool.false_ne_true) h.shut
  | refreshing =>
      have howed := h.not_owed hworker rfl
      have hlock := h.lock job .refreshing hworker rfl
      cases ht
      refine .of_phase rfl hclosed h.exclusive (fun _ hrunning => ?_) (fun _ => hlock)
        (fun _ => rfl) nofun (fun ho => absurd (howed.symm.trans ho) Bool.false_ne_true) h.shut
      exact absurd (h.exclusive hlock _ hrunning) (by decide)
  | flushing =>
      have howed := h.not_owed hworker rfl
      cases ht
      exact .of_idle rfl hclosed nofun hdrained howed h.shut
  | checking =>
      have howed := h.not_owed hworker rfl
      rw [Attachment.advance] at ht
      split at ht
      · cases ht
        exact .of_phase rfl hclosed h.exclusive hdrained nofun nofun nofun
          (fun ho => absurd (howed.symm.trans ho) Bool.false_ne_true) h.shut
      · cases ht
        exact .of_idle rfl hclosed h.exclusive hdrained howed h.shut
  | replacing =>
      have howed := h.not_owed hworker rfl
      rw [Attachment.advance] at ht
      split at ht
      · cases ht
        refine .of_phase rfl hclosed h.exclusive hdrained nofun nofun (fun _ hshut => ?_)
          (fun ho => absurd (howed.symm.trans ho) Bool.false_ne_true)
          (fun r hr => Nat.le_succ_of_le (h.shut r hr))
        exact absurd (h.shut _ hshut) (Nat.not_succ_le_self _)
      · cases ht
        exact .of_idle rfl hclosed h.exclusive hdrained howed h.shut
  | resolving =>
      have howed := h.not_owed hworker rfl
      have hrouter := h.router job .resolving hworker rfl
      rw [Attachment.advance] at ht
      split at ht
      · cases ht
        exact .of_phase rfl hclosed h.exclusive hdrained nofun nofun (fun _ => hrouter)
          (fun ho => absurd (howed.symm.trans ho) Bool.false_ne_true) h.shut
      · cases ht
        exact .of_phase rfl hclosed h.exclusive hdrained nofun nofun (fun _ => hrouter)
          (fun _ => rfl) h.shut
  | unlocking =>
      have hrouter := h.router job .unlocking hworker rfl
      cases ht
      exact .of_phase rfl hclosed h.exclusive hdrained nofun nofun (fun _ => hrouter)
        (fun _ => rfl) h.shut
  | resuming =>
      have hrouter := h.router job .resuming hworker rfl
      simp only [Attachment.advance, Admission.resume] at ht
      by_cases hcurrent : s.admission.currentForeground job.revision = true
      · rw [if_pos hcurrent] at ht
        cases ht
        have hrevision : s.admission.revision = job.revision := by
          rw [Admission.currentForeground, Bool.and_eq_true, beq_iff_eq] at hcurrent
          exact hcurrent.1
        obtain ⟨hindex, hpending⟩ := hnumbered.last hworker hrevision
        have hrest : s.queue ++ s.entering.toList = [] := by
          rw [Attachment.pending, hworker] at hpending
          exact (List.cons.inj hpending).2
        exact ⟨fun _ => ⟨hrest, hindex, hrouter⟩, h.exclusive, nofun, nofun, nofun, nofun, nofun,
          h.shut⟩
      · rw [if_neg hcurrent] at ht
        cases ht
        exact .of_phase rfl hclosed h.exclusive hdrained nofun nofun nofun (fun _ => rfl) h.shut
  | closing =>
      cases ht
      exact .of_phase rfl hclosed h.exclusive hdrained nofun nofun nofun (fun _ => rfl)
        (shut_shutdownRouter h)
  | reflushing =>
      cases ht
      exact .of_idle rfl hclosed h.exclusive hdrained rfl h.shut

end Work

theorem Attachment.Inv.step {s t : Attachment} {x : Step} (h : s.Inv) (hnumbered : s.Numbered)
    (ht : s.step x = some t) : t.Inv := by
  cases x with
  | native event =>
      simp only [Attachment.step, Attachment.nativeEvent] at ht
      split at ht
      · cases ht
      · cases ht
        exact ⟨nofun, h.exclusive, fun hd => ⟨rfl, (h.drained hd).2⟩, h.lock, h.flushing, h.router,
          h.owed, h.shut⟩
  | enqueue =>
      simp only [Attachment.step] at ht
      cases hentering : s.entering with
      | none =>
          rw [hentering] at ht
          cases ht
      | some job =>
          rw [hentering] at ht
          cases ht
          refine ⟨fun hopen => ?_, h.exclusive, h.drained, h.lock, h.flushing, h.router, h.owed,
            h.shut⟩
          have hpending := (h.opened hopen).1
          simp [Attachment.pending, hentering] at hpending
  | receive =>
      simp only [Attachment.step] at ht
      cases hworker : s.worker with
      | some w =>
          rw [hworker] at ht
          cases ht
      | none =>
          cases hqueue : s.queue with
          | nil =>
              rw [hworker, hqueue] at ht
              cases ht
          | cons job queue =>
              rw [hworker, hqueue] at ht
              cases ht
              have hclosed : s.admission.isOpen = false := by
                rw [← Bool.not_eq_true]
                intro hopen
                have hpending := (h.opened hopen).1
                simp [Attachment.pending, hqueue] at hpending
              refine .of_phase rfl hclosed h.exclusive (fun hd => (h.drained hd).2) nofun nofun
                nofun (fun ho => ?_) h.shut
              obtain ⟨job', phase', hworker', -⟩ := h.owed ho
              rw [hworker] at hworker'
              cases hworker'
  | work answer =>
      simp only [Attachment.step] at ht
      cases hworker : s.worker with
      | none =>
          rw [hworker] at ht
          cases ht
      | some w =>
          rw [hworker] at ht
          exact h.work hnumbered hworker ht
  | spawn =>
      cases ht
      refine ⟨h.opened, fun he op hop => ?_, fun hd => ⟨(h.drained hd).1, fun hr => ?_⟩, h.lock,
        h.flushing, h.router, h.owed, h.shut⟩
      · obtain hop | hop := List.mem_append.mp hop
        · exact h.exclusive he op hop
        · rw [List.mem_singleton.mp hop]
          rfl
      · obtain hr | hr := List.mem_append.mp hr
        · exact (h.drained hd).2 hr
        · exact absurd (List.mem_singleton.mp hr) (by decide)
  | enter i =>
      simp only [Attachment.step] at ht
      split at ht
      next hwaiting =>
        cases ht
        refine ⟨h.opened, fun he => ?_, fun hd => ⟨(h.drained hd).1, fun hr => ?_⟩, h.lock,
          h.flushing, h.router, h.owed, h.shut⟩
        · rw [hwaiting.2] at he
          cases he
        · exact (h.drained hd).2 (mem_set_of_ne hr (by decide))
      · cases ht
  | check i =>
      simp only [Attachment.step] at ht
      split at ht
      next hentered =>
        cases ht
        refine ⟨h.opened, fun he => ?_, fun hd => ⟨(h.drained hd).1, fun hr => ?_⟩, h.lock,
          h.flushing, h.router, h.owed, h.shut⟩
        · exact absurd (h.exclusive he _ (List.mem_of_getElem? hentered)) (by decide)
        · have hrefused : s.admission.admits = false := by
            rw [Admission.admits, (h.drained hd).1, Bool.false_and]
          rw [hrefused] at hr
          exact (h.drained hd).2 (mem_set_of_ne hr (by decide))
      · cases ht
  | complete i =>
      simp only [Attachment.step] at ht
      split at ht
      next hrunning =>
        cases ht
        refine ⟨h.opened, fun he => ?_, fun hd => ⟨(h.drained hd).1, fun hr => ?_⟩, h.lock,
          h.flushing, h.router, h.owed, h.shut⟩
        · exact absurd (h.exclusive he _ (List.mem_of_getElem? hrunning)) (by decide)
        · exact (h.drained hd).2 (mem_set_of_ne hr (by decide))
      · cases ht

/-- A suspended profile is quiet. While it is flushed for the background, and until a worker of
the foreground opens the gate, no operation runs; the gate is open only where the worker of the
last event opened it; a worker of the foreground that unlocked the host and did not open the gate
has flushed the host when it is done; and behind an open gate the router is not shut down. -/
structure Attachment.Quiet (s : Attachment) : Prop where
  flushing : ∀ job, s.worker = some (job, .flushing) → s.drained = true
  drained : s.drained = true → s.admission.isOpen = false ∧ Operation.running ∉ s.operations
  latest : s.admission.isOpen = true → s.openedBy = s.published
  flushed : s.worker = none → s.owed = false
  router : s.admission.isOpen = true → s.router ∉ s.shut

theorem reachable_quiet {s : Attachment} (hs : attachmentMachine.Reachable s) : s.Quiet := by
  have h : s.Numbered ∧ s.Inv := by
    refine Machine.Reachable.invariant (I := fun s => s.Numbered ∧ s.Inv) ?_ ?_ hs
    · rintro s rfl
      exact ⟨created_numbered, created_inv⟩
    · rintro s x t - ⟨hnumbered, hinv⟩ ht
      exact ⟨hnumbered.step ht, hinv.step hnumbered ht⟩
  obtain ⟨-, hinv⟩ := h
  refine ⟨hinv.flushing, hinv.drained, fun ho => (hinv.opened ho).2.1, fun hworker => ?_,
    fun ho => (hinv.opened ho).2.2⟩
  rw [← Bool.not_eq_true]
  intro howed
  obtain ⟨job, phase, hsome, -⟩ := hinv.owed howed
  rw [hworker] at hsome
  cases hsome

/-- An operation is admitted, the view goes to the background and the worker waits for it to be
done before it flushes the host. -/
def drainedRun : List Step :=
  [.spawn, .enter 0, .check 0, .native .background, .enqueue, .receive, .work true, .work true,
    .complete 0, .work true, .work true]

theorem drained_background_quiet :
    ((drainedRun.foldlM Attachment.step .created).getD .created).drained = true ∧
      ((drainedRun.foldlM Attachment.step .created).getD .created).Quiet :=
  ⟨by decide +kernel, reachable_quiet (Machine.Reachable.getD_foldlM _ _ drainedRun)⟩

end Mobile

end GChat
