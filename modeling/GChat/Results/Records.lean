import GChat.Results.Model
import Mathlib.Data.List.Nodup

/-!
# The records of the operations

What each call does to the record of one key. Only a direct response changes a complete record, and
only the limit removes one.
-/

namespace GChat

namespace Results

open Foundation

namespace OperationResults

variable {Output : Type} {k : String}

/-! ### The map -/

theorem lookup_set (key : String) (record : OperationResult Output)
    (records : List (String × OperationResult Output)) :
    (set key record records).lookup k = if k = key then some record else records.lookup k := by
  induction records with
  | nil =>
      by_cases hk : k = key
      · simp [set, hk]
      · simp [set, List.lookup_cons, hk, beq_eq_false_iff_ne.mpr hk]
  | cons entry records ih =>
      obtain ⟨name, other⟩ := entry
      rw [set]
      by_cases hname : name = key
      · rw [if_pos hname, List.lookup_cons, List.lookup_cons, hname]
        by_cases hk : k = key
        · simp [hk]
        · simp [hk, beq_eq_false_iff_ne.mpr hk]
      · rw [if_neg hname, List.lookup_cons, List.lookup_cons, ih]
        by_cases hk : k = name
        · simp [hk, hname]
        · simp [beq_eq_false_iff_ne.mpr hk]

theorem lookup_delete (key : String) (records : List (String × OperationResult Output)) :
    (delete key records).lookup k = if k = key then none else records.lookup k := by
  induction records with
  | nil => simp [delete]
  | cons entry records ih =>
      obtain ⟨name, other⟩ := entry
      rw [delete] at ih ⊢
      by_cases hname : name = key
      · rw [List.filter_cons_of_neg (by simpa using hname), ih, List.lookup_cons]
        by_cases hk : k = key
        · rw [if_pos hk, if_pos hk]
        · rw [if_neg hk, if_neg hk, hname, beq_eq_false_iff_ne.mpr hk]
      · rw [List.filter_cons_of_pos (by simpa using hname), List.lookup_cons, List.lookup_cons, ih]
        by_cases hk : k = name
        · simp [hk, hname]
        · simp [beq_eq_false_iff_ne.mpr hk]

theorem get_set (key : String) (record : OperationResult Output) (results : OperationResults Output)
    (delivered : List String) :
    (⟨set key record results.records, delivered⟩ : OperationResults Output).get k =
      if k = key then some record else results.get k :=
  lookup_set key record results.records

theorem key_inj {i network id i' network' id' : String}
    (h : key i network id = key i' network' id') : i = i' ∧ network = network' ∧ id = id' :=
  JsonText.stringify_three_inj h

/-- Each record stands under its key. -/
def Keyed (results : OperationResults Output) : Prop :=
  ∀ entry ∈ results.records, entry.2.key = entry.1

theorem mem_set {key : String} {record : OperationResult Output}
    {records : List (String × OperationResult Output)} {entry : String × OperationResult Output}
    (h : entry ∈ set key record records) : entry = (key, record) ∨ entry ∈ records := by
  induction records with
  | nil => exact .inl (List.mem_singleton.mp h)
  | cons other records ih =>
      rw [set] at h
      split at h
      · rcases List.mem_cons.mp h with rfl | h
        · exact .inl rfl
        · exact .inr (List.mem_cons_of_mem _ h)
      · rcases List.mem_cons.mp h with rfl | h
        · exact .inr List.mem_cons_self
        · exact (ih h).imp id (List.mem_cons_of_mem _)

theorem Keyed.set {results : OperationResults Output} (h : results.Keyed) {key : String}
    {record : OperationResult Output} (hrecord : record.key = key) (delivered : List String) :
    (⟨OperationResults.set key record results.records, delivered⟩ :
      OperationResults Output).Keyed := by
  intro entry hentry
  rcases mem_set hentry with rfl | hentry
  · exact hrecord
  · exact h entry hentry

theorem Keyed.get {results : OperationResults Output} (h : results.Keyed)
    {record : OperationResult Output} (hget : results.get k = some record) : record.key = k := by
  obtain ⟨front, back, hrecords, -⟩ := List.lookup_eq_some_iff.mp hget
  refine h (k, record) ?_
  rw [hrecords]
  exact List.mem_append_right _ List.mem_cons_self

/-! ### Beginning -/

/-- The key whose record a call drops. -/
def evicted (results : OperationResults Output) : Call Output → Option String
  | .begin _ instanceId network id _ _ =>
      match results.get (key instanceId network id) with
      | some _ => none
      | none => results.oldest.map (·.key)
  | _ => none

theorem begin_of_some {results : OperationResults Output} {i network id : String}
    {old : OperationResult Output} (h : results.get (key i network id) = some old) (now : ℕ)
    (conversation text : Option String) :
    results.begin now i network id conversation text = (old, results) := by
  rw [begin, h]

/-- A new record is pending, and the oldest complete one may be dropped for it. -/
theorem begin_of_none {results : OperationResults Output} {i network id : String}
    (h : results.get (key i network id) = none) (now : ℕ) (conversation text : Option String) :
    ∃ record : OperationResult Output, record.key = key i network id ∧
      results.begin now i network id conversation text =
        (record, match results.oldest with
          | some oldest => ⟨set (key i network id) record (delete oldest.key results.records),
              results.delivered.filter (· != oldest.key)⟩
          | none =>
              { results with records := set (key i network id) record results.records }) := by
  rw [begin, h]
  refine ⟨⟨key i network id, id, network, i, conversation, action text, now, none, .pending,
    body text, none, none, none, none⟩, rfl, ?_⟩
  cases results.oldest with
  | none => rfl
  | some oldest => rfl

/-- What a beginning leaves of the other records. -/
theorem get_begin {results : OperationResults Output} {now : ℕ} {i network id : String}
    {conversation text : Option String} (hk : k ≠ key i network id) :
    (results.begin now i network id conversation text).2.get k =
      if results.evicted (.begin now i network id conversation text) = some k then none
      else results.get k := by
  rw [evicted]
  cases hget : results.get (key i network id) with
  | some old =>
      rw [begin_of_some hget]
      exact (if_neg nofun).symm
  | none =>
      obtain ⟨record, -, hbegin⟩ := begin_of_none hget now conversation text
      rw [hbegin]
      cases results.oldest with
      | none =>
          refine (lookup_set _ _ _).trans ?_
          rw [if_neg hk]
          exact (if_neg nofun).symm
      | some oldest =>
          refine (lookup_set _ _ _).trans ?_
          rw [if_neg hk, lookup_delete]
          simp only [Option.map_some, Option.some.injEq, eq_comm]
          rfl

theorem get_begin_self {results : OperationResults Output} {now : ℕ} {i network id : String}
    {conversation text : Option String} {old : OperationResult Output}
    (h : results.get (key i network id) = some old) :
    (results.begin now i network id conversation text).2.get (key i network id) = some old := by
  rw [begin_of_some h]
  exact h

/-! ### Responses -/

theorem complete_of_none {results : OperationResults Output} {key : String}
    (h : results.get key = none) (now : ℕ) (response : Response Output) :
    results.complete now key response = (false, results) := by
  unfold complete
  rw [h]

/-- A response completes and marks its record, and is new where there was no mark. -/
theorem complete_of_some {results : OperationResults Output} {key : String}
    {old : OperationResult Output} (h : results.get key = some old) (now : ℕ)
    (response : Response Output) :
    ∃ record : OperationResult Output, record.state = .complete ∧ record.key = old.key ∧
      results.complete now key response = (!results.delivered.contains key,
        ⟨set key record results.records, results.delivered.insert key⟩) := by
  unfold complete
  rw [h]
  exact ⟨completed old now response, rfl, rfl, rfl⟩

theorem complete_marks {results : OperationResults Output} {key : String}
    {old : OperationResult Output} (h : results.get key = some old) (now : ℕ)
    (response : Response Output) :
    (results.complete now key response).1 = !results.delivered.contains key ∧
      (results.complete now key response).2.delivered = results.delivered.insert key := by
  obtain ⟨record, -, -, hcomplete⟩ := complete_of_some h now response
  rw [hcomplete]
  exact ⟨rfl, rfl⟩

theorem get_complete (results : OperationResults Output) (now : ℕ) (key : String)
    (response : Response Output) :
    (k ≠ key → (results.complete now key response).2.get k = results.get k) ∧
      ∀ old, results.get key = some old →
        ∃ record, (results.complete now key response).2.get key = some record ∧
          record.state = .complete := by
  cases hget : results.get key with
  | none =>
      rw [complete_of_none hget]
      refine ⟨fun _ => rfl, fun old hold => ?_⟩
      cases hold
  | some old =>
      obtain ⟨record, hstate, -, hcomplete⟩ := complete_of_some hget now response
      rw [hcomplete]
      refine ⟨fun hk => (lookup_set _ _ _).trans (if_neg hk), fun _ _ => ?_⟩
      exact ⟨record, (lookup_set _ _ _).trans (if_pos rfl), hstate⟩

theorem get_error (results : OperationResults Output) (now : ℕ) (key code message : String) :
    (k ≠ key → (results.error now key code message).get k = results.get k) ∧
      ∀ old, results.get k = some old → old.state = .complete →
        (results.error now key code message).get k = some old := by
  unfold error
  cases hget : results.get key with
  | none => exact ⟨fun _ => rfl, fun old hold _ => hold⟩
  | some record =>
      dsimp only
      split
      · exact ⟨fun _ => rfl, fun old hold _ => hold⟩
      next hstate =>
        refine ⟨fun hk => (lookup_set _ _ _).trans (if_neg hk), ?_⟩
        intro old hold hcomplete
        refine (lookup_set _ _ _).trans ?_
        have hk : k ≠ key := by
          rintro rfl
          rw [hget] at hold
          cases hold
          exact hstate hcomplete
        rw [if_neg hk]
        exact hold

/-! ### The journal -/

variable (networkFor : Option String → String → String)

/-- The key of a detail. -/
def detailKey (detail : OperationDetail Output) : String :=
  key detail.instanceId (detail.network.getD (networkFor detail.conversation detail.instanceId))
    detail.id

@[simp]
theorem key_noted (old : OperationResult Output) (detail : OperationDetail Output) :
    (noted old detail).key = old.key := by
  unfold noted
  split
  · rfl
  · rfl

/-- A detail sets the record of its key, unless the record is complete. -/
theorem restoreDetail_cases (results : OperationResults Output) (detail : OperationDetail Output) :
    restoreDetail networkFor results detail = results ∨
      (∀ old, results.get (detailKey networkFor detail) = some old → old.state ≠ .complete) ∧
        ∃ record : OperationResult Output,
          (results.Keyed → record.key = detailKey networkFor detail) ∧
          restoreDetail networkFor results detail = { results with
            records := set (detailKey networkFor detail) record results.records } := by
  have hkey : key detail.instanceId
      (detail.network.getD (networkFor detail.conversation detail.instanceId)) detail.id =
        detailKey networkFor detail := rfl
  dsimp only [restoreDetail]
  rw [hkey]
  cases hget : results.get (detailKey networkFor detail) with
  | none =>
      refine .inr ⟨fun old hold => ?_, _, fun _ => rfl, rfl⟩
      cases hold
  | some old =>
      dsimp only
      split
      · exact .inl rfl
      next hstate =>
        refine .inr ⟨?_, ?_⟩
        · rintro other ⟨rfl⟩
          exact hstate
        · refine ⟨_, fun hkeyed => ?_, rfl⟩
          split
          · rw [key_noted]
            exact hkeyed.get hget
          · rfl

theorem get_restoreDetail_of_ne {results : OperationResults Output}
    {detail : OperationDetail Output} (hk : k ≠ detailKey networkFor detail) :
    (restoreDetail networkFor results detail).get k = results.get k := by
  rcases restoreDetail_cases networkFor results detail with hsame | ⟨-, record, -, hset⟩
  · rw [hsame]
  · rw [hset]
    exact (lookup_set _ _ _).trans (if_neg hk)

theorem get_restoreDetail_of_complete {results : OperationResults Output}
    {record : OperationResult Output} (h : results.get k = some record)
    (hstate : record.state = .complete) (detail : OperationDetail Output) :
    (restoreDetail networkFor results detail).get k = some record := by
  rcases restoreDetail_cases networkFor results detail with hsame | ⟨hopen, other, -, hset⟩
  · rw [hsame]
    exact h
  · have hk : k ≠ detailKey networkFor detail := by
      rintro rfl
      exact hopen record h hstate
    rw [hset]
    exact (lookup_set _ _ _).trans ((if_neg hk).trans h)

/-- A detail of an unknown operation adds its record. -/
theorem get_restoreDetail_of_none {results : OperationResults Output}
    {detail : OperationDetail Output} (h : results.get (detailKey networkFor detail) = none) :
    ∃ record, (restoreDetail networkFor results detail).get (detailKey networkFor detail) =
      some record := by
  have hkey : key detail.instanceId
      (detail.network.getD (networkFor detail.conversation detail.instanceId)) detail.id =
        detailKey networkFor detail := rfl
  dsimp only [restoreDetail]
  rw [hkey, h]
  exact ⟨_, (lookup_set _ _ _).trans (if_pos rfl)⟩

theorem get_restore_of_ne {results : OperationResults Output}
    {details : List (OperationDetail Output)}
    (hk : ∀ detail ∈ details, k ≠ detailKey networkFor detail) :
    (results.restore details networkFor).get k = results.get k := by
  induction details generalizing results with
  | nil => rfl
  | cons detail details ih =>
      rw [List.forall_mem_cons] at hk
      exact (ih hk.2).trans (get_restoreDetail_of_ne networkFor hk.1)

/-- A snapshot of the journal never touches a complete record. -/
theorem get_restore_of_complete {results : OperationResults Output}
    {record : OperationResult Output} (h : results.get k = some record)
    (hstate : record.state = .complete) (details : List (OperationDetail Output)) :
    (results.restore details networkFor).get k = some record := by
  induction details generalizing results with
  | nil => exact h
  | cons detail details ih =>
      exact ih (get_restoreDetail_of_complete networkFor h hstate detail)

theorem delivered_restore (results : OperationResults Output)
    (details : List (OperationDetail Output)) :
    (results.restore details networkFor).delivered = results.delivered := by
  induction details generalizing results with
  | nil => rfl
  | cons detail details ih =>
      refine (ih _).trans ?_
      rcases restoreDetail_cases networkFor results detail with hsame | ⟨-, record, -, hset⟩
      · rw [hsame]
      · rw [hset]

theorem Keyed.restore {results : OperationResults Output} (h : results.Keyed)
    (details : List (OperationDetail Output)) : (results.restore details networkFor).Keyed := by
  induction details generalizing results with
  | nil => exact h
  | cons detail details ih =>
      refine ih ?_
      rcases restoreDetail_cases networkFor results detail with hsame | ⟨-, record, hkey, hset⟩
      · rw [hsame]
        exact h
      · rw [hset]
        exact h.set (hkey h) _

end OperationResults

end Results

end GChat
