import GChat.Journal.Cases

/-!
# What becomes of a record

Until it expires, a record keeps its digest, its admission time, its response and
its binding under every step on the journal that is not a completion of its own
operation, on disk as well as in memory.
-/

namespace GChat

namespace Journal

open Foundation Api

/-- All of a record but the description of its action. -/
def OperationRecord.core (record : OperationRecord) :
    String × ℕ × Option Response × Option RecordBinding :=
  (record.digest, record.admittedAt, record.response, record.rpc)

section Keeps

variable {host : Host} {id : String} {now earlier window longer : ℕ} {admitted : Bool}
  {request : Submit} {operations candidate : Operations} {journal journal' : Cell Operations}
  {key : OperationKey} {digest : String} {outcome : Written} {record : OperationRecord}

/-- An edit of the journal keeps the record under `id`, unless it has expired. -/
def Keeps (id : String) (now : ℕ) (operations candidate : Operations) : Prop :=
  ∀ record, operations[id]? = some record → record.fresh week now = true →
    candidate[id]?.map OperationRecord.core = some record.core

theorem Keeps.refl (id : String) (now : ℕ) (operations : Operations) :
    Keeps id now operations operations := by
  intro record h _
  rw [h]
  rfl

theorem fresh_mono (hwindow : window ≤ longer) (hnow : earlier ≤ now)
    (h : record.fresh window now = true) : record.fresh longer earlier = true := by
  unfold OperationRecord.fresh saturatingAdd at h ⊢
  rw [decide_eq_true_eq] at h ⊢
  omega

theorem get_prune (window now : ℕ) (operations : Operations) (id : String) :
    (prune window now operations)[id]? =
      operations[id]?.filter fun record => record.fresh window now :=
  StringMap.get_filter operations _ id

theorem keeps_prune (hwindow : week ≤ window) (hnow : earlier ≤ now) :
    Keeps id now operations (prune window earlier operations) := by
  intro record h hfresh
  rw [get_prune, h, Option.filter_some, if_pos (fresh_mono hwindow hnow hfresh)]
  rfl

theorem Keeps.insert_of_ne {other : String} (h : Keeps id now operations candidate)
    (hne : other ≠ id) : Keeps id now operations (candidate.insert other record) := by
  intro old hold hfresh
  rw [StringMap.get_insert_of_ne _ _ hne]
  exact h old hold hfresh

theorem describe_core (request : Submit) (operations : Operations) (id : String) :
    (describe request operations)[id]?.map OperationRecord.core =
      operations[id]?.map OperationRecord.core := by
  unfold describe
  cases h : operations[request.operationId]? with
  | none => rfl
  | some record =>
      dsimp only
      rw [StringMap.get_insert]
      split
      case isTrue heq =>
        rw [← heq, h]
        rfl
      case isFalse => rfl

theorem Keeps.describe (h : Keeps id now operations candidate) :
    Keeps id now operations (describe request candidate) := by
  intro record hrecord hfresh
  rw [describe_core]
  exact h record hrecord hfresh

/-- Admitting a submission keeps every record. -/
theorem keeps_decide (h : host.decide now admitted request operations = .ok (.accept candidate)) :
    Keeps id now operations candidate := by
  obtain ⟨-, -, ⟨-, rfl, -⟩ | ⟨-, hnone, -, rfl⟩⟩ := decide_accept h
  · exact Keeps.refl id now candidate
  · by_cases hid : request.operationId = id
    · intro record hrecord
      rw [hid, hrecord] at hnone
      cases hnone
    · exact (keeps_prune (Nat.le_refl _) (Nat.le_refl _)).insert_of_ne hid

/-- So does a typed admission, as it finds no record under its own identifier. -/
theorem keeps_rpcCandidate (hretention : week ≤ host.retention) (hnow : earlier ≤ now)
    (hnone : host.retained earlier key operations = none) :
    Keeps id now operations (host.rpcCandidate earlier key digest operations) := by
  by_cases hid : recordId key = id
  · intro record hrecord hfresh
    unfold Host.retained at hnone
    rw [hid, hrecord, Option.filter_some,
      if_pos (fresh_mono hretention hnow hfresh)] at hnone
    cases hnone
  · exact (keeps_prune hretention hnow).insert_of_ne hid

/-- A step on the journal keeps the record under `id`, in memory and on disk. -/
def CellKeeps (id : String) (now : ℕ) (journal journal' : Cell Operations) : Prop :=
  Keeps id now journal.memory journal'.memory ∧
    (journal'.disk = journal.disk ∨ Keeps id now journal.memory journal'.disk)

theorem cellKeeps_write {result : Except String Unit}
    (h : journal.write journal.memory outcome = (journal', result)) :
    CellKeeps id now journal journal' := by
  obtain ⟨hm, ⟨-, -, hd⟩ | ⟨-, -, hd | hd⟩⟩ := Cell.write_cases h
  · exact ⟨hm ▸ Keeps.refl id now _, Or.inr (hd ▸ Keeps.refl id now _)⟩
  · exact ⟨hm ▸ Keeps.refl id now _, Or.inl hd⟩
  · exact ⟨hm ▸ Keeps.refl id now _, Or.inr (hd ▸ Keeps.refl id now _)⟩

theorem cellKeeps_beginSubmit {aliases : StringMap String} {first second : Written}
    {result : Except String Begun}
    (h : host.beginSubmit now admitted aliases request first second journal = (journal', result)) :
    CellKeeps id now journal journal' := by
  obtain ⟨rfl | ⟨-, rfl⟩, -⟩ | ⟨candidate, hdecide, hm, hd, -⟩ := beginSubmit_cases h
  · exact ⟨Keeps.refl id now _, Or.inl rfl⟩
  · exact ⟨keeps_prune (Nat.le_refl _) (Nat.le_refl _), Or.inl rfl⟩
  have hkeeps : Keeps id now journal.memory candidate := keeps_decide hdecide
  constructor
  · obtain hm | hm := hm
    · rw [hm]
      exact hkeeps
    · rw [hm]
      exact hkeeps.describe
  · obtain ⟨hd, -⟩ | hd | hd := hd
    · exact Or.inl hd
    · rw [hd]
      exact Or.inr hkeeps
    · rw [hd]
      exact Or.inr hkeeps.describe

theorem cellKeeps_rpcAdmit (hretention : week ≤ host.retention) (hnow : earlier ≤ now)
    {deadline : ℕ} {result : Except RpcError Admission}
    (h : host.rpcAdmit earlier key digest deadline outcome journal = (journal', result)) :
    CellKeeps id now journal journal' := by
  obtain ⟨-, hm, hd | ⟨hattempts, -, hd⟩⟩ | ⟨-, -, hattempts, hm, hd⟩ := rpcAdmit_cases h
  · exact ⟨hm ▸ Keeps.refl id now _, Or.inl hd⟩
  · exact ⟨hm ▸ Keeps.refl id now _,
      Or.inr (hd ▸ keeps_rpcCandidate hretention hnow hattempts.unknown)⟩
  · have hkeeps : Keeps id now journal.memory (host.rpcCandidate earlier key digest
        journal.memory) := keeps_rpcCandidate hretention hnow hattempts.unknown
    rw [← hm] at hkeeps
    exact ⟨hkeeps, Or.inr (by rw [hd, ← hm]; exact hkeeps)⟩

theorem cellKeeps_finishSubmit {other : String} {response : Response} {result : Finished}
    (h : finishSubmit other response outcome journal = (journal', result)) (hne : other ≠ id) :
    CellKeeps id now journal journal' := by
  obtain ⟨-, rfl, -⟩ | ⟨record, -, ⟨-, -, hm, hd⟩ | ⟨-, -, hm, hd | hd⟩⟩ := finishSubmit_cases h
  · exact ⟨Keeps.refl id now _, Or.inl rfl⟩
  · exact ⟨hm ▸ (Keeps.refl id now _).insert_of_ne hne,
      Or.inr (hd ▸ (Keeps.refl id now _).insert_of_ne hne)⟩
  · exact ⟨hm ▸ Keeps.refl id now _, Or.inl hd⟩
  · exact ⟨hm ▸ Keeps.refl id now _, Or.inr (hd ▸ (Keeps.refl id now _).insert_of_ne hne)⟩

theorem cellKeeps_rpcComplete {value : ReplyBody} {result : Except RpcError Unit}
    (h : host.rpcComplete key value outcome journal = (journal', result))
    (hne : recordId key ≠ id) : CellKeeps id now journal journal' := by
  obtain ⟨-, hm, hd⟩ | ⟨record, binding, -, -, -, -, ⟨-, -, hm, hd⟩ | ⟨-, -, hm, hd | hd⟩⟩ :=
    rpcComplete_cases h
  · exact ⟨hm ▸ Keeps.refl id now _, Or.inl hd⟩
  · exact ⟨hm ▸ (Keeps.refl id now _).insert_of_ne hne,
      Or.inr (hd ▸ (Keeps.refl id now _).insert_of_ne hne)⟩
  · exact ⟨hm ▸ Keeps.refl id now _, Or.inl hd⟩
  · exact ⟨hm ▸ Keeps.refl id now _, Or.inr (hd ▸ (Keeps.refl id now _).insert_of_ne hne)⟩

end Keeps

end Journal

end GChat
