import GChat.Foundation.Machine
import GChat.Results.Records

/-!
# Results never go back

A record that is complete stays so, a snapshot does not touch it, and no call changes the record of
another operation. A response is delivered once, unless the record was dropped at the limit after
its delivery: dropping it forgets that it was delivered.
-/

namespace GChat

namespace Results

open Foundation

variable {Output : Type}

/-- The view with the keys of the delivered responses and of the deliveries it forgot. -/
structure History (Output : Type) where
  results : OperationResults Output
  answered : List String
  forgotten : List String

namespace History

def start : History Output := ⟨OperationResults.clear, [], []⟩

/-- The delivery that a call forgets. -/
def forgets (results : OperationResults Output) (call : Call Output) : Option String :=
  (results.evicted call).filter results.delivered.contains

def step (history : History Output) (call : Call Output) : History Output where
  results := Results.step history.results call
  answered := history.answered ++ (answer history.results call).toList
  forgotten := history.forgotten ++ (forgets history.results call).toList

def run (calls : List (Call Output)) : History Output := calls.foldl step start

theorem results_foldl (history : History Output) (calls : List (Call Output)) :
    (calls.foldl step history).results = calls.foldl Results.step history.results := by
  induction calls generalizing history with
  | nil => rfl
  | cons call calls ih => exact ih _

/-- No response is for a record that is back after its delivery was forgotten. -/
def Admits (history : History Output) : Call Output → Prop
  | .complete _ key _ => key ∈ history.forgotten → history.results.get key = none
  | _ => True

end History

/-- The call is about the operation. -/
def Call.IsAbout (call : Call Output) (instanceId network id : String) : Prop :=
  match call with
  | .begin _ instanceId' network' id' _ _ =>
      instanceId' = instanceId ∧ network' = network ∧ id' = id
  | .complete _ key _ => key = OperationResults.key instanceId network id
  | .error _ key _ _ => key = OperationResults.key instanceId network id
  | .restore details networkFor => ∃ detail ∈ details, detail.instanceId = instanceId ∧
      detail.network.getD (networkFor detail.conversation detail.instanceId) = network ∧
      detail.id = id

/-- The record of the key is complete. -/
def Complete (history : History Output) (key : String) : Prop :=
  ∃ record, history.results.get key = some record ∧ record.state = .complete

/-- What a run never does. -/
structure Settled (calls : List (Call Output)) : Prop where
  complete : ∀ key m n, m ≤ n → Complete (History.run (calls.take m)) key →
    (∀ i, m ≤ i → i ≤ n → (History.run (calls.take i)).results.get key ≠ none) →
      Complete (History.run (calls.take n)) key
  journal : ∀ n details networkFor, calls[n]? = some (.restore details networkFor) →
    ∀ key record, (History.run (calls.take n)).results.get key = some record →
      record.state = .complete →
        (History.run (calls.take (n + 1))).results.get key = some record
  once : ∀ n, (History.run (calls.take n)).answered.Nodup
  apart : ∀ (n : ℕ) (call : Call Output), calls[n]? = some call → ∀ i network id,
    ¬ call.IsAbout i network id →
      (History.run (calls.take (n + 1))).results.get (OperationResults.key i network id) =
        (History.run (calls.take n)).results.get (OperationResults.key i network id) ∨
      (History.run (calls.take n)).results.evicted call = some (OperationResults.key i network id)

/-! ### One call -/

theorem run_succ {calls : List (Call Output)} {n : ℕ} {call : Call Output}
    (h : calls[n]? = some call) :
    History.run (calls.take (n + 1)) = (History.run (calls.take n)).step call :=
  Machine.foldl_take_succ History.step History.start h

/-- A complete record stays complete until it is dropped. -/
theorem complete_step {history : History Output} {key : String} (h : Complete history key)
    (call : Call Output) :
    (history.step call).results.get key = none ∨ Complete (history.step call) key := by
  obtain ⟨record, hget, hstate⟩ := h
  cases call with
  | begin now i network id conversation text =>
      by_cases hkey : key = OperationResults.key i network id
      · subst hkey
        exact .inr ⟨record, OperationResults.get_begin_self hget, hstate⟩
      · have hafter : (history.results.begin now i network id conversation text).2.get key = _ :=
          OperationResults.get_begin hkey
        split at hafter
        · exact .inl hafter
        · exact .inr ⟨record, hafter.trans hget, hstate⟩
  | complete now name response =>
      obtain ⟨hother, hself⟩ :=
        OperationResults.get_complete (k := key) history.results now name response
      by_cases hkey : key = name
      · subst hkey
        obtain ⟨after, hafter, hcomplete⟩ := hself record hget
        exact .inr ⟨after, hafter, hcomplete⟩
      · exact .inr ⟨record, (hother hkey).trans hget, hstate⟩
  | error now name code message =>
      have hafter := (OperationResults.get_error history.results now name code message).2 record
        hget hstate
      exact .inr ⟨record, hafter, hstate⟩
  | restore details networkFor =>
      exact .inr ⟨record,
        OperationResults.get_restore_of_complete networkFor hget hstate details, hstate⟩

/-- A call leaves the records of other operations, except that it may drop one. -/
theorem step_apart {history : History Output} {call : Call Output} {i network id : String}
    (h : ¬ call.IsAbout i network id) :
    (history.step call).results.get (OperationResults.key i network id) =
      history.results.get (OperationResults.key i network id) ∨
    history.results.evicted call = some (OperationResults.key i network id) := by
  cases call with
  | begin now i' network' id' conversation text =>
      have hkey : OperationResults.key i network id ≠ OperationResults.key i' network' id' := by
        intro hkey
        obtain ⟨hi, hnetwork, hid⟩ := OperationResults.key_inj hkey
        exact h ⟨hi.symm, hnetwork.symm, hid.symm⟩
      have hafter : (history.results.begin now i' network' id' conversation text).2.get
          (OperationResults.key i network id) = _ := OperationResults.get_begin hkey
      split at hafter
      next hevicted => exact .inr hevicted
      · exact .inl hafter
  | complete now name response =>
      exact .inl ((OperationResults.get_complete history.results now name response).1
        fun hkey => h hkey.symm)
  | error now name code message =>
      exact .inl ((OperationResults.get_error history.results now name code message).1
        fun hkey => h hkey.symm)
  | restore details networkFor =>
      refine .inl (OperationResults.get_restore_of_ne networkFor ?_)
      intro detail hdetail hkey
      obtain ⟨hi, hnetwork, hid⟩ := OperationResults.key_inj hkey
      exact h ⟨detail, hdetail, hi.symm, hnetwork.symm, hid.symm⟩

/-! ### Deliveries -/

/-- The delivered responses are those that are marked and those whose mark was dropped. -/
structure Counted (history : History Output) : Prop where
  nodup : history.answered.Nodup
  mem : ∀ key, key ∈ history.answered ↔
    key ∈ history.results.delivered ∨ key ∈ history.forgotten
  apart : ∀ key ∈ history.forgotten, key ∉ history.results.delivered

theorem counted_start : Counted (History.start : History Output) where
  nodup := List.nodup_nil
  mem key := by simp [History.start, OperationResults.clear]
  apart := nofun

theorem delivered_begin (results : OperationResults Output) (now : ℕ) (i network id : String)
    (conversation text : Option String) :
    (results.begin now i network id conversation text).2.delivered =
      results.delivered.filter fun key =>
        results.evicted (.begin now i network id conversation text) ≠ some key := by
  rw [OperationResults.evicted]
  cases hget : results.get (OperationResults.key i network id) with
  | some old =>
      rw [OperationResults.begin_of_some hget]
      simp
  | none =>
      obtain ⟨record, -, hbegin⟩ := OperationResults.begin_of_none hget now conversation text
      rw [hbegin]
      cases results.oldest with
      | none => simp
      | some oldest =>
          dsimp only
          refine List.filter_congr fun key _ => ?_
          rw [Bool.eq_iff_iff, bne_iff_ne, decide_eq_true_iff, Option.map_some, Ne, Ne,
            Option.some.injEq, eq_comm]

theorem counted_of_quiet {history : History Output} {call : Call Output} (h : Counted history)
    (hanswer : answer history.results call = none)
    (hevicted : history.results.evicted call = none)
    (hdelivered : (step history.results call).delivered = history.results.delivered) :
    Counted (history.step call) := by
  have hanswered : (history.step call).answered = history.answered := by
    rw [History.step, hanswer, Option.toList_none, List.append_nil]
  have hforgotten : (history.step call).forgotten = history.forgotten := by
    rw [History.step, History.forgets, hevicted, Option.filter_none, Option.toList_none,
      List.append_nil]
  have hresults : (history.step call).results.delivered = history.results.delivered := hdelivered
  refine ⟨?_, ?_, ?_⟩
  · rw [hanswered]
    exact h.nodup
  · rw [hanswered, hforgotten, hresults]
    exact h.mem
  · rw [hforgotten, hresults]
    exact h.apart

/-- A beginning moves the mark of the dropped record to the forgotten ones. -/
theorem counted_begin {history : History Output} (h : Counted history) (now : ℕ)
    (i network id : String) (conversation text : Option String) :
    Counted (history.step (.begin now i network id conversation text)) := by
  have hanswered : (history.step (.begin now i network id conversation text)).answered =
      history.answered := List.append_nil _
  have hdelivered := delivered_begin history.results now i network id conversation text
  have hforgotten : ∀ key,
      key ∈ (history.step (.begin now i network id conversation text)).forgotten ↔
        key ∈ history.forgotten ∨ key ∈ history.results.delivered ∧
          history.results.evicted (.begin now i network id conversation text) = some key := by
    intro key
    simp only [History.step, History.forgets, List.mem_append, Option.mem_toList,
      Option.filter_eq_some_iff, List.contains_iff_mem]
    exact or_congr Iff.rfl and_comm
  have hmem : ∀ key,
      key ∈ (history.step (.begin now i network id conversation text)).results.delivered ↔
        key ∈ history.results.delivered ∧
          history.results.evicted (.begin now i network id conversation text) ≠ some key := by
    intro key
    refine Iff.trans (iff_of_eq (congrArg (key ∈ ·) hdelivered)) ?_
    rw [List.mem_filter, decide_eq_true_iff]
  refine ⟨?_, fun key => ?_, fun key hkey => ?_⟩
  · rw [hanswered]
    exact h.nodup
  · rw [hanswered, h.mem, hforgotten, hmem]
    by_cases hevicted :
      history.results.evicted (.begin now i network id conversation text) = some key
    · simp [hevicted, or_comm]
    · simp [hevicted]
  · rw [hmem]
    rintro ⟨hdelivered, hkept⟩
    rcases (hforgotten key).mp hkey with hold | ⟨-, hevicted⟩
    · exact h.apart key hold hdelivered
    · exact hkept hevicted

theorem answered_complete {history : History Output} {key : String}
    {old : OperationResult Output} (hget : history.results.get key = some old)
    (hmark : key ∉ history.results.delivered) (now : ℕ) (response : Response Output) :
    (history.step (.complete now key response)).answered = history.answered ++ [key] := by
  have hcontains : history.results.delivered.contains key = false := by
    rw [Bool.eq_false_iff, Ne, List.contains_iff_mem]
    exact hmark
  rw [History.step, answer, (OperationResults.complete_marks hget now response).1, hcontains]
  rfl

theorem counted_complete {history : History Output} (h : Counted history) (now : ℕ) (key : String)
    (response : Response Output) (hkey : key ∈ history.forgotten → history.results.get key = none) :
    Counted (history.step (.complete now key response)) := by
  cases hget : history.results.get key with
  | none =>
      have hquiet := OperationResults.complete_of_none hget now response
      refine counted_of_quiet h ?_ rfl ?_
      · rw [answer, hquiet]
        rfl
      · rw [step, hquiet]
  | some old =>
      obtain ⟨hresult, hdelivered⟩ := OperationResults.complete_marks hget now response
      by_cases hmark : key ∈ history.results.delivered
      · refine counted_of_quiet h ?_ rfl ?_
        · rw [answer, hresult, List.contains_iff_mem.mpr hmark]
          rfl
        · rw [step, hdelivered, List.insert_of_mem hmark]
      · have hnew : key ∉ history.forgotten := by
          intro hforgotten
          rw [hget] at hkey
          cases hkey hforgotten
        have hanswered := answered_complete hget hmark now response
        have hforgotten : (history.step (.complete now key response)).forgotten =
            history.forgotten := List.append_nil _
        have hmem : ∀ name,
            name ∈ (history.step (.complete now key response)).results.delivered ↔
              name = key ∨ name ∈ history.results.delivered := by
          intro name
          refine Iff.trans (iff_of_eq (congrArg (name ∈ ·) hdelivered)) ?_
          exact List.mem_insert_iff
        refine ⟨?_, fun name => ?_, fun name hname => ?_⟩
        · rw [hanswered, List.nodup_append_comm, List.singleton_append, List.nodup_cons, h.mem]
          exact ⟨not_or.mpr ⟨hmark, hnew⟩, h.nodup⟩
        · rw [hanswered, hforgotten, hmem, List.mem_append, List.mem_singleton, h.mem]
          tauto
        · rw [hmem]
          rw [hforgotten] at hname
          rintro (rfl | hdelivered)
          · exact hnew hname
          · exact h.apart name hname hdelivered

theorem counted_step {history : History Output} (h : Counted history) {call : Call Output}
    (hadmits : history.Admits call) : Counted (history.step call) := by
  cases call with
  | begin now i network id conversation text =>
      exact counted_begin h now i network id conversation text
  | complete now key response => exact counted_complete h now key response hadmits
  | error now key code message =>
      refine counted_of_quiet h rfl rfl ?_
      rw [step, OperationResults.error]
      split
      · rfl
      · split
        · rfl
        · rfl
  | restore details networkFor =>
      exact counted_of_quiet h rfl rfl
        (OperationResults.delivered_restore networkFor _ details)

/-- A response for a record that is back is delivered again. -/
theorem answered_twice {history : History Output} (h : Counted history) {call : Call Output}
    (hadmits : ¬ history.Admits call) : ¬ (history.step call).answered.Nodup := by
  cases call with
  | begin now i network id conversation text => exact absurd trivial hadmits
  | complete now key response =>
      obtain ⟨hforgotten, hback⟩ := Classical.not_imp.mp hadmits
      obtain ⟨old, hget⟩ := Option.ne_none_iff_exists'.mp hback
      rw [answered_complete hget (h.apart key hforgotten), List.nodup_append_comm,
        List.singleton_append, List.nodup_cons, h.mem]
      exact fun hnodup => hnodup.1 (.inr hforgotten)
  | error now key code message => exact absurd trivial hadmits
  | restore details networkFor => exact absurd trivial hadmits

/-! ### Runs -/

theorem complete_run {calls : List (Call Output)} {key : String} {m n : ℕ} (hmn : m ≤ n)
    (h : Complete (History.run (calls.take m)) key)
    (hpresent : ∀ i, m ≤ i → i ≤ n → (History.run (calls.take i)).results.get key ≠ none) :
    Complete (History.run (calls.take n)) key := by
  induction n, hmn using Nat.le_induction with
  | base => exact h
  | succ n hmn ih =>
      have hbefore := ih fun i hi hin => hpresent i hi (Nat.le_succ_of_le hin)
      cases hcall : calls[n]? with
      | none =>
          have hlength := List.getElem?_eq_none_iff.mp hcall
          rw [List.take_of_length_le hlength] at hbefore
          rwa [List.take_of_length_le (Nat.le_succ_of_le hlength)]
      | some call =>
          have hafter := hpresent (n + 1) (Nat.le_succ_of_le hmn) le_rfl
          rw [run_succ hcall] at hafter ⊢
          exact (complete_step hbefore call).resolve_left hafter

/-- Results settle in exactly the runs without a response for a record that is back after its
delivered response was dropped at the limit. -/
theorem results_settle (calls : List (Call Output)) :
    Settled calls ↔ ∀ (n : ℕ) (call : Call Output), calls[n]? = some call →
      (History.run (calls.take n)).Admits call := by
  have honce : (∀ n, (History.run (calls.take n)).answered.Nodup) ↔
      ∀ (n : ℕ) (call : Call Output), calls[n]? = some call →
        (History.run (calls.take n)).Admits call :=
    Machine.forall_take_iff_of (A := fun _ _ => True) counted_start (fun _ h => h.nodup)
      (fun _ _ h _ hadmits => counted_step h hadmits)
      (fun _ _ h _ hadmits => answered_twice h hadmits) (fun _ _ _ => trivial)
  rw [← honce]
  refine ⟨fun h => h.once, fun h => ⟨?_, ?_, h, ?_⟩⟩
  · intro key m n hmn hcomplete hpresent
    exact complete_run hmn hcomplete hpresent
  · intro n details networkFor hcall key record hget hstate
    rw [run_succ hcall]
    exact OperationResults.get_restore_of_complete networkFor hget hstate details
  · intro n call hcall i network id habout
    rw [run_succ hcall]
    exact step_apart habout

/-! ### A result that is delivered twice -/

namespace Sample

def instanceId : String := "instance"

/-- The key of the operation that is delivered, and of the other operations. -/
def key : String := OperationResults.key instanceId "network" "one"

def other (i : ℕ) : String := String.ofList (List.replicate i 'b')

def response : Response Unit := .applied none none

def detail : OperationDetail Unit :=
  ⟨some "network", "one", instanceId, none, "/invite", 1, "complete", none, none⟩

def beginOther (i : ℕ) : Call Unit := .begin 2 instanceId "other" (other i) none none

/-- A delivered result, and enough operations to drop it. -/
def filled (n : ℕ) : List (Call Unit) :=
  [.begin 1 instanceId "network" "one" none none, .complete 1 key response] ++
    (List.range n).map beginOther

def calls : List (Call Unit) :=
  filled 256 ++ [.restore [detail] fun _ _ => "", .complete 3 key response]

end Sample

theorem other_inj {i j : ℕ} (h : OperationResults.key Sample.instanceId "other" (Sample.other i) =
    OperationResults.key Sample.instanceId "other" (Sample.other j)) : i = j := by
  have hchars := String.ofList_injective (OperationResults.key_inj h).2.2
  simpa using congrArg List.length hchars

theorem other_ne (i : ℕ) :
    OperationResults.key Sample.instanceId "other" (Sample.other i) ≠ Sample.key := by
  intro h
  exact absurd (OperationResults.key_inj h).2.1 (by decide)

theorem set_of_lookup_none {key : String} {record : OperationResult Output}
    {records : List (String × OperationResult Output)} (h : records.lookup key = none) :
    OperationResults.set key record records = records ++ [(key, record)] := by
  induction records with
  | nil => rfl
  | cons entry records ih =>
      obtain ⟨name, other⟩ := entry
      rw [List.lookup_cons] at h
      cases hname : key == name with
      | true =>
          rw [hname] at h
          cases h
      | false =>
          rw [hname] at h
          have hne : name ≠ key := fun heq => beq_eq_false_iff_ne.mp hname heq.symm
          rw [OperationResults.set, if_neg hne, ih h, List.cons_append]

/-- The delivered result is the first of the records, and the others follow. -/
structure Filled (n : ℕ) (history : History Unit) (record : OperationResult Unit) : Prop where
  records : ∃ others, history.results.records = (Sample.key, record) :: others ∧
    others.length = n ∧ ∀ entry ∈ others, ∃ i < n,
      entry.1 = OperationResults.key Sample.instanceId "other" (Sample.other i)
  state : record.state = .complete
  key : record.key = Sample.key
  delivered : history.results.delivered = [Sample.key]
  answered : history.answered = [Sample.key]
  forgotten : history.forgotten = []

theorem Filled.get {n : ℕ} {history : History Unit} {record : OperationResult Unit}
    (h : Filled n history record) {m : ℕ} (hm : n ≤ m) :
    history.results.get (OperationResults.key Sample.instanceId "other" (Sample.other m)) =
      none := by
  obtain ⟨others, hrecords, -, hothers⟩ := h.records
  rw [OperationResults.get, hrecords, List.lookup_cons, beq_eq_false_iff_ne.mpr (other_ne m),
    List.lookup_eq_none_iff]
  intro entry hentry
  obtain ⟨i, hi, hkey⟩ := hothers entry hentry
  rw [hkey, bne_iff_ne]
  intro heq
  exact absurd (other_inj heq) (by omega)

theorem filled_start : ∃ record, Filled 0 (History.run (Sample.filled 0)) record := by
  have hnone : (History.start : History Unit).results.get
      (OperationResults.key Sample.instanceId "network" "one") = none := rfl
  obtain ⟨first, hfirst, hbegin⟩ := OperationResults.begin_of_none hnone 1 none none
  have hone : (OperationResults.mk [(Sample.key, first)] []).get Sample.key = some first :=
    List.lookup_cons_self
  obtain ⟨record, hstate, hkey, hcomplete⟩ :=
    OperationResults.complete_of_some hone 1 Sample.response
  have hset : OperationResults.set Sample.key record [(Sample.key, first)] =
      [(Sample.key, record)] := if_pos rfl
  have hresults : Results.step (History.start : History Unit).results
      (.begin 1 Sample.instanceId "network" "one" none none) =
        ⟨[(Sample.key, first)], []⟩ := congrArg Prod.snd hbegin
  have hrun : History.run (Sample.filled 0) =
      (⟨⟨[(Sample.key, record)], [Sample.key]⟩, [Sample.key], []⟩ : History Unit) := by
    rw [Sample.filled, List.range_zero, List.map_nil, List.append_nil, History.run,
      List.foldl_cons, List.foldl_cons, List.foldl_nil, History.step, History.step, hresults]
    dsimp only
    rw [step, answer, hcomplete, hset]
    rfl
  rw [hrun]
  exact ⟨record, ⟨[], rfl, rfl, fun _ hmem => absurd hmem List.not_mem_nil⟩, hstate,
    hkey.trans hfirst, rfl, rfl, rfl⟩

theorem filled_succ {n : ℕ} {history : History Unit} {record : OperationResult Unit}
    (h : Filled n history record) (hn : n < 255) :
    Filled (n + 1) (history.step (Sample.beginOther n)) record := by
  obtain ⟨others, hrecords, hlength, hothers⟩ := h.records
  have hget := h.get le_rfl
  have holdest : history.results.oldest = none := by
    rw [OperationResults.oldest, if_neg]
    rw [hrecords, List.length_cons, hlength]
    omega
  have hevicted : history.results.evicted (Sample.beginOther n) = none := by
    rw [Sample.beginOther, OperationResults.evicted, hget, holdest]
    rfl
  obtain ⟨new, -, hbegin⟩ := OperationResults.begin_of_none hget 2 none none
  rw [holdest] at hbegin
  have hstep : (history.step (Sample.beginOther n)).results =
      ⟨OperationResults.set _ new history.results.records, history.results.delivered⟩ :=
    congrArg Prod.snd hbegin
  refine ⟨⟨others ++ [(OperationResults.key Sample.instanceId "other" (Sample.other n), new)],
    ?_, ?_, ?_⟩, h.state, h.key, ?_, ?_, ?_⟩
  · rw [hstep, set_of_lookup_none hget, hrecords, List.cons_append]
  · rw [List.length_append, hlength, List.length_singleton]
  · intro entry hentry
    rcases List.mem_append.mp hentry with hentry | hentry
    · obtain ⟨i, hi, hkey⟩ := hothers entry hentry
      exact ⟨i, Nat.lt_succ_of_lt hi, hkey⟩
    · rw [List.mem_singleton.mp hentry]
      exact ⟨n, Nat.lt_succ_self n, rfl⟩
  · rw [hstep]
    exact h.delivered
  · exact (List.append_nil _).trans h.answered
  · rw [History.step, History.forgets, hevicted, h.forgotten]
    rfl

theorem filled_run {n : ℕ} (hn : n ≤ 255) :
    ∃ record, Filled n (History.run (Sample.filled n)) record := by
  induction n with
  | zero => exact filled_start
  | succ n ih =>
      obtain ⟨record, h⟩ := ih (Nat.le_of_succ_le hn)
      refine ⟨record, ?_⟩
      have hrun : History.run (Sample.filled (n + 1)) =
          (History.run (Sample.filled n)).step (Sample.beginOther n) := by
        rw [Sample.filled, List.range_succ, List.map_append, ← List.append_assoc, ← Sample.filled,
          History.run, List.foldl_append]
        rfl
      rw [hrun]
      exact filled_succ h hn

/-- With enough records the delivered one is dropped, the journal brings it back, and its response
is delivered again. -/
theorem answered_of_filled {n : ℕ} {history : History Unit} {record : OperationResult Unit}
    (h : Filled n history record) (hn : 255 ≤ n) :
    (((history.step (Sample.beginOther n)).step
      (.restore [Sample.detail] fun _ _ => "")).step
        (.complete 3 Sample.key Sample.response)).answered = [Sample.key, Sample.key] := by
  obtain ⟨others, hrecords, hlength, -⟩ := h.records
  have hget := h.get le_rfl
  have holdest : history.results.oldest = some record := by
    rw [OperationResults.oldest, if_pos]
    · rw [hrecords, List.map_cons, List.find?_cons_of_pos]
      exact decide_eq_true h.state
    · rw [hrecords, List.length_cons, hlength]
      omega
  have hevicted : history.results.evicted (Sample.beginOther n) = some Sample.key := by
    rw [Sample.beginOther, OperationResults.evicted, hget, holdest, Option.map_some, h.key]
  have hdropped : (history.step (Sample.beginOther n)).results.get Sample.key = none :=
    (OperationResults.get_begin (other_ne n).symm).trans (if_pos hevicted)
  have hmarks : (history.step (Sample.beginOther n)).results.delivered = [] := by
    refine (delivered_begin history.results 2 Sample.instanceId "other" (Sample.other n) none
      none).trans ?_
    rw [h.delivered, List.filter_cons_of_neg, List.filter_nil]
    rw [decide_eq_true_iff]
    exact not_not_intro hevicted
  have hanswered : (history.step (Sample.beginOther n)).answered = [Sample.key] :=
    (List.append_nil _).trans h.answered
  generalize history.step (Sample.beginOther n) = dropped at hdropped hmarks hanswered
  have hkey : OperationResults.detailKey (fun _ _ => "") Sample.detail = Sample.key := rfl
  rw [← hkey] at hdropped
  obtain ⟨back, hback⟩ := OperationResults.get_restoreDetail_of_none _ hdropped
  rw [hkey] at hback
  have hrestored := OperationResults.delivered_restore (fun _ _ => "") dropped.results
    [Sample.detail]
  rw [answered_complete hback]
  · exact congrArg (· ++ [Sample.key]) ((List.append_nil _).trans hanswered)
  · refine fun hmem => ?_
    have hmem' := (iff_of_eq (congrArg (Sample.key ∈ ·) (hrestored.trans hmarks))).mp hmem
    exact absurd hmem' List.not_mem_nil

theorem dropped_result_returns : ¬ Settled Sample.calls := by
  intro hsettled
  obtain ⟨record, h⟩ := filled_run (le_refl 255)
  have hrun : ∀ n, History.run (Sample.filled (n + 1) ++
      [.restore [Sample.detail] fun _ _ => "", .complete 3 Sample.key Sample.response]) =
        (((History.run (Sample.filled n)).step (Sample.beginOther n)).step
          (.restore [Sample.detail] fun _ _ => "")).step
            (.complete 3 Sample.key Sample.response) := by
    intro n
    have hfilled : Sample.filled (n + 1) = Sample.filled n ++ [Sample.beginOther n] := by
      rw [Sample.filled, Sample.filled, List.range_succ, List.map_append, ← List.append_assoc,
        List.map_cons, List.map_nil]
    rw [hfilled, History.run, List.foldl_append, List.foldl_append]
    simp only [List.foldl_cons, List.foldl_nil]
    rw [← History.run]
  have honce := hsettled.once Sample.calls.length
  rw [List.take_length, Sample.calls, hrun, answered_of_filled h le_rfl] at honce
  exact absurd honce (by simp)

end Results

end GChat
