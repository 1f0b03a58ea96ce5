import GChat.Commands.Redaction
import GChat.Service.Saved

/-!
# Secrets in the service state

Two submissions that differ in a secret leave the same state, but for the digest of their
record, exactly if recall recognizes the command. What was redacted once is not changed when
the profile is unlocked again.
-/

namespace GChat

namespace Service

open Foundation Api Store Commands

section Definitions

variable {Key Rest : Type}

/-- The journal without the digest of an operation. -/
def forgetDigest (id : String) (operations : Journal.Operations) : Journal.Operations :=
  match operations[id]? with
  | none => operations
  | some record => operations.insert id { record with digest := "" }

def UiState.forgetDigest (state : UiState Rest) (id : String) : UiState Rest :=
  { state with operations := Service.forgetDigest id state.operations }

/-- A submission that was admitted, executed with this response, and recorded. -/
def Env.Records (env : Env Key Rest) (s u : Unlocked Key Rest) (now : ℕ) (admitted : Bool)
    (request : Journal.Submit) (response : Response) (own : List OwnMessage) : Prop :=
  ∃ operations t first second io,
    env.host.decide now admitted request s.state.operations = .ok (.accept operations) ∧
    env.submit s now admitted request first second = (t, .ok ()) ∧
    env.finish t request response own io = (u, .ok ())

end Definitions

section States

variable {Key Rest : Type} {env : Env Key Rest} {s s' t u u' : Unlocked Key Rest} {now : ℕ}
  {admitted : Bool} {response : Response} {own : List OwnMessage} {request : Journal.Submit}
  {operations : Journal.Operations} {first second io : SaveIo} {id : String}

/-! ### What a submission leaves -/

theorem submit_state (hdecide : env.host.decide now admitted request s.state.operations =
      .ok (.accept operations)) (h : env.submit s now admitted request first second = (t, .ok ())) :
    t.state = { s.state with operations := Journal.describe request operations } := by
  have hpersist : ∀ (v : Unlocked Key Rest) (io : SaveIo), (env.persist v io).1.state = v.state :=
    fun v io => rfl
  unfold Env.submit at h
  rw [hdecide] at h
  dsimp only at h
  cases hfirst : env.saveAdmission (s.setOperations operations) admitted first with
  | mk v result =>
      have hv : v.state = (s.setOperations operations).state := by
        have hsaved : (env.saveAdmission (s.setOperations operations) admitted first).1.state =
            (s.setOperations operations).state := by
          unfold Env.saveAdmission
          split
          · rfl
          · exact hpersist _ _
        rwa [hfirst] at hsaved
      rw [hfirst] at h
      cases result with
      | error message => cases h
      | ok _ =>
          dsimp only at h
          have hw := hpersist (v.setOperations (Journal.describe request operations)) second
          cases hsecond : env.persist (v.setOperations (Journal.describe request operations))
              second with
          | mk w result =>
              rw [hsecond] at h hw
              cases result with
              | error message => cases h
              | ok _ =>
                  have hwt : w = t := congrArg Prod.fst h
                  rw [← hwt, hw, Unlocked.setOperations, hv]
                  rfl

theorem finish_state (h : env.finish t request response own io = (u, .ok ())) :
    ∃ record, t.state.operations[request.operationId]? = some record ∧
      u.state = t.state.respond request record response own := by
  unfold Env.finish at h
  cases hrecord : t.state.operations[request.operationId]? with
  | none =>
      rw [hrecord] at h
      cases h
  | some record =>
      rw [hrecord] at h
      refine ⟨record, rfl, ?_⟩
      dsimp only at h
      cases hsave : t.store.save env.cipher env.codec env.formats
          (t.state.respond request record response own) io with
      | mk store result =>
          cases result with
          | error message =>
              rw [Env.commit, hsave] at h
              cases h
          | ok _ =>
              rw [Env.commit, hsave] at h
              cases h
              rfl

/-- The record of a submission before it is described. -/
theorem decide_accept (h : env.host.decide now admitted request s.state.operations =
      .ok (.accept operations)) :
    (∃ previous, s.state.operations[request.operationId]? = some previous ∧
      operations = s.state.operations) ∨
    s.state.operations[request.operationId]? = none ∧
      operations = (Journal.prune Journal.week now s.state.operations).insert request.operationId
        (.new (env.host.digest request.conversation request.text) now none) := by
  unfold Journal.Host.decide at h
  obtain ⟨_, -, h⟩ := bind_eq_ok.mp h
  obtain ⟨_, -, h⟩ := bind_eq_ok.mp h
  dsimp only at h
  cases hprevious : s.state.operations[request.operationId]? with
  | some previous =>
      rw [hprevious] at h
      obtain ⟨_, -, h⟩ := bind_eq_ok.mp h
      split at h
      · cases h
      · cases h
        exact Or.inl ⟨previous, rfl, rfl⟩
  | none =>
      rw [hprevious] at h
      obtain ⟨_, -, h⟩ := bind_eq_ok.mp h
      split at h
      · cases h
      · cases h
        exact Or.inr ⟨rfl, rfl⟩

/-- The journal in which a submission is entered, and its record there. -/
def entering (now : ℕ) (operations : Journal.Operations) (id digest : String) :
    Journal.Operations × Journal.OperationRecord :=
  match operations[id]? with
  | some previous => (operations, previous)
  | none => (Journal.prune Journal.week now operations, .new digest now none)

/-- The record of a submission that ran. -/
def finished (record : Journal.OperationRecord) (request : Journal.Submit)
    (response : Response) : Journal.OperationRecord :=
  { record with
    action := Journal.actionName request.text
    conversation := request.conversation
    response := some (Journal.retainedResponse response) }

/-- The state with what was kept of a text. -/
def UiState.keep (state : UiState Rest) (own : List OwnMessage) (conversation : Option String)
    (text : String) (operations : Journal.Operations) : UiState Rest :=
  { state with
    messageMetadata := observeMessages state.messageMetadata own
    commandHistory := pushRecall state.commandHistory text
    inputHistory := pushRecall state.inputHistory ⟨conversation, text⟩
    operations := operations }

/-- The state that a submission leaves. -/
def UiState.recorded (state : UiState Rest) (now : ℕ) (digest : String)
    (request : Journal.Submit) (response : Response) (own : List OwnMessage) : UiState Rest :=
  let entered := entering now state.operations request.operationId digest
  state.keep own request.conversation (recallText request.text)
    (entered.1.insert request.operationId (finished entered.2 request response))

theorem records_state (h : env.Records s u now admitted request response own) :
    u.state = s.state.recorded now (env.host.digest request.conversation request.text) request
      response own := by
  obtain ⟨operations, t, first, second, io, hdecide, hsubmit, hfinish⟩ := h
  have ht := submit_state hdecide hsubmit
  obtain ⟨record, hrecord, hu⟩ := finish_state hfinish
  rw [ht] at hrecord hu
  dsimp only at hrecord
  obtain ⟨previous, hprevious, rfl⟩ | ⟨hnone, rfl⟩ := decide_accept hdecide
  · rw [Journal.describe, hprevious] at hrecord hu
    dsimp only at hrecord
    rw [StringMap.get_insert_self] at hrecord
    cases hrecord
    rw [hu, UiState.recorded, entering, hprevious]
    simp only [UiState.respond, StringMap.insert_insert]
    rfl
  · rw [Journal.describe, StringMap.get_insert_self] at hrecord hu
    dsimp only at hrecord
    rw [StringMap.get_insert_self] at hrecord
    cases hrecord
    rw [hu, UiState.recorded, entering, hnone]
    simp only [UiState.respond, StringMap.insert_insert]
    rfl

/-! ### Two submissions -/

theorem forgetDigest_insert (id : String) (operations : Journal.Operations)
    (record : Journal.OperationRecord) :
    forgetDigest id (operations.insert id record) =
      operations.insert id { record with digest := "" } := by
  rw [forgetDigest, StringMap.get_insert_self]
  exact StringMap.insert_insert _ _ _ _

/-- A journal is what is left of it with the record that was forgotten. -/
theorem insert_forgetDigest (id : String) (operations : Journal.Operations)
    (record : Journal.OperationRecord) :
    (forgetDigest id operations).insert id record = operations.insert id record := by
  unfold forgetDigest
  cases operations[id]? with
  | none => rfl
  | some previous => exact StringMap.insert_insert _ _ _ _

theorem get_forgetDigest (id : String) (operations : Journal.Operations) :
    (forgetDigest id operations)[id]? =
      operations[id]?.map fun record => { record with digest := "" } := by
  unfold forgetDigest
  cases h : operations[id]? with
  | none => exact h
  | some previous => exact StringMap.get_insert_self _ _ _

theorem forgetDigest_of_none {operations : Journal.Operations} (h : operations[id]? = none) :
    forgetDigest id operations = operations := by
  rw [forgetDigest, h]

/-- Journals that differ in the digest of a record have the same record entered. -/
theorem entering_same (now : ℕ) {operations operations' : Journal.Operations}
    (digest digest' : String) (h : forgetDigest id operations = forgetDigest id operations') :
    (∀ record, (entering now operations id digest).1.insert id record =
      (entering now operations' id digest').1.insert id record) ∧
    ({ (entering now operations id digest).2 with digest := "" } : Journal.OperationRecord) =
      { (entering now operations' id digest').2 with digest := "" } := by
  have hget := congrArg (fun m : Journal.Operations => m[id]?) h
  simp only [get_forgetDigest] at hget
  unfold entering
  cases hold : operations[id]? with
  | none =>
      rw [hold] at hget
      have hold' : operations'[id]? = none := Option.map_eq_none_iff.mp hget.symm
      rw [forgetDigest_of_none hold, forgetDigest_of_none hold'] at h
      rw [hold', h]
      exact ⟨fun _ => rfl, rfl⟩
  | some previous =>
      rw [hold] at hget
      obtain ⟨previous', hold', hrecord⟩ := Option.map_eq_some_iff.mp hget.symm
      rw [hold']
      refine ⟨fun record => ?_, hrecord.symm⟩
      dsimp only
      rw [← insert_forgetDigest, h, insert_forgetDigest]

theorem getLast?_pushRecall {α : Type} (history : List α) (entry : α) :
    (pushRecall history entry).getLast? = some entry := by
  unfold pushRecall
  dsimp only
  split
  next hlong =>
    cases history with
    | nil => simp [historyLimit] at hlong
    | cons first history => simp
  next => simp

/-- Two submissions leave the same but for the digest exactly if the same is kept of them. -/
theorem recorded_iff {operationId text text' digest digest' : String}
    {conversation : Option String} {state state' : UiState Rest}
    (hsame : state.forgetDigest operationId = state'.forgetDigest operationId)
    (haction : Journal.actionName text' = Journal.actionName text) :
    (state.recorded now digest ⟨operationId, conversation, text⟩ response own).forgetDigest
        operationId =
      (state'.recorded now digest' ⟨operationId, conversation, text'⟩ response own).forgetDigest
        operationId ↔ recallText text = recallText text' := by
  have hoperations : forgetDigest operationId state.operations =
      forgetDigest operationId state'.operations :=
    congrArg (fun x : UiState Rest => x.operations) hsame
  obtain ⟨hentered, hrecord⟩ := entering_same now digest digest' hoperations
  constructor
  · intro h
    have hpushed := congrArg (fun x : UiState Rest => x.commandHistory.getLast?) h
    simpa only [UiState.forgetDigest, UiState.recorded, UiState.keep, getLast?_pushRecall,
      Option.some.injEq] using hpushed
  · intro h
    have hjournal : forgetDigest operationId
          ((entering now state.operations operationId digest).1.insert operationId
            (finished (entering now state.operations operationId digest).2
              ⟨operationId, conversation, text⟩ response)) =
        forgetDigest operationId
          ((entering now state'.operations operationId digest').1.insert operationId
            (finished (entering now state'.operations operationId digest').2
              ⟨operationId, conversation, text'⟩ response)) := by
      have hfinished := congrArg (fun record : Journal.OperationRecord =>
        finished record ⟨operationId, conversation, text⟩ response) hrecord
      rw [forgetDigest_insert, forgetDigest_insert, hentered]
      simp only [finished] at hfinished ⊢
      rw [haction]
      exact congrArg _ hfinished
    calc (state.recorded now digest ⟨operationId, conversation, text⟩ response own).forgetDigest
          operationId
        = (state.forgetDigest operationId).keep own conversation (recallText text)
            (forgetDigest operationId
              ((entering now state.operations operationId digest).1.insert operationId
                (finished (entering now state.operations operationId digest).2
                  ⟨operationId, conversation, text⟩ response))) := rfl
      _ = (state'.forgetDigest operationId).keep own conversation (recallText text')
            (forgetDigest operationId
              ((entering now state'.operations operationId digest').1.insert operationId
                (finished (entering now state'.operations operationId digest').2
                  ⟨operationId, conversation, text'⟩ response))) := by rw [hsame, h, hjournal]
      _ = (state'.recorded now digest' ⟨operationId, conversation, text'⟩ response
            own).forgetDigest operationId := rfl

/-- In step with each other, two profiles keep no difference of two texts that differ in a
secret, but for the digest, exactly if white space does not detach the command from its slash.
Whatever is kept of a text is kept of that as it is, also when the profile is unlocked again. -/
theorem recall_keeps_no_secret {aliases : Aliases} {conversation : Option String}
    {text text' operationId : String} (htwins : Twins aliases conversation text text')
    (hne : text ≠ text')
    (hsame : s.state.forgetDigest operationId = s'.state.forgetDigest operationId)
    (h : env.Records s u now admitted ⟨operationId, conversation, text⟩ response own)
    (h' : env.Records s' u' now admitted ⟨operationId, conversation, text'⟩ response own) :
    (u.state.forgetDigest operationId = u'.state.forgetDigest operationId ↔ ¬Detached text) ∧
    (∀ text, recallText (recallText text) = recallText text) ∧
    ∀ (opening opening' : Opening) (state : Legacy Rest),
      (env.prepare opening' (env.prepare opening state)).commandHistory =
          (env.prepare opening state).commandHistory ∧
        (env.prepare opening' (env.prepare opening state)).inputHistory =
          (env.prepare opening state).inputHistory := by
  refine ⟨?_, recallText_idem, fun opening opening' state => ⟨?_, ?_⟩⟩
  · rw [records_state h, records_state h', recorded_iff hsame htwins.action,
      htwins.recall_iff hne]
  · simp [Env.prepare, recallText_idem]
  · simp [Env.prepare, recallText_idem]

end States

namespace Sample

/-! ### An invitation behind a slash and a space -/

def request (text : String) : Journal.Submit := ⟨"0123456789abcdef", none, text⟩

/-- The profile after a submission of the text. -/
def submission (text : String) (s : Unlocked Unit Unit) : Option (Unlocked Unit Unit) :=
  match env.host.decide 1000 false (request text) s.state.operations with
  | .ok (.accept _) =>
      match env.submit s 1000 false (request text) saveIo saveIo with
      | (t, .ok _) =>
          match env.finish t (request text) (.applied none none) [] saveIo with
          | (u, .ok _) => some u
          | (_, .error _) => none
      | (_, .error _) => none
  | _ => none

theorem submission_records {text : String} {s u : Unlocked Unit Unit}
    (h : submission text s = some u) :
    env.Records s u 1000 false (request text) (.applied none none) [] := by
  unfold submission at h
  split at h
  next operations hdecide =>
    split at h
    next t _ hsubmit =>
      split at h
      next v _ hfinish =>
        cases h
        exact ⟨operations, t, saveIo, saveIo, saveIo, hdecide, hsubmit, hfinish⟩
      next => cases h
    next => cases h
  next => cases h

/-- A command to join, with the white space that its slash is followed by. -/
def joining (space code : String) : String := "/" ++ space ++ "join gchat:" ++ code ++ " ann"

def response : Response := .applied none none

theorem attached_twins : Twins .empty none (joining "" "1111") (joining "" "2222") :=
  ⟨"/join ", .channel "join" "gchat:1111 ann", .channel "join" "gchat:2222 ann",
    by decide +kernel, by decide +kernel, by decide +kernel, by decide +kernel, rfl, rfl⟩

theorem detached_twins : Twins .empty none (joining " " "1111") (joining " " "2222") :=
  ⟨"/ join ", .channel "join" "gchat:1111 ann", .channel "join" "gchat:2222 ann",
    by decide +kernel, by decide +kernel, by decide +kernel, by decide +kernel, rfl, rfl⟩

end Sample

open Sample in
/-- Behind a slash and a space, the invitation is kept for recall. -/
theorem detached_invitation_kept : Twins .empty none (joining " " "1111") (joining " " "2222") ∧
    recallText (joining " " "1111") = joining " " "1111" ∧
    recallText (joining " " "2222") = joining " " "2222" ∧
    ∃ s u, env.unlock files opening = .ok s ∧ submission (joining " " "1111") s = some u ∧
      u.state.commandHistory = ["/ join gchat:1111 ann"] := by
  refine ⟨detached_twins, by decide +kernel, by decide +kernel, ?_⟩
  have hrun : (((env.unlock files opening).toOption.bind (submission (joining " " "1111"))).map
      (·.state.commandHistory)) = some ["/ join gchat:1111 ann"] := by decide +kernel
  exact run_of_map hrun

open Sample in
/-- Right behind its slash, it is not. -/
theorem sample_no_secret : ∃ s u u', submission (joining "" "1111") s = some u ∧
    submission (joining "" "2222") s = some u' ∧ u.state.commandHistory = ["/join "] ∧
    u.state.forgetDigest "0123456789abcdef" = u'.state.forgetDigest "0123456789abcdef" := by
  have hrun : (((env.unlock files opening).toOption.bind fun s =>
      (submission (joining "" "1111") s).bind fun u =>
        (submission (joining "" "2222") s).map fun u' => (s, u, u')).map
      fun r => r.2.1.state.commandHistory) = some ["/join "] := by decide +kernel
  obtain ⟨s, ⟨t, u, u'⟩, -, hr, hkept⟩ := run_of_map hrun
  obtain ⟨u, hu, hr⟩ := Option.bind_eq_some_iff.mp hr
  obtain ⟨u', hu', hr⟩ := Option.map_eq_some_iff.mp hr
  cases hr
  have hattached : ¬Detached (joining "" "1111") := by
    unfold Detached
    decide +kernel
  refine ⟨s, u, u', hu, hu', hkept, ?_⟩
  exact (recall_keeps_no_secret attached_twins (by decide) rfl (submission_records hu)
    (submission_records hu')).1.mpr hattached

end Service

end GChat
