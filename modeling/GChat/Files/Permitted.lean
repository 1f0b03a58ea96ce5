import GChat.Files.Model

/-!
# What a session may do with files

A session holds grants for channels, for contacts and for hosted channels. An operation on a file
reaches a cache only with the grant for the conversation of the file, and only if the other cache
has no file of that identifier.
-/

namespace GChat

namespace Files

open Foundation Dialect
open Unlock (Capability)

def ModernScope.capability : ModernScope → Capability
  | .hosted _ => .hostedChannels
  | .contact _ => .directMessage

/-- What was sent to a cache was permitted, and the other cache has no file of its identifier. -/
def Permitted (m : Setting) (request : FileRequest) (modern : Snapshot ModernScope) :
    Sent → Prop
  | .modern operation => ∀ id, operation.idOf = some id →
      (∃ legacy, m.conflictList = .ok (.snapshot legacy) ∧ ∀ f ∈ legacy.files, f.id ≠ id) ∧
      ∃ scope : ModernScope, m.grants scope.capability = true ∧
        ((∃ f ∈ modern.files, f.id = id ∧ f.scope = scope) ∨
          ∃ conversation name size bytes,
            request = .prepare (hex id.toList) conversation name size ∧
            modernScope m conversation = .ok (some scope) ∧
            operation = .prepare id scope name bytes)
  | .legacy operation => ∀ id, operation.idOf = some id →
      m.grants .channelMember = true ∧ ∀ f ∈ modern.files, f.id ≠ id

/-! ### Conversations -/

theorem fileCapability_contact {conversation : String}
    (h : Commands.isContact conversation = true) :
    fileCapability conversation = .directMessage := by
  rw [fileCapability, if_pos h]

theorem fileCapability_hosted {conversation : String}
    (hcontact : Commands.isContact conversation = false)
    (h : Commands.isHosted conversation = true) :
    fileCapability conversation = .hostedChannels := by
  rw [fileCapability, if_neg (by rw [hcontact]; exact Bool.false_ne_true), if_pos h]

theorem fileCapability_channel {conversation : String}
    (hcontact : Commands.isContact conversation = false)
    (h : Commands.isHosted conversation = false) :
    fileCapability conversation = .channelMember := by
  rw [fileCapability, if_neg (by rw [hcontact]; exact Bool.false_ne_true),
    if_neg (by rw [h]; exact Bool.false_ne_true)]

theorem isContact_contact (rest : String) : Commands.isContact ("contact/" ++ rest) = true := by
  rw [Commands.isContact, Commands.startsWith_iff, String.toList_append]
  exact List.prefix_append _ _

theorem isHosted_hosted (rest : String) : Commands.isHosted ("hosted/" ++ rest) = true := by
  rw [Commands.isHosted, Commands.startsWith_iff, String.toList_append]
  exact List.prefix_append _ _

theorem isContact_hosted (rest : String) : Commands.isContact ("hosted/" ++ rest) = false := by
  rw [Bool.eq_false_iff, Ne, Commands.isContact, Commands.startsWith_iff, String.toList_append]
  intro h
  have hhead := List.cons_prefix_cons.mp (h : 'c' :: _ <+: 'h' :: _)
  exact absurd hhead.1 (by decide)

/-- The conversation of a file asks for the grant of its scope. -/
theorem fileCapability_modern (scope : ModernScope) :
    fileCapability (modernConversation scope) = scope.capability := by
  cases scope with
  | hosted channel =>
      exact fileCapability_hosted (isContact_hosted _) (isHosted_hosted _)
  | contact peer => exact fileCapability_contact (isContact_contact _)

/-- A conversation belongs to the cache that its grant belongs to. -/
theorem modernScope_capability {m : Setting} {conversation : String} {scope : Option ModernScope}
    (h : modernScope m conversation = .ok scope) :
    fileCapability conversation = scope.elim .channelMember ModernScope.capability := by
  unfold modernScope at h
  cases hcontact : Commands.isContact conversation with
  | true =>
      rw [if_pos hcontact] at h
      cases hpeer : m.filePeer conversation with
      | error message =>
          rw [hpeer] at h
          cases h
      | ok peer =>
          rw [hpeer] at h
          cases h
          exact fileCapability_contact hcontact
  | false =>
      rw [if_neg (by rw [hcontact]; exact Bool.false_ne_true)] at h
      cases hhosted : Commands.isHosted conversation with
      | true =>
          rw [if_pos hhosted] at h
          cases hroom : okOr (m.hostedRoom conversation) "Channel is not active" with
          | error message =>
              rw [hroom] at h
              cases h
          | ok room =>
              rw [hroom] at h
              cases h
              exact fileCapability_hosted hcontact hhosted
      | false =>
          rw [if_neg (by rw [hhosted]; exact Bool.false_ne_true)] at h
          cases h
          exact fileCapability_channel hcontact hhosted

/-! ### Handles -/

theorem parseId_eq_ok {value : String} {id : ShareId} :
    parseId value = .ok id ↔ value = hex id.toList := by
  have hbytes : parseId value = .ok id ↔ Recovery.bytes 16 value.toList = .ok id := by
    unfold parseId
    cases Recovery.bytes 16 value.toList with
    | ok found => simp only [Except.ok.injEq]
    | error message =>
        constructor
        · intro h
          cases h
        · intro h
          cases h
  rw [hbytes, Recovery.bytes_eq_ok]
  constructor
  · intro h
    rw [hex, ← h, String.ofList_toList]
  · rintro rfl
    rw [hex, String.toList_ofList]

theorem hex_injective {n : ℕ} {a b : Bytes n} (h : hex a.toList = hex b.toList) : a = b :=
  Archive.bytes_eq_of_hexChars (String.ofList_injective h)

/-- A cache that does not have a handle has no file of its identifier. -/
theorem ne_of_hasFile {S : Type} {value : Snapshot S} {id : ShareId}
    (h : hasFile value (hex id.toList) = false) : ∀ f ∈ value.files, f.id ≠ id := by
  intro f hf heq
  have hall := List.any_eq_false.mp h f hf
  rw [heq, beq_self_eq_true] at hall
  exact hall rfl

theorem find?_of_hasFile {S : Type} {value : Snapshot S} {handle : String}
    (h : hasFile value handle = false) :
    value.files.find? (fun f => hex f.id.toList == handle) = none :=
  List.find?_eq_none.mpr fun f hf => List.any_eq_false.mp h f hf

theorem exists_of_hasFile {S : Type} {value : Snapshot S} {handle : String}
    (h : hasFile value handle = true) :
    ∃ f, value.files.find? (fun f => hex f.id.toList == handle) = some f := by
  rw [← Option.isSome_iff_exists, List.find?_isSome]
  exact List.any_eq_true.mp h

/-! ### Admission -/

section

variable {m : Setting} {request : FileRequest} {modern : Snapshot ModernScope}

theorem require_eq_ok {capability : Capability} {u : Unit}
    (h : require m capability = .ok u) : m.grants capability = true := by
  rw [require, refuse_eq_ok, Bool.not_eq_false'] at h
  exact h

theorem admitRequest_eq_ok {quota : ℕ} {operation : Option (Operation ModernScope)}
    (h : admitRequest m request quota = .ok (modern, operation)) :
    m.modernList = .ok modern ∧ requireFor m modern request = .ok () ∧
      modernOperation m modern request = .ok operation := by
  unfold admitRequest at h
  obtain ⟨_, -, h⟩ := bind_eq_ok.mp h
  obtain ⟨_, -, h⟩ := bind_eq_ok.mp h
  obtain ⟨_, -, h⟩ := bind_eq_ok.mp h
  obtain ⟨listed, hlisted, h⟩ := bind_eq_ok.mp h
  obtain ⟨_, hrequire, h⟩ := bind_eq_ok.mp h
  dsimp only at h
  split at h
  next =>
    obtain ⟨_, -, h⟩ := bind_eq_ok.mp h
    obtain ⟨_, -, h⟩ := bind_eq_ok.mp h
    obtain ⟨chosen, hchosen, h⟩ := bind_eq_ok.mp h
    cases h
    exact ⟨hlisted, hrequire, hchosen⟩
  next =>
    obtain ⟨chosen, hchosen, h⟩ := bind_eq_ok.mp h
    cases h
    exact ⟨hlisted, hrequire, hchosen⟩

theorem requireFor_handle {handle : String} (h : handleOf request = some handle) :
    requireFor m modern request = require m (((modern.files.find? fun f =>
      hex f.id.toList == handle).map fun f =>
        fileCapability (modernConversation f.scope)).getD .channelMember) := by
  cases request <;> cases h <;> rfl

theorem modernOperation_handle {handle : String} (h : handleOf request = some handle) :
    modernOperation m modern request = if hasFile modern handle then
      (parseId handle).map fun id => some (operationOf request id) else .ok none := by
  cases request <;> cases h <;> rfl

theorem idOf_operationOf {S : Type} (id : ShareId) :
    (operationOf request id : Operation S).idOf = some id := by
  cases request <;> rfl

/-- The operation that is chosen for the cache of contacts and hosted channels has the grant for
its conversation. -/
theorem modernOperation_permitted {operation : Operation ModernScope}
    (hrequire : requireFor m modern request = .ok ())
    (h : modernOperation m modern request = .ok (some operation)) :
    ∀ id, operation.idOf = some id → ∃ scope : ModernScope, m.grants scope.capability = true ∧
      ((∃ f ∈ modern.files, f.id = id ∧ f.scope = scope) ∨
        ∃ conversation name size bytes,
          request = .prepare (hex id.toList) conversation name size ∧
          modernScope m conversation = .ok (some scope) ∧
          operation = .prepare id scope name bytes) := by
  intro id hid
  cases hhandle : handleOf request with
  | some handle =>
      rw [modernOperation_handle hhandle] at h
      split at h
      next hfile =>
        rcases exists_of_hasFile hfile with ⟨f, hfind⟩
        rw [requireFor_handle hhandle, hfind] at hrequire
        cases hparse : parseId handle with
        | error message =>
            rw [hparse] at h
            cases h
        | ok found =>
            rw [hparse] at h
            cases h
            rw [idOf_operationOf] at hid
            cases hid
            refine ⟨f.scope, ?_, Or.inl ⟨f, List.mem_of_find?_eq_some hfind, ?_, rfl⟩⟩
            · rw [← fileCapability_modern]
              exact require_eq_ok hrequire
            · have hsame := List.find?_some hfind
              rw [beq_iff_eq] at hsame
              exact hex_injective (hsame.trans (parseId_eq_ok.mp hparse))
      · cases h
  | none =>
      cases request with
      | prepare handle conversation name size =>
          obtain ⟨scope, hscope, h⟩ := bind_eq_ok.mp h
          cases scope with
          | none => cases h
          | some scope =>
              obtain ⟨found, hparse, h⟩ := bind_eq_ok.mp h
              obtain ⟨bytes, -, h⟩ := bind_eq_ok.mp h
              cases h
              cases hid
              refine ⟨scope, ?_, Or.inr ⟨conversation, name, size, bytes, ?_, hscope, rfl⟩⟩
              · have hgrant := require_eq_ok hrequire
                rwa [modernScope_capability hscope] at hgrant
              · rw [parseId_eq_ok.mp hparse]
      | list conversation => cases h
      | publications conversation => cases h
      | configure quotaBytes retentionDays => cases h
      | commit handle => cases hhandle
      | accept handle => cases hhandle
      | pause handle => cases hhandle
      | resume handle => cases hhandle
      | cancel handle => cases hhandle

/-- What stays with the cache of the channels has the grant for channels. -/
theorem channel_permitted {id : ShareId}
    (hrequire : requireFor m modern request = .ok ())
    (h : modernOperation m modern request = .ok none)
    (hprepare : isPrepareOf modern request = false)
    (hid : handleOf request = some (hex id.toList) ∨
      ∃ conversation name size, request = .prepare (hex id.toList) conversation name size) :
    m.grants .channelMember = true ∧ ∀ f ∈ modern.files, f.id ≠ id := by
  rcases hid with hhandle | ⟨conversation, name, size, rfl⟩
  · rw [modernOperation_handle hhandle] at h
    split at h
    next hfile =>
      rw [parseId_eq_ok.mpr rfl] at h
      cases h
    next hfile =>
      rw [Bool.not_eq_true] at hfile
      rw [requireFor_handle hhandle, find?_of_hasFile hfile] at hrequire
      exact ⟨require_eq_ok hrequire, ne_of_hasFile hfile⟩
  · obtain ⟨scope, hscope, h⟩ := bind_eq_ok.mp h
    cases scope with
    | some scope =>
        obtain ⟨_, -, h⟩ := bind_eq_ok.mp h
        obtain ⟨_, -, h⟩ := bind_eq_ok.mp h
        cases h
    | none =>
        have hgrant := require_eq_ok hrequire
        rw [modernScope_capability hscope] at hgrant
        exact ⟨hgrant, ne_of_hasFile hprepare⟩

/-! ### Requests -/

/-- All that was sent since is permitted. -/
def Sends (m : Setting) (request : FileRequest) (before : List Sent) (d : Desk) : Prop :=
  ∃ sent, d.sent = before ++ sent ∧
    ∀ s ∈ sent, ∃ modern, m.modernList = .ok modern ∧ Permitted m request modern s

/-- The session has the grants for the conversations of all files. -/
def Visible (m : Setting) (value : FileSnapshot) : Prop :=
  ∀ f ∈ value.files, m.grants (fileCapability f.conversation) = true

variable {before : List Sent}

theorem visible_restrictFiles (value : FileSnapshot) : Visible m (restrictFiles m value) :=
  fun _ hf => (List.mem_filter.mp hf).2

theorem sends_lift {α : Type} (x : Except String α) :
    Effect.Meets (Sends m request before) (Effect.lift x)
      (fun a d => Sends m request before d ∧ x = .ok a) (Sends m request before) :=
  Effect.meets_lift (fun _ hx _ hd => ⟨hd, hx⟩) fun _ _ _ hd => hd

theorem sends_send {sent : Sent} (hmodern : m.modernList = .ok modern)
    (h : Permitted m request modern sent) :
    Effect.Meets (Sends m request before) (send sent) (fun _ => Sends m request before)
      (Sends m request before) := by
  refine Effect.meets_modify fun d hd => ?_
  rcases hd with ⟨old, hold, hall⟩
  refine ⟨old ++ [sent], ?_, fun s hs => ?_⟩
  · change d.sent ++ [sent] = _
    rw [hold, List.append_assoc]
  · rcases List.mem_append.mp hs with hs | hs
    · exact hall s hs
    · rw [List.mem_singleton.mp hs]
      exact ⟨modern, hmodern, h⟩

theorem sends_saveState (candidate : FilesState) :
    Effect.Meets (Sends m request before) (saveState m candidate)
      (fun _ => Sends m request before) (Sends m request before) :=
  Effect.Meets.bind (sends_lift _) fun _ => Effect.meets_and fun _ =>
    Effect.meets_modify fun _ hd => hd

theorem snapshotReply_eq_ok {S : Type} {reply : Reply S} {value : Snapshot S}
    (h : snapshotReply reply = .ok value) : reply = .snapshot value := by
  cases reply with
  | snapshot found =>
      cases h
      rfl
  | committed original canonical found => cases h
  | metadata found => cases h
  | piece bytes => cases h

theorem sends_performModern {operation : Operation ModernScope}
    (hmodern : m.modernList = .ok modern) (hrequire : requireFor m modern request = .ok ())
    (h : modernOperation m modern request = .ok (some operation)) :
    Effect.Meets (Sends m request before) (performModern m operation)
      (fun value d => Sends m request before d ∧ Visible m value) (Sends m request before) := by
  refine Effect.Meets.bind (sends_lift _) fun legacy => Effect.meets_and fun hlegacy =>
    Effect.Meets.bind (sends_lift _) fun _ => Effect.meets_and fun hconflict =>
      Effect.Meets.bind (sends_send hmodern ?_) fun _ =>
        Effect.Meets.bind (sends_lift _) fun value => Effect.meets_and fun _ =>
          Effect.meets_pure fun d hd => ⟨hd, visible_restrictFiles _⟩
  intro id hid
  refine ⟨?_, modernOperation_permitted hrequire h id hid⟩
  obtain ⟨reply, hreply, hvalue⟩ := bind_eq_ok.mp hlegacy
  refine ⟨legacy, ?_, fun f hf heq => ?_⟩
  · rw [hreply, snapshotReply_eq_ok hvalue]
  · have hnone := List.any_eq_false.mp (refuse_eq_ok.mp hconflict) f hf
    rw [heq, hid, beq_self_eq_true] at hnone
    exact hnone rfl

/-- The operation for the cache of the channels. -/
theorem sends_legacyOperation (hmodern : m.modernList = .ok modern)
    (hrequire : requireFor m modern request = .ok ())
    (h : modernOperation m modern request = .ok none)
    (hprepare : isPrepareOf modern request = false) :
    Effect.Meets (Sends m request before) (legacyOperation m request)
      (fun operation d => Sends m request before d ∧ Permitted m request modern (.legacy operation))
      (Sends m request before) := by
  have hhandle : ∀ handle, handleOf request = some handle →
      Effect.Meets (Sends m request before)
        (do
          let id ← Effect.lift (parseId handle)
          pure (operationOf request id))
        (fun operation d =>
          Sends m request before d ∧ Permitted m request modern (.legacy operation))
        (Sends m request before) := by
    intro handle hhandle
    refine Effect.Meets.bind (sends_lift _) fun found => Effect.meets_and fun hparse =>
      Effect.meets_pure fun d hd => ⟨hd, fun id hid => ?_⟩
    rw [idOf_operationOf] at hid
    cases hid
    rw [parseId_eq_ok.mp hparse] at hhandle
    exact channel_permitted hrequire h hprepare (Or.inl hhandle)
  cases request with
  | list conversation =>
      refine Effect.meets_pure fun d hd => ⟨hd, fun id hid => ?_⟩
      cases hid
  | publications conversation =>
      refine Effect.meets_pure fun d hd => ⟨hd, fun id hid => ?_⟩
      cases hid
  | prepare handle conversation name size =>
      refine Effect.Meets.bind (sends_lift _) fun found => Effect.meets_and fun hparse =>
        Effect.Meets.bind (sends_lift _) fun scope => Effect.meets_and fun _ =>
          Effect.Meets.bind (sends_lift _) fun bytes => Effect.meets_and fun _ =>
            Effect.meets_pure fun d hd => ⟨hd, fun id hid => ?_⟩
      cases hid
      refine channel_permitted hrequire h hprepare (Or.inr ⟨conversation, name, size, ?_⟩)
      rw [parseId_eq_ok.mp hparse]
  | configure quotaBytes retentionDays =>
      refine Effect.Meets.bind (sends_lift _) fun quota => Effect.meets_and fun _ =>
        Effect.Meets.bind (sends_lift _) fun _ => Effect.meets_and fun _ =>
          Effect.meets_get fun d hd => Effect.Meets.imp (Effect.Meets.bind (sends_saveState _)
            fun _ => Effect.Meets.bind (sends_send hmodern ?_) fun _ =>
              Effect.Meets.bind (sends_lift _) fun _ => Effect.meets_and fun _ =>
                Effect.meets_pure fun d hd => ⟨hd, fun id hid => ?_⟩)
            (fun s hs => hs ▸ hd) (fun _ _ hs => hs) fun _ hs => hs
      · intro id hid
        cases hid
      · cases hid
  | commit handle => exact hhandle handle rfl
  | accept handle => exact hhandle handle rfl
  | pause handle => exact hhandle handle rfl
  | resume handle => exact hhandle handle rfl
  | cancel handle => exact hhandle handle rfl

theorem sends_committed (original canonical : ShareId) (value : FileSnapshot) :
    Effect.Meets (Sends m request before) (committed m original canonical value)
      (fun _ => Sends m request before) (Sends m request before) := by
  refine Effect.meets_get fun d hd => Effect.Meets.imp (Effect.Meets.bind (sends_lift _)
    fun candidate => Effect.meets_and fun _ => ?_) (fun s hs => hs ▸ hd) (fun _ _ hs => hs)
    fun _ hs => hs
  cases hchanged : candidate.changed with
  | false => exact Effect.meets_pure fun s hs => hs
  | true =>
      exact Effect.Meets.bind (sends_saveState _) fun _ => Effect.meets_pure fun s hs => hs

theorem sends_performLegacy (hmodern : m.modernList = .ok modern)
    (hrequire : requireFor m modern request = .ok ())
    (h : modernOperation m modern request = .ok none)
    (hprepare : isPrepareOf modern request = false) :
    Effect.Meets (Sends m request before) (performLegacy m request)
      (fun value d => Sends m request before d ∧ Visible m value) (Sends m request before) := by
  refine Effect.Meets.bind (sends_legacyOperation hmodern hrequire h hprepare) fun operation =>
    Effect.meets_and fun hpermitted => Effect.Meets.bind (sends_send hmodern hpermitted)
      fun _ => Effect.Meets.bind (sends_lift _) fun reply => Effect.meets_and fun _ =>
        Effect.Meets.bind (Q := fun _ => Sends m request before) ?_ fun result => ?_
  · cases reply with
    | snapshot value => exact Effect.meets_pure fun d hd => hd
    | committed original canonical value => exact sends_committed original canonical _
    | metadata value =>
        exact Effect.meets_lift (fun _ _ _ hd => hd) fun _ _ _ hd => hd
    | piece bytes => exact Effect.meets_lift (fun _ _ _ hd => hd) fun _ _ _ hd => hd
  · split
    · exact Effect.meets_get fun d hd => Effect.meets_pure fun s hs =>
        ⟨hs ▸ hd, visible_restrictFiles _⟩
    · exact Effect.Meets.bind (sends_lift _) fun _ => Effect.meets_and fun _ =>
        Effect.meets_pure fun d hd => ⟨hd, visible_restrictFiles _⟩

theorem sends_filesRequest :
    Effect.Meets (Sends m request before) (filesRequest m request)
      (fun value d => Sends m request before d ∧ Visible m value) (Sends m request before) := by
  refine Effect.meets_get fun d hd => Effect.Meets.imp (Effect.Meets.bind (sends_lift _)
    fun chosen => Effect.meets_and fun hadmit => ?_) (fun s hs => hs ▸ hd) (fun _ _ hs => hs)
    fun _ hs => hs
  rcases chosen with ⟨modern, operation⟩
  rcases admitRequest_eq_ok hadmit with ⟨hmodern, hrequire, hoperation⟩
  cases operation with
  | some operation => exact sends_performModern hmodern hrequire hoperation
  | none =>
      exact Effect.Meets.bind (sends_lift _) fun _ => Effect.meets_and fun hprepare =>
        sends_performLegacy hmodern hrequire hoperation (refuse_eq_ok.mp hprepare)

end

/-- Whatever a request asks for and whatever the caches answer: an operation on a file of a
contact or a hosted channel is sent only with the grant for that conversation, to the cache that
lists the file or to prepare it in the conversation of the request, and only if the channels have
no file of the identifier; an operation on another file is sent only with the grant for channels,
and only if neither contacts nor hosted channels have the file; and an answer lists only files of
conversations with a grant. -/
theorem requests_permitted (m : Setting) (request : FileRequest) (d : Desk) :
    (∃ sent, (Effect.after ((filesRequest m request).run d)).sent = d.sent ++ sent ∧
      ∀ s ∈ sent, ∃ modern, m.modernList = .ok modern ∧ Permitted m request modern s) ∧
    ∀ value t, (filesRequest m request).run d = .ok value t →
      ∀ f ∈ value.files, m.grants (fileCapability f.conversation) = true := by
  have hstart : Sends m request d.sent d := ⟨[], (List.append_nil _).symm, fun s hs => by cases hs⟩
  constructor
  · exact Effect.after_of_meets (Effect.Meets.imp sends_filesRequest (fun _ hs => hs)
      (fun _ _ hs => hs.1) fun _ hs => hs) hstart
  · intro value t hrun
    exact ((Effect.meets_iff.mp sends_filesRequest d hstart).1 value t hrun).2

end Files

end GChat
