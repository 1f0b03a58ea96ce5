import GChat.Archive.Own
import GChat.Service.Crash

/-!
# What is saved about own messages

The archive keeps the delivery of an own message in memory only. The service takes it over
into its own state, which it saves: a delivery is never taken back there, and what is known
of messages that are no longer in the archive is dropped.
-/

namespace GChat

namespace Service

open Foundation Api Store

/-- The own messages of the archive, with what it knows in memory. -/
def ownMessages (archive : Archive.ArchiveData) : List OwnMessage :=
  archive.own.map fun m => ⟨hex m.id.toList, m.operationId, m.delivery⟩

abbrev Metadata := StringMap MessageMetadata

def Metadata.delivery (metadata : Metadata) (id : String) : Option Delivery :=
  metadata[id]?.bind (·.delivery)

/-! ### One message -/

/-- Nothing is known of the message. -/
def OwnMessage.isSilent (m : OwnMessage) : Bool := m.operationId.isNone && m.delivery.isNone

def seenOperation (old : Option String) (m : OwnMessage) : Option String := m.operationId.or old

def seenDelivery (old : Option Delivery) (m : OwnMessage) : Option Delivery :=
  if old != some .delivered && m.delivery.isSome then m.delivery else old

/-- What is saved about a message after it was observed. -/
def seen (old : Option MessageMetadata) (m : OwnMessage) : Option MessageMetadata :=
  if m.isSilent then old
  else some ⟨seenOperation (old.bind (·.operationId)) m, seenDelivery (old.bind (·.delivery)) m⟩

theorem observeMessage_get (metadata : Metadata) (m : OwnMessage) (id : String) :
    (observeMessage metadata m)[id]? = if m.id == id then seen metadata[id]? m else metadata[id]? := by
  unfold observeMessage seen OwnMessage.isSilent
  by_cases hid : m.id = id
  · subst hid
    split
    · simp
    · rw [StringMap.get_insert_self]
      cases metadata[m.id]? with
      | none => simp [seenOperation, seenDelivery]
      | some old => simp [seenOperation, seenDelivery]
  · split
    · simp [hid]
    · rw [StringMap.get_insert_of_ne _ _ hid]
      simp [hid]

theorem foldl_observeMessage_get (metadata : Metadata) (own : List OwnMessage) (id : String) :
    (own.foldl observeMessage metadata)[id]? =
      (own.filter (·.id == id)).foldl seen metadata[id]? := by
  induction own generalizing metadata with
  | nil => rfl
  | cons m own ih =>
      rw [List.foldl_cons, ih, observeMessage_get]
      cases hid : m.id == id with
      | true => simp [hid]
      | false => simp [hid]

theorem observeMessages_get (metadata : Metadata) (own : List OwnMessage) (id : String) :
    (observeMessages metadata own)[id]? =
      if own.any (·.id == id) then (own.filter (·.id == id)).foldl seen metadata[id]? else none := by
  rw [observeMessages, StringMap.get_filter, foldl_observeMessage_get]
  cases (own.filter (·.id == id)).foldl seen metadata[id]? with
  | none => simp
  | some x =>
      cases own.any (·.id == id) with
      | true => rfl
      | false => rfl

/-! ### A delivery is not taken back -/

theorem seenDelivery_delivered (m : OwnMessage) :
    seenDelivery (some .delivered) m = some .delivered := rfl

theorem seen_delivered {old : Option MessageMetadata}
    (h : old.bind (·.delivery) = some .delivered) (m : OwnMessage) :
    (seen old m).bind (·.delivery) = some .delivered := by
  unfold seen
  split
  · exact h
  · rw [h]
    rfl

/-- A delivered message of the archive stays delivered. -/
theorem observe_delivered {metadata : Metadata} {own : List OwnMessage} {id : String}
    (h : metadata.delivery id = some .delivered) (hown : own.any (·.id == id) = true) :
    Metadata.delivery (observeMessages metadata own) id = some .delivered := by
  have hfold : ∀ (l : List OwnMessage) (old : Option MessageMetadata),
      old.bind (·.delivery) = some .delivered →
        (l.foldl seen old).bind (·.delivery) = some .delivered := by
    intro l
    induction l with
    | nil => exact fun _ hold => hold
    | cons m l ih => exact fun _ hold => ih _ (seen_delivered hold m)
  rw [Metadata.delivery, observeMessages_get, if_pos hown]
  exact hfold _ _ h

/-- Only messages of the archive are kept. -/
theorem own_of_observe {metadata : Metadata} {own : List OwnMessage} {id : String}
    {d : Delivery} (h : Metadata.delivery (observeMessages metadata own) id = some d) :
    own.any (·.id == id) = true := by
  by_contra hown
  rw [Metadata.delivery, observeMessages_get, if_neg hown] at h
  cases h

/-! ### Observing twice -/

theorem seen_operation (old : Option MessageMetadata) (m : OwnMessage) :
    (seen old m).bind (·.operationId) = seenOperation (old.bind (·.operationId)) m := by
  unfold seen
  split
  next hsilent =>
    simp only [OwnMessage.isSilent, Bool.and_eq_true, Option.isNone_iff_eq_none] at hsilent
    simp [seenOperation, hsilent.1]
  · rfl

theorem seen_delivery (old : Option MessageMetadata) (m : OwnMessage) :
    (seen old m).bind (·.delivery) = seenDelivery (old.bind (·.delivery)) m := by
  unfold seen
  split
  next hsilent =>
    simp only [OwnMessage.isSilent, Bool.and_eq_true, Option.isNone_iff_eq_none] at hsilent
    simp [seenDelivery, hsilent.2]
  · rfl

theorem foldl_seen_operation (l : List OwnMessage) (old : Option MessageMetadata) :
    (l.foldl seen old).bind (·.operationId) = l.foldl seenOperation (old.bind (·.operationId)) :=
  (List.foldl_hom (fun x => Option.bind x fun d => d.operationId)
    fun old m => (seen_operation old m).symm).symm

theorem foldl_seen_delivery (l : List OwnMessage) (old : Option MessageMetadata) :
    (l.foldl seen old).bind (·.delivery) = l.foldl seenDelivery (old.bind (·.delivery)) :=
  (List.foldl_hom (fun x => Option.bind x fun d => d.delivery)
    fun old m => (seen_delivery old m).symm).symm

theorem foldl_seen_isSome (l : List OwnMessage) (old : Option MessageMetadata) :
    (l.foldl seen old).isSome = (old.isSome || l.any fun m => !m.isSilent) := by
  induction l generalizing old with
  | nil => simp
  | cons m l ih =>
      rw [List.foldl_cons, ih, List.any_cons]
      cases hsilent : m.isSilent with
      | true => simp [seen, hsilent]
      | false => simp [seen, hsilent]

section Latest

variable {α : Type*} (f : OwnMessage → Option α)

/-- The last value that was told counts. -/
theorem foldl_latest (l : List OwnMessage) (x : Option α) :
    l.foldl (fun x m => (f m).or x) x = (l.foldl (fun x m => (f m).or x) none).or x := by
  induction l generalizing x with
  | nil => simp
  | cons m l ih =>
      rw [List.foldl_cons, List.foldl_cons, ih, ih ((f m).or none), Option.or_none, Option.or_assoc]

theorem foldl_latest_twice (l : List OwnMessage) (x : Option α) :
    l.foldl (fun x m => (f m).or x) (l.foldl (fun x m => (f m).or x) x) =
      l.foldl (fun x m => (f m).or x) x := by
  rw [foldl_latest, foldl_latest f l x, ← Option.or_assoc, Option.or_self]

end Latest

/-- Without a message that was delivered, the last delivery that was told counts. -/
theorem foldl_seenDelivery (l : List OwnMessage) (x : Option Delivery)
    (h : l.foldl seenDelivery x ≠ some .delivered) :
    x ≠ some .delivered ∧ (∀ m ∈ l, m.delivery ≠ some .delivered) := by
  induction l generalizing x with
  | nil => exact ⟨h, fun m hm => absurd hm List.not_mem_nil⟩
  | cons m l ih =>
      obtain ⟨hseen, hrest⟩ := ih _ h
      have hx : x ≠ some .delivered := by
        rintro rfl
        exact hseen (seenDelivery_delivered m)
      refine ⟨hx, List.forall_mem_cons.mpr ⟨?_, hrest⟩⟩
      intro hm
      apply hseen
      simp [seenDelivery, hx, hm]

theorem foldl_seenDelivery_latest (l : List OwnMessage) (x : Option Delivery)
    (hx : x ≠ some .delivered) (hl : ∀ m ∈ l, m.delivery ≠ some .delivered) :
    l.foldl seenDelivery x = l.foldl (fun x m => m.delivery.or x) x := by
  induction l generalizing x with
  | nil => rfl
  | cons m l ih =>
      obtain ⟨hm, hl⟩ := List.forall_mem_cons.mp hl
      have hseen : seenDelivery x m = m.delivery.or x := by
        cases hdelivery : m.delivery with
        | none => simp [seenDelivery, hdelivery]
        | some d => simp [seenDelivery, hdelivery, hx]
      have hnext : m.delivery.or x ≠ some .delivered := by
        cases hdelivery : m.delivery with
        | none => exact hx
        | some d =>
            rw [hdelivery] at hm
            exact hm
      rw [List.foldl_cons, List.foldl_cons, hseen]
      exact ih _ hnext hl

theorem foldl_seenDelivery_twice (l : List OwnMessage) (x : Option Delivery) :
    l.foldl seenDelivery (l.foldl seenDelivery x) = l.foldl seenDelivery x := by
  by_cases h : l.foldl seenDelivery x = some .delivered
  · have hfixed : ∀ l : List OwnMessage, l.foldl seenDelivery (some .delivered) =
        some .delivered := by
      intro l
      induction l with
      | nil => rfl
      | cons m l ih => rw [List.foldl_cons, seenDelivery_delivered, ih]
    rw [h, hfixed]
  · obtain ⟨hx, hl⟩ := foldl_seenDelivery l x h
    rw [foldl_seenDelivery_latest l _ h hl, foldl_seenDelivery_latest l x hx hl,
      foldl_latest_twice]

theorem foldl_seen_twice (l : List OwnMessage) (old : Option MessageMetadata) :
    l.foldl seen (l.foldl seen old) = l.foldl seen old := by
  have hsome : (l.foldl seen (l.foldl seen old)).isSome = (l.foldl seen old).isSome := by
    rw [foldl_seen_isSome, foldl_seen_isSome, Bool.or_assoc, Bool.or_self]
  have hoperation : (l.foldl seen (l.foldl seen old)).bind (·.operationId) =
      (l.foldl seen old).bind (·.operationId) := by
    rw [foldl_seen_operation, foldl_seen_operation]
    exact foldl_latest_twice (·.operationId) l _
  have hdelivery : (l.foldl seen (l.foldl seen old)).bind (·.delivery) =
      (l.foldl seen old).bind (·.delivery) := by
    rw [foldl_seen_delivery, foldl_seen_delivery, foldl_seenDelivery_twice]
  cases hnew : l.foldl seen (l.foldl seen old) with
  | none =>
      rw [hnew] at hsome
      exact (Option.isNone_iff_eq_none.mp (by simpa using hsome.symm)).symm
  | some x =>
      cases hold : l.foldl seen old with
      | none =>
          rw [hnew, hold] at hsome
          cases hsome
      | some y =>
          rw [hnew, hold] at hoperation hdelivery
          obtain ⟨operation, delivery⟩ := x
          obtain ⟨operation', delivery'⟩ := y
          change operation = operation' at hoperation
          change delivery = delivery' at hdelivery
          rw [hoperation, hdelivery]

/-- Observing the same archive once more changes nothing. -/
theorem observe_twice (metadata : Metadata) (own : List OwnMessage) :
    observeMessages (observeMessages metadata own) own = observeMessages metadata own := by
  apply Std.ExtTreeMap.ext_getElem?
  intro id
  rw [observeMessages_get, observeMessages_get]
  cases own.any (·.id == id) with
  | true => exact foldl_seen_twice _ _
  | false => rfl

/-! ### What an operation does to it -/

section Saves

variable {Key Rest : Type} {env : Env Key Rest} {s t u : Unlocked Key Rest}

def Unlocked.metadata (s : Unlocked Key Rest) : Metadata := s.state.messageMetadata

def Documents.metadata (d : Documents Rest) : Metadata := d.legacy.messageMetadata

/-- What the file of the service keeps about messages. -/
def Env.metadata (env : Env Key Rest) (files : Files) : Option Metadata := do
  let raw ← files.legacy
  let (_, bytes) ← (openWithKey env.cipher env.codec raw uiMagic
    "wrong passphrase or corrupted chat service state" env.keys.legacy).toOption
  let document ← (env.formats.legacy.fromSlice bytes).toOption
  some document.messageMetadata

theorem ServiceStateStore.Holds.metadata {store : ServiceStateStore Key} {d : Documents Rest}
    (hcipher : env.cipher.Lawful) (hformats : env.formats.Lawful) (h : store.Holds env d) :
    env.metadata store.files = some d.metadata := by
  obtain ⟨raw, hraw⟩ := Option.isSome_iff_exists.mp h.created
  obtain ⟨bytes, hopen, hdocument⟩ := h.legacy.opens hcipher hformats.legacy hraw
    "wrong passphrase or corrupted chat service state"
  have hfile : store.files.legacy = some raw := hraw
  simp [Env.metadata, hfile, hopen, hdocument, Except.toOption, Documents.metadata]

/-- A save that succeeded wrote its document. -/
theorem ChatServiceStore.Holds.save_ok {α : Type} {cipher : Cipher Key}
    {codec : Codec (List UInt8)} {format : Format α} {magic : Bytes 6} {key : Bytes 16 → Key}
    {store after : ChatServiceStore Key} {new document candidate : α} {io : Io}
    (h : store.Holds cipher codec format magic key new document)
    (hsave : store.save cipher codec format candidate io = (after, .ok ())) :
    after.Holds cipher codec format magic key new candidate := by
  unfold ChatServiceStore.save at hsave
  split at hsave
  · cases hsave
  next bytes hvec =>
    split at hsave
    · cases hsave
    · obtain ⟨message, hwrite⟩ | ⟨message, -, hwrite⟩ | ⟨-, hwrite⟩ :=
        save_cases cipher codec store.store store.file io.nonce bytes io.fault
      · rw [hwrite] at hsave
        cases hsave
      · rw [hwrite] at hsave
        cases hsave
      · rw [hwrite] at hsave
        cases hsave
        exact ⟨h.keyed, Or.inr ⟨bytes, io.nonce, hvec, rfl⟩⟩

theorem ServiceStateStore.Holds.save_ok {store after : ServiceStateStore Key} {d : Documents Rest}
    {state : UiState Rest} {io : SaveIo} (h : store.Holds env d)
    (hsave : store.save env.cipher env.codec env.formats state io = (after, .ok ())) :
    ∃ kept, after.Holds env kept ∧ kept.metadata = state.messageMetadata := by
  obtain ⟨kept, -, hkept⟩ := h.save state io
  rw [hsave] at hkept
  have hlegacy := h.legacy.save_ok (saves_of_ok hsave).2.2.2
  exact ⟨{ kept with legacy := state.legacy }, ⟨hkept.created, hlegacy, hkept.retained, hkept.book,
    hkept.preferences⟩, rfl⟩

/-- A save that may fail anywhere. -/
theorem ServiceStateStore.Holds.save_metadata {store : ServiceStateStore Key}
    {d : Documents Rest} (h : store.Holds env d) (state : UiState Rest) (io : SaveIo) :
    ∃ kept, (store.save env.cipher env.codec env.formats state io).1.Holds env kept ∧
      (kept.metadata = d.metadata ∨ kept.metadata = state.messageMetadata) := by
  obtain ⟨kept, hmixes, hkept⟩ := h.save state io
  refine ⟨kept, hkept, ?_⟩
  obtain hold | hnew := hmixes.legacy
  · exact Or.inl (congrArg Legacy.messageMetadata hold)
  · right
    rw [Documents.metadata, hnew]
    rfl

/-- Nothing new is known, in memory or in the file. -/
def Unlocked.Quiet (env : Env Key Rest) (s t : Unlocked Key Rest) : Prop :=
  t.metadata = s.metadata ∧ ∀ d, s.store.Holds env d → ∃ kept, t.store.Holds env kept ∧
    (kept.metadata = d.metadata ∨ kept.metadata = s.metadata)

/-- What was observed may be in the file, and is there if it is in memory. -/
def Unlocked.Observes (env : Env Key Rest) (own : List OwnMessage) (s t : Unlocked Key Rest) :
    Prop :=
  ∀ d, s.store.Holds env d → ∃ kept, t.store.Holds env kept ∧
    ((t.metadata = s.metadata ∧ (kept.metadata = d.metadata ∨ kept.metadata = s.metadata ∨
        kept.metadata = observeMessages s.metadata own)) ∨
      t.metadata = observeMessages s.metadata own ∧ kept.metadata = t.metadata)

theorem Unlocked.Quiet.refl (s : Unlocked Key Rest) : s.Quiet env s :=
  ⟨rfl, fun d h => ⟨d, h, Or.inl rfl⟩⟩

theorem Unlocked.Quiet.trans (h : s.Quiet env t) (h' : t.Quiet env u) : s.Quiet env u := by
  refine ⟨h'.1.trans h.1, fun d hd => ?_⟩
  obtain ⟨kept, hkept, hold⟩ := h.2 d hd
  obtain ⟨last, hlast, hlater⟩ := h'.2 kept hkept
  refine ⟨last, hlast, ?_⟩
  rw [h.1] at hlater
  obtain heq | heq := hlater
  · rw [heq]
    exact hold
  · exact Or.inr heq

theorem Unlocked.Quiet.observes (h : s.Quiet env t) (own : List OwnMessage) :
    s.Observes env own t := by
  intro d hd
  obtain ⟨kept, hkept, hold⟩ := h.2 d hd
  exact ⟨kept, hkept, Or.inl ⟨h.1, hold.imp_right Or.inl⟩⟩

theorem quiet_persist (env : Env Key Rest) (s : Unlocked Key Rest) (io : SaveIo) :
    s.Quiet env (env.persist s io).1 := by
  refine ⟨rfl, fun d hd => ?_⟩
  exact hd.save_metadata s.state io

theorem commit_cases (env : Env Key Rest) (s : Unlocked Key Rest) (candidate : UiState Rest)
    (io : SaveIo) :
    (∃ message, (env.commit s candidate io).2 = .error message ∧ (env.commit s candidate io).1 =
      { s with store := (s.store.save env.cipher env.codec env.formats candidate io).1 }) ∨
    ∃ store, s.store.save env.cipher env.codec env.formats candidate io = (store, .ok ()) ∧
      env.commit s candidate io = (⟨store, candidate⟩, .ok ()) := by
  unfold Env.commit
  split
  next store message heq =>
    rw [heq]
    exact Or.inl ⟨message, rfl, rfl⟩
  next store _ heq => exact Or.inr ⟨store, heq, rfl⟩

theorem observes_commit {candidate : UiState Rest} {own : List OwnMessage} (io : SaveIo)
    (h : candidate.messageMetadata = observeMessages s.metadata own) :
    s.Observes env own (env.commit s candidate io).1 := by
  intro d hd
  obtain ⟨message, -, hfailed⟩ | ⟨store, hsave, hok⟩ := commit_cases env s candidate io
  · rw [hfailed]
    obtain ⟨kept, hkept, hold⟩ := hd.save_metadata candidate io
    refine ⟨kept, hkept, Or.inl ⟨rfl, ?_⟩⟩
    rw [h] at hold
    exact hold.imp_right Or.inr
  · rw [hok]
    obtain ⟨kept, hkept, hnew⟩ := hd.save_ok hsave
    exact ⟨kept, hkept, Or.inr ⟨h, hnew⟩⟩

/-- A candidate with nothing new about messages. -/
theorem quiet_commit {candidate : UiState Rest} (io : SaveIo)
    (h : candidate.messageMetadata = s.metadata) : s.Quiet env (env.commit s candidate io).1 := by
  obtain ⟨message, -, hfailed⟩ | ⟨store, hsave, hok⟩ := commit_cases env s candidate io
  · rw [hfailed]
    refine ⟨rfl, fun d hd => ?_⟩
    obtain ⟨kept, hkept, hold⟩ := hd.save_metadata candidate io
    rw [h] at hold
    exact ⟨kept, hkept, hold⟩
  · rw [hok]
    refine ⟨h, fun d hd => ?_⟩
    obtain ⟨kept, hkept, hnew⟩ := hd.save_ok hsave
    exact ⟨kept, hkept, Or.inr (hnew.trans h)⟩

theorem quiet_commitIf {candidate : UiState Rest} {changed : Bool} (io : SaveIo)
    (h : candidate.messageMetadata = s.metadata) :
    s.Quiet env (if changed then env.commit s candidate io else (s, .ok ())).1 := by
  cases changed with
  | true => exact quiet_commit io h
  | false => exact Unlocked.Quiet.refl s

theorem quiet_contact (op : Contacts.Op) (io : SaveIo) : s.Quiet env (env.contact s op io).1 := by
  unfold Env.contact
  split
  · exact Unlocked.Quiet.refl s
  · exact quiet_commitIf io rfl

theorem quiet_archiveHosted (channel : Hosted.Channel) (recovered : Bool)
    (events : List Hosted.Event) (io : SaveIo) :
    s.Quiet env (env.archiveHosted s channel recovered events io).1 := by
  unfold Env.archiveHosted
  split
  · exact Unlocked.Quiet.refl s
  · exact quiet_commitIf io rfl

theorem quiet_rememberQueued (conversation : String) (id : Hosted.Id) (content : Hosted.Content)
    (operation : String) (now : ℕ) (io : SaveIo) :
    s.Quiet env (env.rememberQueued s conversation id content operation now io).1 := by
  unfold Env.rememberQueued
  split
  · exact Unlocked.Quiet.refl s
  · exact quiet_commit io rfl

theorem quiet_hostedError (conversation message : String) (io : SaveIo) :
    s.Quiet env (env.hostedError s conversation message io).1 := by
  unfold Env.hostedError
  split
  · exact Unlocked.Quiet.refl s
  · exact quiet_commitIf io rfl

theorem quiet_markReadHosted (conversation message : String) (io : SaveIo) :
    s.Quiet env (env.markReadHosted s conversation message io).1 := by
  unfold Env.markReadHosted
  split
  · exact Unlocked.Quiet.refl s
  · dsimp only
    split
    · exact Unlocked.Quiet.refl s
    · exact quiet_commitIf io rfl

theorem quiet_markRead (conversation message : String) (messages : List String) (io : SaveIo) :
    s.Quiet env (env.markRead s conversation message messages io).1 := by
  unfold Env.markRead
  split
  · exact Unlocked.Quiet.refl s
  · split
    · exact quiet_persist env
        { s with state := { s.state with read := s.state.read.insert conversation message } } io
    · exact Unlocked.Quiet.refl s

theorem quiet_submit (now : ℕ) (admitted : Bool) (request : Journal.Submit)
    (first second : SaveIo) : s.Quiet env (env.submit s now admitted request first second).1 := by
  unfold Env.submit
  split
  · exact Unlocked.Quiet.refl s
  · exact Unlocked.Quiet.refl s
  next operations _ => exact Unlocked.Quiet.refl (s.setOperations operations)
  next operations _ =>
    have hadmission : s.Quiet env
        (env.saveAdmission (s.setOperations operations) admitted first).1 := by
      unfold Env.saveAdmission
      split
      · exact Unlocked.Quiet.refl (s.setOperations operations)
      · exact quiet_persist env (s.setOperations operations) first
    split
    next admission message heq =>
      rw [heq] at hadmission
      exact hadmission
    next admission _ heq =>
      rw [heq] at hadmission
      have hnamed : s.Quiet env (env.persist
          (admission.setOperations (Journal.describe request operations)) second).1 :=
        hadmission.trans (quiet_persist env
          (admission.setOperations (Journal.describe request operations)) second)
      split
      next named message heq =>
        rw [heq] at hnamed
        exact hnamed
      next named _ heq =>
        rw [heq] at hnamed
        exact hnamed

theorem quiet_admitTyped (now : ℕ) (key : Journal.OperationKey) (digest : String) (deadline : ℕ)
    (io : SaveIo) : s.Quiet env (env.admitTyped s now key digest deadline io).1 := by
  unfold Env.admitTyped
  split
  · exact quiet_commit io rfl
  · exact Unlocked.Quiet.refl s
  · exact Unlocked.Quiet.refl s

theorem quiet_complete (key : Journal.OperationKey) (result : Journal.ReplyBody) (io : SaveIo) :
    s.Quiet env (env.complete s key result io).1 := by
  unfold Env.complete
  split
  · exact quiet_commit io rfl
  · exact Unlocked.Quiet.refl s

/-- An operation looks at the archive as it is, and what it does not look at it does not
change. -/
def Operation.Looks (s : Unlocked Key Rest) (own : List OwnMessage) : Operation Rest → Prop
  | .finish _ _ own' _ => own' = own
  | .readHistory own' _ => own' = own
  | .saveMessageMetadata own' _ => own' = own
  | .change candidate _ => candidate.messageMetadata = s.metadata
  | _ => True

theorem observes_readHistory (own : List OwnMessage) (io : SaveIo) :
    s.Observes env own (env.readHistory s own io).1 := by
  unfold Env.readHistory
  dsimp only
  split
  · exact (Unlocked.Quiet.refl s).observes own
  · exact observes_commit io rfl

theorem readHistory_hosted (s : Unlocked Key Rest) (own : List OwnMessage) (io : SaveIo) :
    (env.readHistory s own io).1.state.hosted = s.state.hosted := by
  unfold Env.readHistory
  dsimp only
  split
  · rfl
  · obtain ⟨message, -, hfailed⟩ | ⟨store, -, hok⟩ :=
      commit_cases env s (s.state.observe own) io
    · rw [hfailed]
    · rw [hok]
      rfl

theorem observes_perform {own : List OwnMessage} {operation : Operation Rest}
    (h : operation.Looks s own) : s.Observes env own (env.perform s operation).1 := by
  cases operation with
  | contact op io => exact (quiet_contact op io).observes own
  | archiveHosted channel recovered events io =>
      exact (quiet_archiveHosted channel recovered events io).observes own
  | rememberQueued conversation id content operation now io =>
      exact (quiet_rememberQueued conversation id content operation now io).observes own
  | hostedError conversation message io =>
      exact (quiet_hostedError conversation message io).observes own
  | markReadHosted conversation message io =>
      exact (quiet_markReadHosted conversation message io).observes own
  | submit now admitted request first second =>
      exact (quiet_submit now admitted request first second).observes own
  | finish request response own' io =>
      cases h
      simp only [Env.perform, Env.finish]
      split
      · exact (Unlocked.Quiet.refl s).observes own
      · exact observes_commit io rfl
  | admitTyped now key digest deadline io =>
      exact (quiet_admitTyped now key digest deadline io).observes own
  | complete key result io => exact (quiet_complete key result io).observes own
  | markRead conversation message messages io =>
      exact (quiet_markRead conversation message messages io).observes own
  | readHistory own' io =>
      cases h
      exact observes_readHistory own io
  | saveMessageMetadata own' io =>
      cases h
      exact observes_commit io rfl
  | change candidate io => exact (quiet_commit io h).observes own

end Saves

end Service

end GChat
