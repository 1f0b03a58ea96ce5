import GChat.Contacts.Delivery
import GChat.Foundation.Machine
import GChat.Journal.AtMostOnce
import GChat.Service.Model
import GChat.Store.Saves

/-!
# What was accepted can be saved

The bound on a document is checked by the save, and a save is part of every operation
that changes the state. So after operations that returned `ok` each document is within
the bound, whatever peers sent, and a later save is refused only if its own documents
are not. The limits on contacts, messages and records do not add up to this bound: a
candidate may be beyond it, and is then not published.
-/

namespace GChat

namespace Service

open Foundation Api Store

/-- The document serializes within the bound. -/
def Format.Fits {α : Type} (format : Format α) (document : α) : Prop :=
  ∃ bytes, format.toVec document = .ok bytes ∧ bytes.length ≤ stateBound

/-- The next save may replace the file exactly if there is one. -/
def ChatServiceStore.Ready {Key : Type} (s : ChatServiceStore Key) : Prop :=
  s.store.initialized = s.file.isSome

/-- The disk does not fail. -/
structure SaveIo.Works (io : SaveIo) : Prop where
  hosted : io.hosted.fault = none
  contacts : io.contacts.fault = none
  preferences : io.preferences.fault = none
  legacy : io.legacy.fault = none

structure ServiceStateStore.Ready {Key : Type} (s : ServiceStateStore Key) : Prop where
  hosted : s.hosted.Ready
  contacts : s.contacts.Ready
  preferences : s.preferences.Ready
  legacy : s.legacy.Ready

/-- The documents of a state that are saved are within the bound. -/
structure Within {Key Rest : Type} (formats : Formats Rest) (s : ServiceStateStore Key)
    (state : UiState Rest) : Prop where
  hosted : (!state.hosted.isEmpty || s.hosted.store.initialized) = true →
    formats.retained.Fits state.retained
  contacts : (!Book.isEmpty state.contacts || s.contacts.store.initialized) = true →
    formats.book.Fits state.contacts
  preferences : (!state.preferences.isEmpty || s.preferences.store.initialized) = true →
    formats.preferences.Fits state.preferences
  legacy : formats.legacy.Fits state.legacy

/-! ### One document -/

section One

variable {Key α : Type} {cipher : Cipher Key} {codec : Codec (List UInt8)} {format : Format α}
  {s t : ChatServiceStore Key} {document : α} {there : Bool} {io : Io}

theorem save_ok (h : s.save cipher codec format document io = (t, .ok ())) :
    t.store.initialized = true ∧ t.Ready ∧ format.Fits document := by
  unfold ChatServiceStore.save at h
  cases hvec : format.toVec document with
  | error message =>
      rw [hvec] at h
      cases h
  | ok bytes =>
      simp only [hvec] at h
      by_cases hlen : stateBound < bytes.length
      · rw [if_pos hlen] at h
        cases h
      · rw [if_neg hlen] at h
        obtain ⟨message, hsave⟩ | ⟨message, -, hsave⟩ | ⟨-, hsave⟩ :=
          save_cases cipher codec s.store s.file io.nonce bytes io.fault
        · rw [hsave] at h
          cases h
        · rw [hsave] at h
          cases h
        · rw [hsave] at h
          cases h
          exact ⟨rfl, rfl, bytes, hvec, by omega⟩

theorem save_fits (hready : s.Ready) (hfits : format.Fits document) (hio : io.fault = none) :
    ∃ t, s.save cipher codec format document io = (t, .ok ()) := by
  obtain ⟨bytes, hvec, hlen⟩ := hfits
  unfold ChatServiceStore.save
  rw [hvec]
  simp only [if_neg (Nat.not_lt.mpr hlen), hio, save_none hready]
  exact ⟨_, rfl⟩

theorem saveIf_ok (hready : s.Ready)
    (h : s.saveIf cipher codec format there document io = (t, .ok ())) :
    t.Ready ∧ ((there || t.store.initialized) = true → format.Fits document) := by
  unfold ChatServiceStore.saveIf at h
  by_cases hsaves : (there || s.store.initialized) = true
  · rw [if_pos hsaves] at h
    obtain ⟨-, hready, hfits⟩ := save_ok h
    exact ⟨hready, fun _ => hfits⟩
  · rw [if_neg hsaves] at h
    cases h
    exact ⟨hready, fun hthere => absurd hthere hsaves⟩

theorem saveIf_fits (hready : s.Ready)
    (hfits : (there || s.store.initialized) = true → format.Fits document)
    (hio : io.fault = none) :
    ∃ t, s.saveIf cipher codec format there document io = (t, .ok ()) := by
  unfold ChatServiceStore.saveIf
  by_cases hsaves : (there || s.store.initialized) = true
  · rw [if_pos hsaves]
    exact save_fits hready (hfits hsaves) hio
  · rw [if_neg hsaves]
    exact ⟨s, rfl⟩

end One

/-! ### The four documents -/

section All

variable {Key Rest : Type} {cipher : Cipher Key} {codec : Codec (List UInt8)}
  {formats : Formats Rest} {s t : ServiceStateStore Key} {state : UiState Rest} {io : SaveIo}

/-- The saves of the documents, in the order in which they are written. -/
theorem saves_of_ok (h : s.save cipher codec formats state io = (t, .ok ())) :
    s.hosted.saveIf cipher codec formats.retained (!state.hosted.isEmpty) state.retained
        io.hosted = (t.hosted, .ok ()) ∧
      s.contacts.saveIf cipher codec formats.book (!Book.isEmpty state.contacts) state.contacts
        io.contacts = (t.contacts, .ok ()) ∧
      s.preferences.saveIf cipher codec formats.preferences (!state.preferences.isEmpty)
        state.preferences io.preferences = (t.preferences, .ok ()) ∧
      s.legacy.save cipher codec formats.legacy state.legacy io.legacy = (t.legacy, .ok ()) := by
  unfold ServiceStateStore.save at h
  split at h
  · cases h
  next hosted _ hhosted =>
    split at h
    · cases h
    next contacts _ hcontacts =>
      split at h
      · cases h
      next preferences _ hpreferences =>
        split at h
        next legacy result hlegacy =>
          cases h
          exact ⟨hhosted, hcontacts, hpreferences, hlegacy⟩

/-- A save that succeeded leaves the documents within the bound. -/
theorem within_of_save (hready : s.Ready)
    (h : s.save cipher codec formats state io = (t, .ok ())) :
    t.Ready ∧ Within formats t state := by
  obtain ⟨hhosted, hcontacts, hpreferences, hlegacy⟩ := saves_of_ok h
  obtain ⟨hhostedReady, hhostedFits⟩ := saveIf_ok hready.hosted hhosted
  obtain ⟨hcontactsReady, hcontactsFits⟩ := saveIf_ok hready.contacts hcontacts
  obtain ⟨hpreferencesReady, hpreferencesFits⟩ := saveIf_ok hready.preferences hpreferences
  obtain ⟨-, hlegacyReady, hlegacyFits⟩ := save_ok hlegacy
  exact ⟨⟨hhostedReady, hcontactsReady, hpreferencesReady, hlegacyReady⟩,
    ⟨hhostedFits, hcontactsFits, hpreferencesFits, hlegacyFits⟩⟩

/-- Documents within the bound are saved, if the disk does not fail. -/
theorem save_of_within (hready : s.Ready) (hwithin : Within formats s state)
    (hworks : io.Works) : ∃ t, s.save cipher codec formats state io = (t, .ok ()) := by
  obtain ⟨hosted, hhosted⟩ := saveIf_fits hready.hosted hwithin.hosted hworks.hosted
  obtain ⟨contacts, hcontacts⟩ := saveIf_fits hready.contacts hwithin.contacts hworks.contacts
  obtain ⟨preferences, hpreferences⟩ :=
    saveIf_fits hready.preferences hwithin.preferences hworks.preferences
  obtain ⟨legacy, hlegacy⟩ := save_fits hready.legacy hwithin.legacy hworks.legacy
  unfold ServiceStateStore.save
  rw [hhosted]
  simp only []
  rw [hcontacts]
  simp only []
  rw [hpreferences]
  simp only []
  rw [hlegacy]
  exact ⟨_, rfl⟩

end All

/-! ### Runs of accepted operations -/

section Runs

variable {Key Rest : Type} {env : Env Key Rest} {s t : Unlocked Key Rest}

/-- The state in memory can be saved. -/
structure Unlocked.Saved (env : Env Key Rest) (s : Unlocked Key Rest) : Prop where
  ready : s.store.Ready
  within : Within env.formats s.store s.state

theorem commit_saved {candidate : UiState Rest} {io : SaveIo} (hready : s.store.Ready)
    (h : env.commit s candidate io = (t, .ok ())) : t.Saved env := by
  unfold Env.commit at h
  split at h
  · cases h
  next store _ hsave =>
    cases h
    obtain ⟨hready, hwithin⟩ := within_of_save hready hsave
    exact ⟨hready, hwithin⟩

theorem persist_saved {io : SaveIo} (hready : s.store.Ready)
    (h : env.persist s io = (t, .ok ())) : t.Saved env := by
  unfold Env.persist at h
  split at h
  next store result hsave =>
    cases h
    obtain ⟨hready, hwithin⟩ := within_of_save hready hsave
    exact ⟨hready, hwithin⟩

/-- An operation that saves nothing returns the state as it was. -/
theorem unchanged_saved (hs : s.Saved env)
    (h : (s, (.ok () : Except String Unit)) = (t, .ok ())) : t.Saved env := by
  cases h
  exact hs

/-- A candidate that changes nothing need not be saved. -/
theorem commitIf_saved {changed : Bool} {candidate : UiState Rest} {io : SaveIo}
    (hs : s.Saved env)
    (h : (if changed then env.commit s candidate io else (s, .ok ())) = (t, .ok ())) :
    t.Saved env := by
  cases changed with
  | true => exact commit_saved hs.ready h
  | false => exact unchanged_saved hs h

theorem contact_saved {op : Contacts.Op} {io : SaveIo} (hs : s.Saved env)
    (h : env.contact s op io = (t, .ok ())) : t.Saved env := by
  unfold Env.contact at h
  split at h
  · cases h
  · exact commitIf_saved hs h

theorem archiveHosted_saved {channel : Hosted.Channel} {recovered : Bool}
    {events : List Hosted.Event} {io : SaveIo} (hs : s.Saved env)
    (h : env.archiveHosted s channel recovered events io = (t, .ok ())) : t.Saved env := by
  unfold Env.archiveHosted at h
  split at h
  · cases h
  · exact commitIf_saved hs h

theorem rememberQueued_saved {conversation operation : String} {id : Hosted.Id}
    {content : Hosted.Content} {now : ℕ} {io : SaveIo} (hs : s.Saved env)
    (h : env.rememberQueued s conversation id content operation now io = (t, .ok ())) :
    t.Saved env := by
  unfold Env.rememberQueued at h
  split at h
  · cases h
  · exact commit_saved hs.ready h

theorem hostedError_saved {conversation message : String} {io : SaveIo} (hs : s.Saved env)
    (h : env.hostedError s conversation message io = (t, .ok ())) : t.Saved env := by
  unfold Env.hostedError at h
  split at h
  · exact unchanged_saved hs h
  · exact commitIf_saved hs h

theorem markReadHosted_saved {conversation message : String} {io : SaveIo} (hs : s.Saved env)
    (h : env.markReadHosted s conversation message io = (t, .ok ())) : t.Saved env := by
  unfold Env.markReadHosted at h
  split at h
  · cases h
  · dsimp only at h
    split at h
    · cases h
    · exact commitIf_saved hs h

/-- The admission is saved in place, or was saved before. The action is saved in either case. -/
theorem submit_saved {now : ℕ} {admitted : Bool} {request : Journal.Submit}
    {first second : SaveIo} (hs : s.Saved env)
    (h : env.submit s now admitted request first second = (t, .ok ())) : t.Saved env := by
  unfold Env.submit at h
  split at h
  · cases h
  · exact unchanged_saved hs h
  · cases h
  next operations _ =>
    split at h
    · cases h
    next admission _ hadmission =>
      have hready : admission.store.Ready := by
        unfold Env.saveAdmission at hadmission
        split at hadmission
        · cases hadmission
          exact hs.ready
        · exact (persist_saved (s := s.setOperations operations) hs.ready hadmission).ready
      split at h
      · cases h
      next named _ hnamed =>
        have hsaved : named.Saved env := persist_saved
          (s := admission.setOperations (Journal.describe request operations)) hready hnamed
        rw [Prod.mk.injEq] at h
        exact h.1 ▸ hsaved

theorem finish_saved {request : Journal.Submit} {response : Response} {own : List OwnMessage}
    {io : SaveIo} (hs : s.Saved env) (h : env.finish s request response own io = (t, .ok ())) :
    t.Saved env := by
  unfold Env.finish at h
  split at h
  · cases h
  · exact commit_saved hs.ready h

theorem admit_saved {now deadline : ℕ} {key : Journal.OperationKey} {digest : String}
    {io : SaveIo} (hs : s.Saved env)
    (h : env.admitTyped s now key digest deadline io = (t, .ok ())) : t.Saved env := by
  unfold Env.admitTyped at h
  split at h
  · exact commit_saved hs.ready h
  · exact unchanged_saved hs h
  · cases h

theorem complete_saved {key : Journal.OperationKey} {result : Journal.ReplyBody} {io : SaveIo}
    (hs : s.Saved env) (h : env.complete s key result io = (t, .ok ())) : t.Saved env := by
  unfold Env.complete at h
  split at h
  · exact commit_saved hs.ready h
  · cases h

theorem markRead_saved {conversation message : String} {messages : List String} {io : SaveIo}
    (hs : s.Saved env) (h : env.markRead s conversation message messages io = (t, .ok ())) :
    t.Saved env := by
  unfold Env.markRead at h
  split at h
  · cases h
  · split at h
    · exact persist_saved
        (s := { s with state := { s.state with read := s.state.read.insert conversation message } })
        hs.ready h
    · exact unchanged_saved hs h

theorem readHistory_saved {own : List OwnMessage} {io : SaveIo} (hs : s.Saved env)
    (h : env.readHistory s own io = (t, .ok ())) : t.Saved env := by
  unfold Env.readHistory at h
  dsimp only at h
  split at h
  · exact unchanged_saved hs h
  · exact commit_saved hs.ready h

/-- An operation that returned `ok` leaves a state that can be saved. -/
theorem accept_saved {operation : Operation Rest} (hs : s.Saved env)
    (h : env.accept s operation = some t) : t.Saved env := by
  have hok : env.perform s operation = (t, .ok ()) := by
    unfold Env.accept at h
    split at h
    · cases h
    next hperform =>
      cases h
      exact hperform
  cases operation with
  | contact op io => exact contact_saved hs hok
  | archiveHosted channel recovered events io => exact archiveHosted_saved hs hok
  | rememberQueued conversation id content operation now io => exact rememberQueued_saved hs hok
  | hostedError conversation message io => exact hostedError_saved hs hok
  | markReadHosted conversation message io => exact markReadHosted_saved hs hok
  | submit now admitted request first second => exact submit_saved hs hok
  | finish request response own io => exact finish_saved hs hok
  | admitTyped now key digest deadline io => exact admit_saved hs hok
  | complete key result io => exact complete_saved hs hok
  | markRead conversation message messages io => exact markRead_saved hs hok
  | readHistory own io => exact readHistory_saved hs hok
  | saveMessageMetadata own io => exact commit_saved hs.ready hok
  | change candidate io => exact commit_saved hs.ready hok

/-! ### Opening -/

theorem openOrCreate_ready {α : Type} {format : Format α} {file : Option (List UInt8)}
    {new document : α} {key : Bytes 16 → Key} {salt : Bytes 16} {io : Io}
    {store : ChatServiceStore Key} {cipher : Cipher Key} {codec : Codec (List UInt8)}
    (h : openOrCreate cipher codec format file new key salt io = .ok (store, document)) :
    store.Ready := by
  unfold openOrCreate at h
  split at h
  next raw =>
    obtain ⟨⟨opened, bytes⟩, hopen, h⟩ := bind_eq_ok.mp h
    obtain ⟨_, -, h⟩ := bind_eq_ok.mp h
    cases h
    exact (open_cases hopen).2
  · obtain ⟨created, -, h⟩ := bind_eq_ok.mp h
    split at h
    · cases h
    next hsave =>
      cases h
      exact (save_ok hsave).2.1

theorem companion_ready {α : Type} {format : Format α} {file : Option (List UInt8)}
    {new document : α} {magic : Bytes 6} {key : Bytes 16 → Key} {salt : Bytes 16}
    {store : ChatServiceStore Key} {cipher : Cipher Key} {codec : Codec (List UInt8)}
    (h : companion cipher codec format file new magic key salt = .ok (store, document)) :
    store.Ready := by
  unfold companion at h
  split at h
  next raw =>
    obtain ⟨⟨opened, bytes⟩, hopen, h⟩ := bind_eq_ok.mp h
    obtain ⟨_, -, h⟩ := bind_eq_ok.mp h
    cases h
    exact (open_cases hopen).2
  · obtain ⟨created, hcreate, h⟩ := bind_eq_ok.mp h
    cases h
    cases hcreate
    rfl

/-- A profile that was unlocked was saved. -/
theorem unlock_saved {files : Files} {opening : Opening}
    (h : env.unlock files opening = .ok s) : s.Saved env := by
  unfold Env.unlock at h
  obtain ⟨⟨legacy, state⟩, hlegacy, h⟩ := bind_eq_ok.mp h
  obtain ⟨_, -, h⟩ := bind_eq_ok.mp h
  obtain ⟨⟨store, opened⟩, hopen, h⟩ := bind_eq_ok.mp h
  have hready : store.Ready := by
    unfold ServiceStateStore.open at hopen
    obtain ⟨⟨hosted, retained⟩, hhosted, hopen⟩ := bind_eq_ok.mp hopen
    obtain ⟨⟨contacts, book⟩, hcontacts, hopen⟩ := bind_eq_ok.mp hopen
    obtain ⟨⟨preferences, prefs⟩, hpreferences, hopen⟩ := bind_eq_ok.mp hopen
    obtain ⟨_, -, hopen⟩ := bind_eq_ok.mp hopen
    cases hopen
    exact ⟨companion_ready hhosted, companion_ready hcontacts, companion_ready hpreferences,
      openOrCreate_ready hlegacy⟩
  dsimp only at h
  split at h
  · cases h
  next saved _ hsave =>
    cases h
    obtain ⟨hready, hwithin⟩ := within_of_save hready hsave
    exact ⟨hready, hwithin⟩

/-- After operations that returned `ok`, each document is within the bound, and a save is
refused only if one of its own documents is not. -/
theorem accepted_within {files : Files} {opening : Opening} {operations : List (Operation Rest)}
    (hunlock : env.unlock files opening = .ok s)
    (hrun : operations.foldlM env.accept s = some t) :
    Within env.formats t.store t.state ∧
      ∀ candidate io, Within env.formats t.store candidate → io.Works →
        ∃ store, t.store.save env.cipher env.codec env.formats candidate io = (store, .ok ()) := by
  have hreachable : (Machine.ofPartial s env.accept).Reachable t :=
    Machine.Reachable.foldlM (Machine.Reachable.start rfl) hrun
  have hsaved : t.Saved env := by
    refine hreachable.invariant ?_ ?_
    · intro u hu
      cases hu
      exact unlock_saved hunlock
    · intro u operation v _ hu hstep
      exact accept_saved hu hstep
  exact ⟨hsaved.within, fun candidate io => save_of_within hsaved.ready⟩

end Runs

namespace Sample

/-! ### A submission in a new profile -/

def comma (texts : List (List Char)) : List Char := List.intercalate [','] texts

def quote (text : String) : List Char := '\x22' :: text.toList ++ ['\x22']

def object (fields : List (String × List Char)) : List Char :=
  '\x7b' :: comma (fields.map fun f => quote f.1 ++ ':' :: f.2) ++ ['\x7d']

def array (entries : List (List Char)) : List Char := '[' :: comma entries ++ [']']

def number (n : ℕ) : List Char := Nat.toDigits 10 n

def null : List Char := ['n', 'u', 'l', 'l']

def off : List Char := ['f', 'a', 'l', 's', 'e']

/-- The JSON of a record without a response. -/
def recordText (r : Journal.OperationRecord) : List Char :=
  object [("action", quote r.action), ("conversation", (r.conversation.map quote).getD null),
    ("digest", quote r.digest), ("at", number r.admittedAt), ("response", null)]

/-- The JSON of a service state that has no more than submissions that run. The fields that are
not modelled are those of a new profile. -/
def legacyText (state : Legacy Unit) : List Char :=
  object [("networks", object []), ("topics", object []), ("observed_channels", object []),
    ("activity", array []), ("shared_files", array []), ("file_publications", object []),
    ("file_publication_sequence", number 0), ("files_observed", off),
    ("publications", object []), ("presence_enabled", off),
    ("instance_id", quote state.instanceId), ("safety_number", quote state.safetyNumber),
    ("read", object []), ("command_history", array []), ("input_history", array []),
    ("operations", object (state.operations.toList.map fun e => (e.1, recordText e.2))),
    ("message_metadata", object []),
    ("file_key", (state.fileKey.map fun key => array (key.toList.map (number ·.toNat))).getD null),
    ("file_config", object [("quota_bytes", number 0), ("retention_secs", number 0)])]

def absent {α : Type} : Format α := ⟨fun _ => .error "no sample", fun _ => .error "no sample"⟩

def env : Env Unit Unit where
  cipher := sampleCipher
  codec := Store.sampleCodec
  formats :=
    { retained := absent
      book := absent
      preferences := absent
      legacy :=
        { toVec := fun state => .ok ((legacyText state).map fun c => UInt8.ofNat c.toNat)
          fromSlice := fun _ => .error "no sample" } }
  keys := ⟨fun _ => (), fun _ _ _ => ()⟩
  contactCodec := Contacts.Sample.codec
  completionType := "application/vnd.gchat.file.v1"
  host := Journal.sampleHost
  newRest := ()

def io : Io := ⟨Bytes.fill 12 0, none⟩

def saveIo : SaveIo := ⟨io, io, io, io⟩

def opening : Opening where
  salts := ⟨Bytes.fill 16 1, Bytes.fill 16 2, Bytes.fill 16 3, Bytes.fill 16 4⟩
  fileKey := Bytes.fill 32 5
  safetyNumber := "12345"
  create := io
  save := saveIo

def files : Files := ⟨none, none, none, none⟩

def operations : List (Operation Unit) :=
  [.submit 1000 false ⟨"0123456789abcdef", none, "hello"⟩ saveIo saveIo]

end Sample

/-- The run of a test, from its outcome. -/
theorem run_of_map {α β γ : Type} {x : Except String α} {f : α → Option β} {g : β → γ} {c : γ}
    (h : (x.toOption.bind f).map g = some c) :
    ∃ s t, x = .ok s ∧ f s = some t ∧ g t = c := by
  obtain ⟨t, ht, hc⟩ := Option.map_eq_some_iff.mp h
  obtain ⟨s, hs, ht⟩ := Option.bind_eq_some_iff.mp ht
  exact ⟨s, t, toOption_eq_some.mp hs, ht, hc⟩

/-- A submission in a new profile leaves a state within the bound. -/
theorem sample_within : ∃ s t, Sample.env.unlock Sample.files Sample.opening = .ok s ∧
    Sample.operations.foldlM Sample.env.accept s = some t ∧
    t.state.operations.size = 1 ∧ Within Sample.env.formats t.store t.state := by
  have hrun : (((Sample.env.unlock Sample.files Sample.opening).toOption.bind
      (Sample.operations.foldlM Sample.env.accept)).map fun t => t.state.operations.size) =
        some 1 := by decide +kernel
  obtain ⟨s, t, hunlock, ht, hsize⟩ := run_of_map hrun
  exact ⟨s, t, hunlock, ht, hsize, (accepted_within hunlock ht).1⟩

end Service

end GChat
