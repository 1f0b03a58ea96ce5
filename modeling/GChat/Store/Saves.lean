import GChat.Foundation.Machine
import GChat.Store.Encrypted

/-!
# Runs of saves

A profile over time: its file, the store that has it open, and the values saves were
called with. Any step of any save may fail, and the profile may be opened again after
any of them. The file is always the output of an attempted save. That the flag of the
store agrees with the file, and with it that a failed save changes nothing, is only true
as long as the sync of the directory does not fail: it comes after the rename.
-/

namespace GChat

namespace Store

open Foundation

structure Profile (Key Data : Type) where
  file : Option (List UInt8)
  store : Option (EncryptedStore Key)
  attempted : List Data

inductive Event (Data : Type) where
  | create (salt : Bytes 16)
  | reopen
  | save (data : Data) (nonce : Bytes 12) (fault : Option (Fault × String))

section

variable {Key Data : Type} (cipher : Cipher Key) (codec : Codec Data) (magic : Bytes 6)
  (label corruption : String) (key : Bytes 16 → Key)

/-- Creating and opening drop the store that was open before. -/
def Profile.step (s : Profile Key Data) : Event Data → Profile Key Data
  | .create salt => { s with store := (createWithKey s.file magic label salt key).toOption }
  | .reopen =>
      { s with
        store := s.file.bind fun raw =>
          (openWithKey cipher codec raw magic corruption key).toOption.map Prod.fst }
  | .save data nonce fault =>
      match s.store with
      | none => s
      | some store =>
          let saved := store.save cipher codec s.file nonce data fault
          { file := saved.2.1, store := some saved.1, attempted := data :: s.attempted }

def profiles : Machine (Profile Key Data) (Event Data) :=
  .ofFun ⟨none, none, []⟩ (Profile.step cipher codec magic label corruption key)

/-- The file decodes to the value of an attempted save, a save that fails by an allowed fault
leaves the file as it was, and a save without a fault succeeds and is what is opened next. -/
structure Profile.AllOrNothing (allowed : Option (Fault × String) → Prop)
    (s : Profile Key Data) : Prop where
  decodes : ∀ raw, s.file = some raw → ∃ store, ∃ data ∈ s.attempted,
    openWithKey cipher codec raw magic corruption key = .ok (store, data)
  keeps : ∀ store, s.store = some store → ∀ data nonce fault message, allowed fault →
    (store.save cipher codec s.file nonce data fault).2.2 = .error message →
    (store.save cipher codec s.file nonce data fault).2.1 = s.file
  recovers : ∀ store, s.store = some store → ∀ data nonce,
    (store.save cipher codec s.file nonce data none).2.2 = .ok () ∧
      ∃ raw opened, (store.save cipher codec s.file nonce data none).2.1 = some raw ∧
        openWithKey cipher codec raw magic corruption key = .ok (opened, data)

end

/-- The write does not fail after its rename. -/
def Settled (fault : Option (Fault × String)) : Prop :=
  ∀ message, fault ≠ some (.syncDirectory, message)

def Event.Settled {Data : Type} : Event Data → Prop
  | .save _ _ fault => Store.Settled fault
  | _ => True

/-- The bytes between two parts of a file. -/
theorem slice_between {before part after : List UInt8} {start n : ℕ}
    (hstart : before.length = start) (hn : part.length = n) :
    slice (before ++ (part ++ after)) start n = part := by
  rw [slice, ← hstart, ← hn, List.drop_left, List.take_left]

section Outputs

variable {Key Data : Type} {cipher : Cipher Key} {codec : Codec Data} {magic : Bytes 6}
  {corruption : String} {key : Bytes 16 → Key}

theorem length_output (store : EncryptedStore Key) (nonce : Bytes 12) (data : Data) :
    (store.output cipher codec nonce data).length =
      headerLen + (cipher.encrypt store.key nonce [] (codec.encode data)).length := by
  simp only [EncryptedStore.output, List.length_append, Bytes.length_toList,
    length_toBigEndian, headerLen]

theorem drop_output (store : EncryptedStore Key) (nonce : Bytes 12) (data : Data) :
    (store.output cipher codec nonce data).drop headerLen =
      cipher.encrypt store.key nonce [] (codec.encode data) := by
  unfold EncryptedStore.output
  apply List.drop_left'
  simp only [List.length_append, Bytes.length_toList, length_toBigEndian, headerLen]

/-- The header of an output is read back. -/
theorem parseHeader_output (hcipher : cipher.Lawful) (store : EncryptedStore Key)
    (nonce : Bytes 12) (data : Data) :
    parseHeader (store.output cipher codec nonce data) store.magic =
      .ok (store.salt, nonce) := by
  have htag := hcipher.tag store.key nonce [] (codec.encode data)
  have hlength : (store.output cipher codec nonce data).length = _ := length_output store nonce data
  have hparts : store.output cipher codec nonce data =
      store.magic.toList ++ (toBigEndian argonMCost ++ (toBigEndian argonTCost ++
        (toBigEndian argonPCost ++ (store.salt.toList ++ (nonce.toList ++
          cipher.encrypt store.key nonce [] (codec.encode data)))))) := by
    simp only [EncryptedStore.output, List.append_assoc]
  generalize store.output cipher codec nonce data = raw at hlength hparts
  have hmagic : slice raw 0 6 = store.magic.toList := by
    rw [hparts]
    exact @slice_between [] _ _ _ _ rfl store.magic.length_toList
  have hm : slice raw 6 4 = toBigEndian argonMCost := by
    rw [hparts]
    exact slice_between store.magic.length_toList rfl
  have ht : slice raw 10 4 = toBigEndian argonTCost := by
    rw [hparts, ← List.append_assoc]
    exact slice_between (by simp [Bytes.length_toList]) rfl
  have hp : slice raw 14 4 = toBigEndian argonPCost := by
    rw [hparts, ← List.append_assoc, ← List.append_assoc]
    exact slice_between (by simp [Bytes.length_toList]) rfl
  have hsalt : slice raw 18 16 = store.salt.toList := by
    rw [hparts, ← List.append_assoc, ← List.append_assoc, ← List.append_assoc]
    exact slice_between (by simp [Bytes.length_toList]) store.salt.length_toList
  have hnonce : slice raw 34 12 = nonce.toList := by
    rw [hparts, ← List.append_assoc, ← List.append_assoc, ← List.append_assoc,
      ← List.append_assoc]
    exact slice_between (by simp [Bytes.length_toList]) nonce.length_toList
  have hpolicy : ¬ (fromBigEndian (toBigEndian argonMCost) ≠ argonMCost ∨
      fromBigEndian (toBigEndian argonTCost) ≠ argonTCost ∨
      fromBigEndian (toBigEndian argonPCost) ≠ argonPCost) := by
    decide
  have hsalt : sliceBytes raw 18 16 (by rw [hlength, headerLen]; omega) = store.salt :=
    Bytes.toList_injective hsalt
  have hnonce : sliceBytes raw 34 12 (by rw [hlength, headerLen]; omega) = nonce :=
    Bytes.toList_injective hnonce
  unfold parseHeader
  rw [dif_pos ⟨by omega, hmagic⟩, hm, ht, hp, if_neg hpolicy, hsalt, hnonce]

/-- An output is opened by the key it was sealed with. -/
theorem openWithKey_output (hcipher : cipher.Lawful)
    (store : EncryptedStore Key) (hkey : store.key = key store.salt)
    (corruption : String) (nonce : Bytes 12) (data : Data) :
    openWithKey cipher codec (store.output cipher codec nonce data) store.magic corruption key =
      .ok ({ store with initialized := true }, data) := by
  unfold openWithKey
  rw [parseHeader_output hcipher, drop_output]
  simp [bind, Except.bind, ← hkey, hcipher.decrypt_encrypt, codec.decode_encode_self, okOr, refuse]

end Outputs

/-- What one write does: nothing, or the bytes are in place. -/
theorem atomicWrite_cases (file : Option (List UInt8)) (bytes : List UInt8) (noClobber : Bool)
    (fault : Option (Fault × String)) :
    (∃ message, atomicWrite file bytes noClobber fault = (file, .error message)) ∨
      (∃ message, fault = some (.syncDirectory, message) ∧
        atomicWrite file bytes noClobber fault = (some bytes, .error message)) ∨
      fault = none ∧ atomicWrite file bytes noClobber fault = (some bytes, .ok ()) := by
  unfold atomicWrite
  split
  · rename_i message
    split
    · exact Or.inl ⟨_, rfl⟩
    · exact Or.inr (Or.inl ⟨message, rfl, rfl⟩)
  · exact Or.inl ⟨_, rfl⟩
  · split
    · exact Or.inl ⟨_, rfl⟩
    · exact Or.inr (Or.inr ⟨rfl, rfl⟩)

section Runs

variable {Key Data : Type} {cipher : Cipher Key} {codec : Codec Data} {magic : Bytes 6}
  {label corruption : String} {key : Bytes 16 → Key}

/-- What one save does. -/
theorem save_cases (cipher : Cipher Key) (codec : Codec Data) (store : EncryptedStore Key)
    (file : Option (List UInt8)) (nonce : Bytes 12) (data : Data)
    (fault : Option (Fault × String)) :
    (∃ message, store.save cipher codec file nonce data fault = (store, file, .error message)) ∨
      (∃ message, fault = some (.syncDirectory, message) ∧
        store.save cipher codec file nonce data fault =
          (store, some (store.output cipher codec nonce data), .error message)) ∨
      fault = none ∧ store.save cipher codec file nonce data fault =
        ({ store with initialized := true }, some (store.output cipher codec nonce data),
          .ok ()) := by
  unfold EncryptedStore.save
  obtain ⟨message, hwrite⟩ | ⟨message, hfault, hwrite⟩ | ⟨hfault, hwrite⟩ :=
    atomicWrite_cases file (store.output cipher codec nonce data) (!store.initialized) fault
  · rw [hwrite]
    exact Or.inl ⟨message, rfl⟩
  · rw [hwrite]
    exact Or.inr (Or.inl ⟨message, hfault, rfl⟩)
  · rw [hwrite]
    exact Or.inr (Or.inr ⟨hfault, rfl⟩)

/-- A store whose flag agrees with the file saves where nothing fails. -/
theorem save_none {store : EncryptedStore Key} {file : Option (List UInt8)}
    (h : store.initialized = file.isSome) (cipher : Cipher Key) (codec : Codec Data)
    (nonce : Bytes 12) (data : Data) :
    store.save cipher codec file nonce data none =
      ({ store with initialized := true }, some (store.output cipher codec nonce data),
        .ok ()) := by
  have hwrite : atomicWrite file (store.output cipher codec nonce data) (!store.initialized)
      none = (some (store.output cipher codec nonce data), .ok ()) := by
    rw [h]
    cases file with
    | none => rfl
    | some raw => rfl
  unfold EncryptedStore.save
  rw [hwrite]

/-- A store that does not know of its file never saves again. -/
theorem save_stuck {store : EncryptedStore Key} (h : store.initialized = false)
    (cipher : Cipher Key) (codec : Codec Data) (raw : List UInt8) (nonce : Bytes 12)
    (data : Data) (fault : Option (Fault × String)) :
    ∃ message, store.save cipher codec (some raw) nonce data fault =
      (store, some raw, .error message) := by
  have hwrite : ∃ message, atomicWrite (some raw) (store.output cipher codec nonce data)
      (!store.initialized) fault = (some raw, .error message) := by
    rw [h]
    unfold atomicWrite
    split <;> exact ⟨_, rfl⟩
  obtain ⟨message, hwrite⟩ := hwrite
  unfold EncryptedStore.save
  rw [hwrite]
  exact ⟨message, rfl⟩

/-- The store was opened or created with the profile's key. -/
def Keyed (magic : Bytes 6) (key : Bytes 16 → Key) (store : EncryptedStore Key) : Prop :=
  store.magic = magic ∧ store.key = key store.salt

/-- The file is the output of an attempted save. -/
structure Profile.Sound (cipher : Cipher Key) (codec : Codec Data) (magic : Bytes 6)
    (key : Bytes 16 → Key) (s : Profile Key Data) : Prop where
  file : ∀ raw, s.file = some raw → ∃ store nonce, ∃ data ∈ s.attempted,
    Keyed magic key store ∧ raw = store.output cipher codec nonce data
  store : ∀ store, s.store = some store → Keyed magic key store

/-- The flag of the store says whether there is a file. -/
def Profile.Tracks (s : Profile Key Data) : Prop :=
  ∀ store, s.store = some store → store.initialized = s.file.isSome

theorem create_cases {file : Option (List UInt8)} {salt : Bytes 16} {store : EncryptedStore Key}
    (h : (createWithKey file magic label salt key).toOption = some store) :
    file = none ∧ Keyed magic key store ∧ store.initialized = false := by
  unfold createWithKey at h
  cases file with
  | none =>
      cases h
      exact ⟨rfl, ⟨rfl, rfl⟩, rfl⟩
  | some raw => cases h

theorem open_cases {raw : List UInt8} {store : EncryptedStore Key} {data : Data}
    (h : openWithKey cipher codec raw magic corruption key = .ok (store, data)) :
    Keyed magic key store ∧ store.initialized = true := by
  unfold openWithKey at h
  obtain ⟨⟨salt, nonce⟩, -, h⟩ := bind_eq_ok.mp h
  obtain ⟨plain, -, h⟩ := bind_eq_ok.mp h
  split at h
  · cases h
  · obtain ⟨-, -, h⟩ := bind_eq_ok.mp h
    cases h
    exact ⟨⟨rfl, rfl⟩, rfl⟩

theorem reopen_cases {file : Option (List UInt8)} {store : EncryptedStore Key}
    (h : (file.bind fun raw =>
      (openWithKey cipher codec raw magic corruption key).toOption.map Prod.fst) = some store) :
    file.isSome = true ∧ Keyed magic key store ∧ store.initialized = true := by
  obtain ⟨raw, rfl, h⟩ := Option.bind_eq_some_iff.mp h
  obtain ⟨⟨other, data⟩, hopen, rfl⟩ := Option.map_eq_some_iff.mp h
  exact ⟨rfl, open_cases (toOption_eq_some.mp hopen)⟩

theorem Profile.Sound.step {s : Profile Key Data} (hs : s.Sound cipher codec magic key)
    (event : Event Data) :
    (s.step cipher codec magic label corruption key event).Sound cipher codec magic key := by
  cases event with
  | create salt => exact ⟨hs.file, fun store h => (create_cases h).2.1⟩
  | reopen => exact ⟨hs.file, fun store h => (reopen_cases h).2.1⟩
  | save data nonce fault =>
      unfold Profile.step
      cases hstore : s.store with
      | none => exact hs
      | some store =>
          have hkeyed := hs.store store hstore
          have hold : ∀ raw, s.file = some raw → ∃ store nonce, ∃ other ∈ data :: s.attempted,
              Keyed magic key store ∧ raw = store.output cipher codec nonce other := by
            intro raw hraw
            obtain ⟨before, nonce, other, hmem, h⟩ := hs.file raw hraw
            exact ⟨before, nonce, other, List.mem_cons_of_mem _ hmem, h⟩
          have hnew : ∀ raw, some (store.output cipher codec nonce data) = some raw →
              ∃ store nonce, ∃ other ∈ data :: s.attempted,
                Keyed magic key store ∧ raw = store.output cipher codec nonce other := by
            intro raw hraw
            cases hraw
            exact ⟨store, nonce, data, List.mem_cons_self, hkeyed, rfl⟩
          dsimp only
          obtain ⟨message, hsave⟩ | ⟨message, -, hsave⟩ | ⟨-, hsave⟩ :=
            save_cases cipher codec store s.file nonce data fault
          · rw [hsave]
            exact ⟨hold, fun other h => Option.some.inj h ▸ hkeyed⟩
          · rw [hsave]
            exact ⟨hnew, fun other h => Option.some.inj h ▸ hkeyed⟩
          · rw [hsave]
            exact ⟨hnew, fun other h => Option.some.inj h ▸ hkeyed⟩

theorem Profile.Tracks.step {s : Profile Key Data} (hs : s.Tracks) {event : Event Data}
    (h : event.Settled) : (s.step cipher codec magic label corruption key event).Tracks := by
  cases event with
  | create salt =>
      intro store hcreate
      obtain ⟨hfile, -, hinitialized⟩ := create_cases hcreate
      change store.initialized = s.file.isSome
      rw [hinitialized, hfile]
      rfl
  | reopen =>
      intro store hopen
      obtain ⟨hfile, -, hinitialized⟩ := reopen_cases hopen
      exact hinitialized.trans hfile.symm
  | save data nonce fault =>
      unfold Profile.step
      cases hstore : s.store with
      | none => exact hs
      | some store =>
          dsimp only
          obtain ⟨message, hsave⟩ | ⟨message, hfault, -⟩ | ⟨-, hsave⟩ :=
            save_cases cipher codec store s.file nonce data fault
          · rw [hsave]
            intro other hother
            cases hother
            exact hs store hstore
          · exact absurd hfault (h message)
          · rw [hsave]
            intro other hother
            cases hother
            rfl

/-- In every run, whatever fails, the file is the output of an attempted save. -/
theorem sound_of_reachable {s : Profile Key Data}
    (hs : (profiles cipher codec magic label corruption key).Reachable s) :
    s.Sound cipher codec magic key := by
  apply Machine.Reachable.invariant _ _ hs
  · rintro _ rfl
    constructor
    · intro raw h
      cases h
    · intro store h
      cases h
  · rintro s event _ - hsound rfl
    exact hsound.step event

theorem tracks_of_reachable {s : Profile Key Data}
    (hs : ((profiles cipher codec magic label corruption key).restrict
      fun _ event => event.Settled).Reachable s) : s.Tracks := by
  apply Machine.Reachable.invariant _ _ hs
  · rintro _ rfl store h
    cases h
  · rintro s event _ - htracks ⟨hsettled, rfl⟩
    exact htracks.step hsettled

/-- As long as no save fails after its rename, saves are all or nothing and can be repeated. -/
theorem saves_all_or_nothing (hcipher : cipher.Lawful)
    {s : Profile Key Data}
    (hs : ((profiles cipher codec magic label corruption key).restrict
      fun _ event => event.Settled).Reachable s) :
    s.AllOrNothing cipher codec magic corruption key Settled := by
  have hsound := sound_of_reachable hs.of_restrict
  have htracks := tracks_of_reachable hs
  constructor
  · intro raw hraw
    obtain ⟨store, nonce, data, hmem, ⟨rfl, hkey⟩, rfl⟩ := hsound.file raw hraw
    exact ⟨_, data, hmem, openWithKey_output hcipher store hkey corruption nonce data⟩
  · intro store hstore data nonce fault message hsettled herror
    obtain ⟨_, hsave⟩ | ⟨other, hfault, -⟩ | ⟨-, hsave⟩ :=
      save_cases cipher codec store s.file nonce data fault
    · rw [hsave]
    · exact absurd hfault (hsettled other)
    · rw [hsave] at herror
      cases herror
  · intro store hstore data nonce
    obtain ⟨rfl, hkey⟩ := hsound.store store hstore
    rw [save_none (htracks store hstore)]
    exact ⟨rfl, _, _, rfl, openWithKey_output hcipher store hkey corruption nonce data⟩

end Runs

section Sample

/-- A cipher that appends a tag of zeros. -/
def sampleCipher : Cipher Unit where
  encrypt _ _ _ plain := plain ++ List.replicate 16 0
  decrypt _ _ _ sealed :=
    if sealed.drop (sealed.length - 16) = List.replicate 16 0 then
      some (sealed.take (sealed.length - 16))
    else none

/-- The bytes of a service state, as they are. -/
def sampleCodec : Codec (List UInt8) := Codec.block

theorem sampleCipher_lawful : sampleCipher.Lawful := by
  constructor
  · intro key nonce associated plain
    simp [sampleCipher]
  · intro key nonce associated plain
    simp [sampleCipher]

theorem length_sampleMagic : [71, 67, 67, 85, 73, (49 : UInt8)].length = 6 := rfl

def sampleMagic : Bytes 6 := ⟨[71, 67, 67, 85, 73, 49], length_sampleMagic⟩

def sampleProfiles : Machine (Profile Unit (List UInt8)) (Event (List UInt8)) :=
  profiles sampleCipher sampleCodec sampleMagic "chat service state"
    "wrong passphrase or corrupted chat service state" fun _ => ()

def Profile.run (events : List (Event (List UInt8))) : Profile Unit (List UInt8) :=
  events.foldl (Profile.step sampleCipher sampleCodec sampleMagic "chat service state"
    "wrong passphrase or corrupted chat service state" fun _ => ()) ⟨none, none, []⟩

/-- A second save whose rename fails, and a restart. -/
def renameFails : List (Event (List UInt8)) :=
  [.create (Bytes.fill 16 1), .save [1] (Bytes.fill 12 0) none,
    .save [2] (Bytes.fill 12 0) (some (.rename, "No space left on device (os error 28)")), .reopen]

theorem renameFails_all_or_nothing :
    (Profile.run renameFails).AllOrNothing sampleCipher sampleCodec sampleMagic
        "wrong passphrase or corrupted chat service state" (fun _ => ()) Settled ∧
      (Profile.run renameFails).file.isSome = true := by
  have hmeets : Machine.Meets (fun _ event => Event.Settled event)
      (Profile.step sampleCipher sampleCodec sampleMagic "chat service state"
        "wrong passphrase or corrupted chat service state" fun _ => ()) ⟨none, none, []⟩
      renameFails := by
    simp [renameFails, Machine.Meets, Event.Settled, Settled]
  constructor
  · exact saves_all_or_nothing sampleCipher_lawful
      (Machine.Reachable.restrict_foldl (Machine.Reachable.start rfl) hmeets)
  · rfl

/-- The directory sync of the first save fails. -/
def directoryFails : List (Event (List UInt8)) :=
  [.create (Bytes.fill 16 1),
    .save [1] (Bytes.fill 12 0) (some (.syncDirectory, "Input/output error (os error 5)"))]

/-- The failed save has left its value in the file, and no later save succeeds. -/
theorem directoryFails_stuck :
    ¬ ∀ s, sampleProfiles.Reachable s →
      s.AllOrNothing sampleCipher sampleCodec sampleMagic
        "wrong passphrase or corrupted chat service state" (fun _ => ()) fun _ => True := by
  intro h
  have hreachable : sampleProfiles.Reachable (Profile.run directoryFails) :=
    Machine.Reachable.foldl (Machine.Reachable.start rfl) directoryFails
  have hoff : (⟨sampleMagic, Bytes.fill 16 1, (), false⟩ : EncryptedStore Unit).initialized =
      false := rfl
  obtain ⟨hsaved, -⟩ := (h _ hreachable).recovers _ rfl [2] (Bytes.fill 12 0)
  obtain ⟨message, hstuck⟩ := save_stuck hoff sampleCipher sampleCodec _ (Bytes.fill 12 0) [2]
    none
  cases hsaved.symm.trans (congrArg (fun saved => saved.2.2) hstuck)

end Sample

end Store

end GChat
