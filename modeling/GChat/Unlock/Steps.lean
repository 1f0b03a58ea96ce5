import GChat.Unlock.Files

/-!
# What each step of unlocking leaves

Whatever fails, an archive that is there opens again with the same passphrase, and the files of
the service stay sound. Where nothing local fails, no step fails but the one over the network.
-/

namespace GChat

namespace Unlock

open Foundation Store
open Effect (Meets meets_pure meets_lift meets_step meets_get meets_and)
open Migration (legacyArchiveMagic archiveMagic legacyArchiveDataCodec archiveDataCodec)

/-- Nothing fails but what comes over the network. -/
structure Attempt.Local (a : Attempt) : Prop where
  createFault : a.createFault = none
  archiveFault : a.archiveFault = none
  openFault : a.openFault = none
  channelInbox : a.channelInbox = .ok ()
  listing : ∃ joined, a.listing = .ok joined ∧ ∀ j ∈ joined, ∃ roster, j.2 = .ok roster
  serviceFault : a.serviceFault = none
  presence : ∀ channel, a.presence channel = .ok ()
  serviceIo : a.serviceIo.fault = none
  companionFault : a.companionFault = none
  save : a.save.Works

section Archive

variable {Key Rest : Type} {i : Instance Key Rest} {passphrase : String} {a : Attempt}
  {data : ArchiveFile} {store : EncryptedStore Key} {raw : List UInt8}

def HoldsArchive (i : Instance Key Rest) (passphrase : String) : List UInt8 → ArchiveFile → Prop :=
  Migration.Holds i.env.cipher (i.derive passphrase) legacyArchiveMagic archiveMagic
    "wrong passphrase or corrupted archive" legacyArchiveDataCodec (archiveDataCodec i.rooms)
    (Migration.LegacyArchiveData.upgrade Rooms.empty.toStored)

/-- An archive that is there is one of this instance, under the passphrase. -/
def KeepsArchive (i : Instance Key Rest) (passphrase : String) (file : Option (List UInt8)) :
    Prop :=
  ∀ raw, file = some raw → ∃ data, HoldsArchive i passphrase raw data ∧
    data.daemonSafetyNumber = i.safetyNumber

theorem keepsArchive_none : KeepsArchive i passphrase none := by
  intro raw h
  cases h

/-- What a store of the archive writes. -/
theorem keepsArchive_output (hcipher : i.env.cipher.Lawful)
    (hstore : Keyed archiveMagic (i.derive passphrase) store)
    (hdata : data.daemonSafetyNumber = i.safetyNumber) (nonce : Bytes 12) :
    KeepsArchive i passphrase
      (some (store.output i.env.cipher (archiveDataCodec i.rooms) nonce data)) := by
  intro raw hraw
  cases hraw
  exact ⟨data, Migration.holds_output hcipher (by decide) store hstore.1 hstore.2 nonce data, hdata⟩

/-- A save leaves the archive as it was, or as an archive of the same instance. -/
theorem keepsArchive_save (hcipher : i.env.cipher.Lawful) {file : Option (List UInt8)}
    (hfile : KeepsArchive i passphrase file)
    (hstore : Keyed archiveMagic (i.derive passphrase) store)
    (hdata : data.daemonSafetyNumber = i.safetyNumber) (nonce : Bytes 12)
    (fault : Option (Fault × String)) :
    KeepsArchive i passphrase
        (store.save i.env.cipher (archiveDataCodec i.rooms) file nonce data fault).2.1 ∧
      Keyed archiveMagic (i.derive passphrase)
        (store.save i.env.cipher (archiveDataCodec i.rooms) file nonce data fault).1 := by
  have houtput := keepsArchive_output hcipher hstore hdata nonce
  obtain ⟨message, hsave⟩ | ⟨message, -, hsave⟩ | ⟨-, hsave⟩ :=
    save_cases i.env.cipher (archiveDataCodec i.rooms) store file nonce data fault
  · rw [hsave]
    exact ⟨hfile, hstore⟩
  · rw [hsave]
    exact ⟨houtput, hstore⟩
  · rw [hsave]
    exact ⟨houtput, hstore⟩

/-- The store of an archive that was opened has the key of the passphrase. -/
theorem openArchive_keyed {nonce : Bytes 12} {fault : Option (Migration.OpenPoint × String)}
    (h : (Migration.openArchive i.env.cipher (i.derive passphrase) i.rooms Rooms.empty.toStored raw
      nonce fault).2 = .ok (store, data)) :
    Keyed archiveMagic (i.derive passphrase) store := by
  unfold Migration.openArchive Migration.openUpgrading at h
  dsimp only at h
  split at h
  · cases h
  · split at h
    · split at h
      · cases h
      next old legacy hopen =>
        obtain ⟨-, hkey, -⟩ := Migration.openWithKey_cases hopen
        obtain ⟨message, hsave⟩ | ⟨message, -, hsave⟩ | ⟨-, hsave⟩ :=
          save_cases i.env.cipher (archiveDataCodec i.rooms) { old with magic := archiveMagic }
            (some raw) nonce
            (Migration.LegacyArchiveData.upgrade Rooms.empty.toStored legacy)
            (Migration.saveFault fault)
        · rw [hsave] at h
          cases h
        · rw [hsave] at h
          cases h
        · rw [hsave] at h
          cases h
          exact ⟨rfl, hkey⟩
    · obtain ⟨hmagic, hkey, -⟩ := Migration.openWithKey_cases h
      exact ⟨hmagic, hkey⟩

end Archive

section Meeting

variable {Key Rest : Type} {i : Instance Key Rest} {passphrase : String} {a : Attempt}
  {values : List String} {sound smooth : Prop}

/-- The files an attempt works on. Those of the service are only sound if they were before. -/
structure Kept (i : Instance Key Rest) (passphrase : String) (sound : Prop) (disk : Disk) :
    Prop where
  archive : KeepsArchive i passphrase disk.archive
  service : sound → Sound (i.keyed passphrase) i.safetyNumber disk.service

/-- After a failure. The attempt was not one in which all goes well. -/
def Stopped (i : Instance Key Rest) (passphrase : String) (sound smooth : Prop) (disk : Disk) :
    Prop :=
  Kept i passphrase sound disk ∧ ¬smooth

/-- A client with the archive of this instance open. -/
structure Client.Keeps (i : Instance Key Rest) (passphrase : String) (client : Client Key) :
    Prop where
  store : Keyed archiveMagic (i.derive passphrase) client.store
  safetyNumber : client.safetyNumber = i.safetyNumber

theorem meets_check {Point : Type} [DecidableEq Point] {fault : Option (Point × String)}
    {point : Point} {P E : Disk → Prop} (h : fault ≠ none → ∀ disk, P disk → E disk) :
    Meets P (Effect.lift (Migration.check fault point)) (fun _ => P) E := by
  refine meets_lift (fun _ _ _ hdisk => hdisk) fun message hcheck disk hdisk => h ?_ disk hdisk
  rintro rfl
  cases hcheck

/-- A step that fails only where something local does. -/
theorem stopped_of {disk : Disk} (hkept : Kept i passphrase sound disk)
    (hsmooth : smooth → a.Local) (hfault : ¬a.Local) : Stopped i passphrase sound smooth disk :=
  ⟨hkept, fun h => hfault (hsmooth h)⟩

theorem saveArchive_meets (hcipher : i.env.cipher.Lawful) (hsmooth : smooth → a.Local)
    {store : EncryptedStore Key} {file : Option (List UInt8)}
    (hstore : Keyed archiveMagic (i.derive passphrase) store)
    (hready : store.initialized = file.isSome) :
    Meets (fun disk => Kept i passphrase sound disk ∧ disk.archive = file)
      (saveArchive i store (newArchive i) a.archiveNonce a.archiveFault)
      (fun store disk => Kept i passphrase sound disk ∧
        Keyed archiveMagic (i.derive passphrase) store)
      (Stopped i passphrase sound smooth) := by
  have hdata : (newArchive i).daemonSafetyNumber = i.safetyNumber := rfl
  have hsaved := fun disk (hkept : Kept i passphrase sound disk) =>
    keepsArchive_save hcipher hkept.archive hstore hdata a.archiveNonce a.archiveFault
  refine meets_step ?_ ?_
  · rintro disk ⟨hkept, -⟩ opened after hrun
    obtain ⟨harchive, hkeyed⟩ := hsaved disk hkept
    revert hrun harchive hkeyed
    obtain ⟨store, file, result⟩ := store.save i.env.cipher (archiveDataCodec i.rooms)
      disk.archive a.archiveNonce (newArchive i) a.archiveFault
    intro hrun harchive hkeyed
    cases result with
    | error message => cases hrun
    | ok _ =>
        cases hrun
        exact ⟨⟨harchive, hkept.service⟩, hkeyed⟩
  · rintro disk ⟨hkept, rfl⟩ message after hrun
    refine stopped_of ⟨?_, ?_⟩ hsmooth fun hlocal => ?_
    · have harchive := (hsaved disk hkept).1
      revert hrun harchive
      obtain ⟨store, file, result⟩ := store.save i.env.cipher (archiveDataCodec i.rooms)
        disk.archive a.archiveNonce (newArchive i) a.archiveFault
      intro hrun harchive
      cases (congrArg Prod.fst hrun : _ = after)
      exact harchive
    · cases (congrArg Prod.fst hrun : _ = after)
      exact hkept.service
    · rw [hlocal.archiveFault, save_none hready] at hrun
      cases hrun

theorem createArchive_meets (hcipher : i.env.cipher.Lawful) (hsmooth : smooth → a.Local) :
    Meets (fun disk => Kept i passphrase sound disk ∧ (smooth → disk.archive = none))
      (createArchive i passphrase a)
      (fun opened disk => Kept i passphrase sound disk ∧
        Keyed archiveMagic (i.derive passphrase) opened.1 ∧
        opened.2.daemonSafetyNumber = i.safetyNumber)
      (Stopped i passphrase sound smooth) := by
  unfold createArchive
  refine (meets_check fun hfault disk hdisk => ?_).bind fun _ => ?_
  · exact stopped_of hdisk.1 hsmooth fun hlocal => hfault hlocal.createFault
  refine (meets_check fun hfault disk hdisk => ?_).bind fun _ => ?_
  · exact stopped_of hdisk.1 hsmooth fun hlocal => hfault hlocal.createFault
  refine meets_get fun disk hdisk => ?_
  refine (meets_lift (Q := fun store current => current = disk ∧ disk.archive = none ∧
    Keyed archiveMagic (i.derive passphrase) store ∧ store.initialized = false) ?_ ?_).bind ?_
  · rintro store hcreate current rfl
    obtain ⟨hnone, hkeyed, hinitialized⟩ := create_cases (toOption_eq_some.mpr hcreate)
    exact ⟨rfl, hnone, hkeyed, hinitialized⟩
  · rintro message hcreate current rfl
    refine ⟨hdisk.1, fun h => ?_⟩
    rw [hdisk.2 h] at hcreate
    cases hcreate
  · intro store
    refine Meets.bind (Q := fun store disk => Kept i passphrase sound disk ∧
      Keyed archiveMagic (i.derive passphrase) store) ?_ fun store => ?_
    · rw [Effect.meets_iff]
      rintro current ⟨rfl, hnone, hkeyed, hinitialized⟩
      have hready : store.initialized = (none : Option (List UInt8)).isSome := hinitialized
      exact Effect.meets_iff.mp (saveArchive_meets hcipher hsmooth hkeyed hready) current
        ⟨hdisk.1, hnone⟩
    · exact meets_pure fun disk h => ⟨h.1, h.2, rfl⟩

theorem openArchive_meets (hcipher : i.env.cipher.Lawful) (hsmooth : smooth → a.Local) :
    Meets (fun disk => Kept i passphrase sound disk ∧ (smooth → disk.archive ≠ none))
      (openArchive i passphrase a)
      (fun opened disk => Kept i passphrase sound disk ∧
        Keyed archiveMagic (i.derive passphrase) opened.1 ∧
        opened.2.daemonSafetyNumber = i.safetyNumber)
      (Stopped i passphrase sound smooth) := by
  refine meets_step ?_ ?_
  · rintro disk ⟨hkept, -⟩ ⟨store, data⟩ after hrun
    cases harchive : disk.archive with
    | none =>
        rw [harchive] at hrun
        cases hrun
    | some raw =>
        rw [harchive] at hrun
        obtain ⟨held, hheld, hsafety⟩ := hkept.archive raw harchive
        obtain ⟨hkeeps, hsame⟩ := Migration.Holds.openUpgrading hcipher (by decide) hheld
          a.archiveNonce a.openFault
        have hresult := congrArg Prod.snd hrun
        cases (congrArg Prod.fst hrun : _ = after)
        cases hsame store data hresult
        refine ⟨⟨?_, hkept.service⟩, openArchive_keyed hresult, hsafety⟩
        intro other hother
        cases hother
        exact ⟨_, hkeeps, hsafety⟩
  · rintro disk ⟨hkept, hthere⟩ message after hrun
    cases harchive : disk.archive with
    | none =>
        rw [harchive] at hrun
        cases hrun
        exact ⟨hkept, fun h => hthere h harchive⟩
    | some raw =>
        rw [harchive] at hrun
        obtain ⟨held, hheld, hsafety⟩ := hkept.archive raw harchive
        obtain ⟨hkeeps, -⟩ := Migration.Holds.openUpgrading hcipher (by decide) hheld
          a.archiveNonce a.openFault
        have hresult := congrArg Prod.snd hrun
        cases (congrArg Prod.fst hrun : _ = after)
        refine stopped_of ⟨?_, hkept.service⟩ hsmooth fun hlocal => ?_
        · intro other hother
          cases hother
          exact ⟨_, hkeeps, hsafety⟩
        · obtain ⟨store, hopen⟩ := Migration.Holds.opens hheld a.archiveNonce
          rw [hlocal.openFault] at hresult
          exact absurd (hopen.symm.trans hresult) nofun

theorem saveBackground_meets (hcipher : i.env.cipher.Lawful) (saves : List ArchiveSave)
    {client : Client Key} (hclient : client.Keeps i passphrase) :
    Meets (Kept i passphrase sound) (saveBackground i client saves)
      (fun client disk => Kept i passphrase sound disk ∧ client.Keeps i passphrase)
      (Stopped i passphrase sound smooth) := by
  induction saves generalizing client with
  | nil => exact meets_pure fun disk hkept => ⟨hkept, hclient⟩
  | cons save saves ih =>
      refine Meets.bind (Q := fun store disk => Kept i passphrase sound disk ∧
        Keyed archiveMagic (i.derive passphrase) store) (meets_step ?_ ?_) fun store => ?_
      · intro disk hkept store after hrun
        have hdata : (client.file save.rooms).daemonSafetyNumber = i.safetyNumber :=
          hclient.safetyNumber
        obtain ⟨harchive, hkeyed⟩ := keepsArchive_save hcipher hkept.archive hclient.store hdata
          save.nonce save.fault
        cases hrun
        exact ⟨⟨harchive, hkept.service⟩, hkeyed⟩
      · intro disk hkept message after hrun
        cases hrun
      · exact meets_and fun hkeyed => ih ⟨hkeyed, hclient.safetyNumber⟩

/-- The channels are brought in line where the runtime answers. -/
theorem reconcile_ok (hlocal : a.Local) (archive : Archive.ArchiveData) :
    (Archive.reconcile a.listing a.now archive).2 = .ok () := by
  obtain ⟨joined, hlisting, hrosters⟩ := hlocal.listing
  have hmerged : ∀ (joined : List (Archive.JoinedChannel × Except String (List Archive.RosterMember)))
      (data : Archive.ArchiveData), (∀ j ∈ joined, ∃ roster, j.2 = .ok roster) →
      (Archive.mergeListed a.now joined data).2 = .ok () := by
    intro joined
    induction joined with
    | nil => exact fun _ _ => rfl
    | cons j joined ih =>
        intro data hrosters
        obtain ⟨j, roster⟩ := j
        obtain ⟨members, rfl⟩ := hrosters _ List.mem_cons_self
        exact ih _ fun k hk => hrosters k (List.mem_cons_of_mem _ hk)
  unfold Archive.reconcile
  rw [hlisting]
  exact hmerged joined _ hrosters

theorem finish_meets (hcipher : i.env.cipher.Lawful) (hsmooth : smooth → a.Local)
    {store : EncryptedStore Key} {data : ArchiveFile}
    (hstore : Keyed archiveMagic (i.derive passphrase) store)
    (hdata : data.daemonSafetyNumber = i.safetyNumber) :
    Meets (Kept i passphrase sound) (finish i a store data)
      (fun client disk => Kept i passphrase sound disk ∧ client.Keeps i passphrase)
      (Stopped i passphrase sound smooth) := by
  unfold finish
  refine (meets_lift (Q := fun _ => Kept i passphrase sound) (fun _ _ _ hkept => hkept) ?_).bind
    fun _ => ?_
  · intro message herror disk hkept
    refine stopped_of hkept hsmooth fun hlocal => ?_
    rw [hlocal.channelInbox] at herror
    cases hembedded : i.embedded with
    | true =>
        rw [hembedded] at herror
        cases herror
    | false =>
        rw [hembedded] at herror
        cases herror
  refine (meets_lift (Q := fun _ => Kept i passphrase sound) (fun _ _ _ hkept => hkept) ?_).bind
    fun _ => ?_
  · intro message herror disk hkept
    refine stopped_of hkept hsmooth fun hlocal => ?_
    rw [reconcile_ok hlocal] at herror
    cases herror
  · exact saveBackground_meets hcipher a.background ⟨hstore, hdata⟩

theorem openService_meets (hcipher : i.env.cipher.Lawful) (hsmooth : smooth → a.Local)
    (create : Bool) :
    Meets (fun disk => Kept i passphrase sound disk ∧ (smooth → create = disk.archive.isNone))
      (openService i passphrase a create)
      (fun client disk => Kept i passphrase sound disk ∧ client.Keeps i passphrase)
      (Stopped i passphrase sound smooth) := by
  unfold openService
  refine Meets.bind (Q := fun (opened : EncryptedStore Key × ArchiveFile) disk =>
    Kept i passphrase sound disk ∧ Keyed archiveMagic (i.derive passphrase) opened.1 ∧
      opened.2.daemonSafetyNumber = i.safetyNumber) ?_ ?_
  · cases create with
    | true =>
        refine (createArchive_meets hcipher hsmooth).imp ?_ (fun _ _ h => h) fun _ h => h
        rintro disk ⟨hkept, hcreate⟩
        exact ⟨hkept, fun h => Option.isNone_iff_eq_none.mp (hcreate h).symm⟩
    | false =>
        refine (openArchive_meets hcipher hsmooth).imp ?_ (fun _ _ h => h) fun _ h => h
        rintro disk ⟨hkept, hcreate⟩
        refine ⟨hkept, fun h hnone => ?_⟩
        have hthere := hcreate h
        rw [hnone] at hthere
        cases hthere
  · rintro ⟨store, data⟩
    refine meets_and fun ⟨hstore, hdata⟩ => ?_
    refine (meets_lift (Q := fun _ => Kept i passphrase sound) (fun _ _ _ hkept => hkept) ?_).bind
      fun _ => finish_meets hcipher hsmooth hstore hdata
    intro message herror disk hkept
    dsimp only at hdata herror
    rw [hdata, bne_self_eq_false] at herror
    cases herror

theorem configureCatalogs_meets (hanswered : smooth → Catalog.Answered i.lib true a.net values)
    {client : Client Key} :
    Meets (Kept i passphrase sound) (configureCatalogs i a client values)
      (fun _ disk => Kept i passphrase sound disk ∧ Catalog.Answered i.lib true a.net values)
      (Stopped i passphrase sound smooth) := by
  unfold configureCatalogs
  refine (meets_lift (Q := fun _ disk => Kept i passphrase sound disk ∧
    Catalog.Answered i.lib true a.net values) ?_ ?_).bind fun _ => meets_pure fun _ h => h
  · intro _ hok disk hkept
    exact ⟨hkept, Catalog.configureCatalogs_ok.mp hok⟩
  · intro message herror disk hkept
    refine ⟨hkept, fun h => ?_⟩
    rw [Catalog.configureCatalogs_ok.mpr (hanswered h)] at herror
    cases herror

theorem configurePresence_meets (hsmooth : smooth → a.Local) {client : Client Key}
    {enabled : Bool} {P : Disk → Prop} (hP : ∀ disk, P disk → Kept i passphrase sound disk) :
    Meets P (configurePresence a client enabled) (fun _ => P)
      (Stopped i passphrase sound smooth) := by
  unfold configurePresence
  refine (meets_lift (Q := fun _ => P) (fun _ _ _ h => h) ?_).bind fun _ => meets_pure fun _ h => h
  intro message herror disk hdisk
  refine stopped_of (hP disk hdisk) hsmooth fun hlocal => ?_
  have hnone : presenceFailure a enabled client.rooms.channels = none := by
    unfold presenceFailure
    rw [List.findSome?_eq_none_iff]
    intro channel _
    rw [hlocal.presence]
  rw [hnone] at herror
  cases herror

/-! ### The files of the service -/

/-- The archive of the disk, and the file of the service that was opened. -/
def Started (i : Instance Key Rest) (passphrase : String) (sound : Prop)
    (opened : Service.ChatServiceStore Key × Service.Legacy Rest) (disk : Disk) : Prop :=
  KeepsArchive i passphrase disk.archive ∧
    (sound → Read (i.keyed passphrase) i.safetyNumber disk.service opened.1 opened.2)

theorem Started.kept {opened : Service.ChatServiceStore Key × Service.Legacy Rest} {disk : Disk}
    (h : Started i passphrase sound opened disk) : Kept i passphrase sound disk :=
  ⟨h.1, fun hsound => (h.2 hsound).sound⟩

/-- A file of the service that is there is opened. -/
theorem read_of_sound (hcipher : i.env.cipher.Lawful) (hformats : i.env.formats.Lawful)
    {files : Service.Files} {raw : List UInt8} (hraw : files.legacy = some raw)
    (h : Sound (i.keyed passphrase) i.safetyNumber files) (salt : Bytes 16) (io : Service.Io) :
    ∃ legacy state, Service.openOrCreate i.env.cipher i.env.codec i.env.formats.legacy (some raw)
        (Service.UiState.default i.env.newRest).toLegacy (i.derive passphrase) salt io =
          .ok (legacy, state) ∧
      Read (i.keyed passphrase) i.safetyNumber files legacy state := by
  obtain rfl | ⟨s, d, rfl, hholds, hours⟩ := h
  · cases hraw
  · obtain ⟨legacy, hopen, hkey, hfile, hlegacy⟩ :=
      hholds.legacy.openOrCreate hcipher hformats.legacy hholds.created salt io
    have hsome : s.legacy.file = some raw := hraw
    rw [hsome] at hopen
    refine ⟨legacy, d.legacy, hopen, { s with legacy := legacy }, d, ?_, ?_, hours, rfl, rfl, ?_⟩
    · simp only [Service.ServiceStateStore.files, hfile]
    · refine ⟨?_, hlegacy, ?_, ?_, ?_⟩
      · rw [show ({ s with legacy := legacy } : Service.ServiceStateStore Key).legacy.file =
          s.legacy.file from hfile]
        exact hholds.created
      · simp only [hkey]
        exact hholds.retained
      · simp only [hkey]
        exact hholds.book
      · simp only [hkey]
        exact hholds.preferences
    · exact Service.openOrCreate_ready hopen

theorem sound_of_none {env : Service.Env Key Rest} {safety : String} {files : Service.Files}
    (h : Sound env safety files) (hnone : files.legacy = none) :
    files = ⟨none, none, none, none⟩ := by
  obtain rfl | ⟨s, d, rfl, hholds, -⟩ := h
  · rfl
  · have hcreated := hholds.created
    rw [show s.legacy.file = none from hnone] at hcreated
    cases hcreated

theorem createState_meets (hfresh : Fresh (i.keyed passphrase) i.safetyNumber)
    (hsmooth : smooth → a.Local) :
    Meets (fun disk => Kept i passphrase sound disk ∧ disk.service.legacy = none)
      (createState i passphrase a) (Started i passphrase sound)
      (Stopped i passphrase sound smooth) := by
  let store : EncryptedStore Key :=
    ⟨Service.uiMagic, a.salts.legacy, i.derive passphrase a.salts.legacy, false⟩
  have hkeyed : Keyed Service.uiMagic (i.keyed passphrase).keys.legacy store := ⟨rfl, rfl⟩
  unfold createState
  refine (meets_lift (Q := fun opened disk =>
    (Kept i passphrase sound disk ∧ disk.service.legacy = none) ∧ opened = store) ?_ nofun).bind
      fun opened => meets_and ?_
  · rintro opened hopened disk hdisk
    cases hopened
    exact ⟨hdisk, rfl⟩
  rintro rfl
  refine Meets.bind (Q := fun legacy => Started i passphrase sound
    (legacy, (Service.UiState.default i.env.newRest).toLegacy)) (meets_step ?_ ?_)
    fun legacy => meets_pure fun disk h => h
  · rintro disk ⟨hkept, hnone⟩ opened after hrun
    obtain ⟨⟨legacy, result⟩, hsave⟩ : ∃ saved, Service.ChatServiceStore.save i.env.cipher
      i.env.codec i.env.formats.legacy ⟨store, none⟩
        (Service.UiState.default i.env.newRest).toLegacy a.serviceIo = saved := ⟨_, rfl⟩
    rw [hsave] at hrun
    cases result with
    | error message => cases hrun
    | ok _ =>
        cases hrun
        refine ⟨hkept.archive, fun h => ?_⟩
        obtain ⟨hinitialized, hready, -⟩ := Service.save_ok hsave
        obtain rfl | ⟨s, hfiles, hlegacy, hholds⟩ :=
          save_new hkeyed a.serviceIo a.salts hsave
        · cases hinitialized
        · rw [sound_of_none (hkept.service h) hnone]
          exact ⟨s, _, hfiles, hholds, hfresh.ours, hlegacy, rfl, hready⟩
  · rintro disk ⟨hkept, hnone⟩ message after hrun
    obtain ⟨⟨legacy, result⟩, hsave⟩ : ∃ saved, Service.ChatServiceStore.save i.env.cipher
      i.env.codec i.env.formats.legacy ⟨store, none⟩
        (Service.UiState.default i.env.newRest).toLegacy a.serviceIo = saved := ⟨_, rfl⟩
    rw [hsave] at hrun
    cases result with
    | ok _ => cases hrun
    | error message =>
        cases hrun
        refine stopped_of ⟨hkept.archive, fun h => ?_⟩ hsmooth fun hlocal => ?_
        · rw [sound_of_none (hkept.service h) hnone]
          obtain rfl | ⟨s, hfiles, -, hholds⟩ :=
            save_new hkeyed a.serviceIo a.salts hsave
          · exact Or.inl rfl
          · exact Or.inr ⟨s, _, hfiles, hholds, hfresh.ours⟩
        · have hfits : ∃ t, Service.ChatServiceStore.save i.env.cipher i.env.codec
              i.env.formats.legacy ⟨store, none⟩
                (Service.UiState.default i.env.newRest).toLegacy a.serviceIo = (t, .ok ()) :=
            Service.save_fits rfl hfresh.legacy hlocal.serviceIo
          obtain ⟨opened, hok⟩ := hfits
          cases hsave.symm.trans hok

theorem openOrCreate_meets (hcipher : i.env.cipher.Lawful) (hformats : i.env.formats.Lawful)
    (hfresh : Fresh (i.keyed passphrase) i.safetyNumber) (hsmooth : smooth → a.Local)
    (hsound : smooth → sound) :
    Meets (Kept i passphrase sound) (openOrCreate i passphrase a) (Started i passphrase sound)
      (Stopped i passphrase sound smooth) := by
  unfold openOrCreate
  refine (meets_lift (Q := fun _ => Kept i passphrase sound) (fun _ _ _ hkept => hkept) ?_).bind
    fun _ => ?_
  · intro message herror disk hkept
    refine stopped_of hkept hsmooth fun hlocal => ?_
    rw [hlocal.serviceFault] at herror
    cases herror
  refine meets_get fun disk hkept => ?_
  cases hlegacy : disk.service.legacy with
  | some raw =>
      refine meets_lift ?_ ?_
      · rintro ⟨legacy, state⟩ hopen current rfl
        refine ⟨hkept.archive, fun h => ?_⟩
        obtain ⟨opened, document, hread, hstarted⟩ := read_of_sound hcipher hformats hlegacy
          (hkept.service h) a.salts.legacy a.serviceIo
        rw [hread] at hopen
        cases hopen
        exact hstarted
      · rintro message herror current rfl
        refine ⟨hkept, fun h => ?_⟩
        obtain ⟨opened, document, hread, -⟩ := read_of_sound hcipher hformats hlegacy
          (hkept.service (hsound h)) a.salts.legacy a.serviceIo
        rw [hread] at herror
        cases herror
  | none =>
      refine (createState_meets hfresh hsmooth).imp ?_ (fun _ _ h => h) fun _ h => h
      rintro current rfl
      exact ⟨hkept, hlegacy⟩

theorem openState_meets (hcipher : i.env.cipher.Lawful) (hformats : i.env.formats.Lawful)
    (hsmooth : smooth → a.Local) (hsound : smooth → sound)
    (opened : Service.ChatServiceStore Key × Service.Legacy Rest) :
    Meets (Started i passphrase sound opened) (openState i passphrase a opened.1 opened.2)
      (fun _ => Kept i passphrase sound) (Stopped i passphrase sound smooth) := by
  obtain ⟨legacy, state⟩ := opened
  unfold openState
  refine (meets_lift (Q := fun _ => Started i passphrase sound (legacy, state))
    (fun _ _ _ h => h) ?_).bind fun _ => ?_
  · intro message herror disk hstarted
    refine ⟨hstarted.kept, fun h => ?_⟩
    obtain ⟨s, d, -, -, hours, -, rfl, -⟩ := hstarted.2 (hsound h)
    exact absurd ((hours.accepted _).symm.trans herror) nofun
  refine (meets_lift (Q := fun _ => Started i passphrase sound (legacy, state))
    (fun _ _ _ h => h) ?_).bind fun _ => ?_
  · intro message herror disk hstarted
    refine stopped_of hstarted.kept hsmooth fun hlocal => ?_
    rw [hlocal.companionFault] at herror
    cases herror
  refine meets_get fun disk hstarted => ?_
  have hkeyed : (i.keyed passphrase).cipher.Lawful := hcipher
  have hsafety : (a.opening i).safetyNumber = i.safetyNumber := rfl
  have hopens : sound → ∃ t : Service.ServiceStateStore Key, ∃ d : Service.Documents Rest,
      Service.ServiceStateStore.open i.env.cipher i.env.codec i.env.formats i.env.contactCodec
        (i.keyed passphrase).keys disk.service a.salts legacy (i.env.prepare (a.opening i) state) =
          .ok (t, openedState (i.keyed passphrase) (a.opening i) d) ∧
      t.Holds (i.keyed passphrase) d ∧ t.Ready ∧ Ours (i.keyed passphrase) i.safetyNumber d := by
    intro h
    obtain ⟨s, d, hfiles, hholds, hours, rfl, rfl, hready⟩ := hstarted.2 h
    rw [← hfiles]
    obtain ⟨t, hopen, htholds, htready⟩ :=
      opens_companions hkeyed hformats hholds hours hready (a.opening i)
    exact ⟨t, d, hopen, htholds, htready, hours⟩
  refine Meets.bind (Q := fun (read : Service.ServiceStateStore Key × Service.UiState Rest)
    current => current = disk ∧ (sound → ∃ d : Service.Documents Rest,
      read.2 = openedState (i.keyed passphrase) (a.opening i) d ∧
      read.1.Holds (i.keyed passphrase) d ∧ read.1.Ready ∧
      Ours (i.keyed passphrase) i.safetyNumber d)) (meets_lift ?_ ?_) ?_
  · rintro ⟨store, read⟩ hread current rfl
    refine ⟨rfl, fun h => ?_⟩
    obtain ⟨t, d, hopen, hholds, hready, hours⟩ := hopens h
    cases hopen.symm.trans hread
    exact ⟨d, rfl, hholds, hready, hours⟩
  · rintro message herror current rfl
    refine ⟨hstarted.kept, fun h => ?_⟩
    obtain ⟨t, d, hopen, -⟩ := hopens (hsound h)
    cases hopen.symm.trans herror
  · rintro ⟨store, read⟩
    have hsaved : ∀ d : Service.Documents Rest,
        store.Holds (i.keyed passphrase) d → Ours (i.keyed passphrase) i.safetyNumber d →
        Sound (i.keyed passphrase) i.safetyNumber (store.save i.env.cipher i.env.codec
          i.env.formats (openedState (i.keyed passphrase) (a.opening i) d) a.save).1.files :=
      fun d hholds hours => sound_of_save hholds hours hsafety a.save
    refine meets_step ?_ ?_
    · rintro current ⟨rfl, hread⟩ unlocked after hrun
      refine ⟨?_, fun h => ?_⟩
      · cases (congrArg Prod.fst hrun : _ = after)
        exact hstarted.1
      · obtain ⟨d, rfl, hholds, -, hours⟩ := hread h
        cases (congrArg Prod.fst hrun : _ = after)
        exact hsaved d hholds hours
    · rintro current ⟨rfl, hread⟩ message after hrun
      refine ⟨⟨?_, fun h => ?_⟩, fun h => ?_⟩
      · cases (congrArg Prod.fst hrun : _ = after)
        exact hstarted.1
      · obtain ⟨d, rfl, hholds, -, hours⟩ := hread h
        cases (congrArg Prod.fst hrun : _ = after)
        exact hsaved d hholds hours
      · obtain ⟨d, rfl, -, hready, hours⟩ := hread (hsound h)
        obtain ⟨t, hsave⟩ := save_opened hours hready hsafety (hsmooth h).save
        have hresult := congrArg Prod.snd hrun
        rw [show store.save i.env.cipher i.env.codec i.env.formats
          (openedState (i.keyed passphrase) (a.opening i) d) a.save = (t, .ok ()) from hsave]
            at hresult
        cases hresult

end Meeting

end Unlock

end GChat
