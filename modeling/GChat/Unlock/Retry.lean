import GChat.Unlock.Steps

/-!
# Unlocking again

An archive of this instance opens with its passphrase exactly if the catalogs answer: what comes
over the network is waited for, and what is wrong with it refuses the profile. No attempt that
fails leaves files that a later one cannot open.
-/

namespace GChat

namespace Unlock

open Foundation Store
open Effect (Meets meets_pure meets_lift meets_and)

section Unlocking

variable {Key Rest : Type} {i : Instance Key Rest} {passphrase : String} {a : Attempt}
  {values : List String} {create : Bool} {sound smooth : Prop}

/-- The service is one that a chat profile is unlocked through. -/
def Instance.Grants (i : Instance Key Rest) : Prop :=
  ∃ capability ∈ [Capability.channelMember, .directMessage, .hostedChannels],
    capability ∈ i.capabilities

theorem start_meets (hcipher : i.env.cipher.Lawful) (hformats : i.env.formats.Lawful)
    (hfresh : Fresh (i.keyed passphrase) i.safetyNumber) (hsmooth : smooth → a.Local)
    (hsound : smooth → sound) (hanswered : smooth → Catalog.Answered i.lib true a.net values)
    (hchosen : smooth → create = true → 8 ≤ passphrase.length) :
    Meets (fun disk => Kept i passphrase sound disk ∧ (smooth → create = disk.archive.isNone))
      (start i passphrase a values create)
      (fun session disk => (Kept i passphrase sound disk ∧ session.uiLocked = false) ∧
        Catalog.Answered i.lib true a.net values)
      (Stopped i passphrase sound smooth) := by
  unfold start
  refine (meets_lift (Q := fun _ disk => Kept i passphrase sound disk ∧
    (smooth → create = disk.archive.isNone)) (fun _ _ _ h => h) ?_).bind fun _ => ?_
  · rintro message herror disk ⟨hkept, -⟩
    refine ⟨hkept, fun h => ?_⟩
    have hlong : (create && decide (passphrase.length < 8)) = false := by
      cases create with
      | false => rfl
      | true => exact decide_eq_false (Nat.not_lt.mpr (hchosen h rfl))
    rw [hlong] at herror
    cases herror
  refine (openService_meets hcipher hsmooth create).bind fun client => meets_and fun _ => ?_
  refine (configureCatalogs_meets hanswered).bind fun client => meets_and fun hread => ?_
  refine (openOrCreate_meets hcipher hformats hfresh hsmooth hsound).bind fun opened => ?_
  refine (configurePresence_meets hsmooth fun disk h => h.kept).bind fun client => ?_
  refine (openState_meets hcipher hformats hsmooth hsound opened).bind fun unlocked => ?_
  exact meets_pure fun disk hkept => ⟨⟨hkept, rfl⟩, hread⟩

variable [DecidableEq Key]

/-- What an attempt without a session leaves, and what it found if it succeeded. -/
theorem unlock_meets (hcipher : i.env.cipher.Lawful) (hformats : i.env.formats.Lawful)
    (hfresh : Fresh (i.keyed passphrase) i.safetyNumber) (hsmooth : smooth → a.Local)
    (hsound : smooth → sound) (hanswered : smooth → Catalog.Answered i.lib true a.net values)
    (hchosen : smooth → create = true → 8 ≤ passphrase.length) (hgrants : smooth → i.Grants)
    (hbound : smooth → passphrase.utf8ByteSize ≤ 4096) :
    Meets (fun disk => Kept i passphrase sound disk ∧ (smooth → create = disk.archive.isNone))
      (unlock i passphrase a values none create)
      (fun _ disk => Kept i passphrase sound disk ∧ i.Grants ∧
        passphrase.utf8ByteSize ≤ 4096 ∧ Catalog.Answered i.lib true a.net values)
      (Stopped i passphrase sound smooth) := by
  have hcapable : ([.channelMember, .directMessage, .hostedChannels].any
      fun capability : Capability => i.capabilities.contains capability) = true ↔ i.Grants := by
    simp only [List.any_eq_true, List.contains_eq_mem, decide_eq_true_eq, Instance.Grants]
  unfold unlock
  refine (meets_lift (Q := fun _ disk => (Kept i passphrase sound disk ∧
    (smooth → create = disk.archive.isNone)) ∧ i.Grants) ?_ ?_).bind fun _ => meets_and fun hable => ?_
  · intro _ hok disk hdisk
    rw [refuse_eq_ok, Bool.not_eq_false'] at hok
    exact ⟨hdisk, hcapable.mp hok⟩
  · rintro message herror disk ⟨hkept, -⟩
    refine ⟨hkept, fun h => ?_⟩
    rw [hcapable.mpr (hgrants h)] at herror
    cases herror
  refine (meets_lift (Q := fun _ disk => (Kept i passphrase sound disk ∧
    (smooth → create = disk.archive.isNone)) ∧ passphrase.utf8ByteSize ≤ 4096) ?_ ?_).bind
      fun _ => meets_and fun hshort => ?_
  · intro _ hok disk hdisk
    rw [refuse_eq_ok, decide_eq_false_iff_not, Nat.not_lt] at hok
    exact ⟨hdisk, hok⟩
  · rintro message herror disk ⟨hkept, -⟩
    refine ⟨hkept, fun h => ?_⟩
    rw [decide_eq_false (Nat.not_lt.mpr (hbound h))] at herror
    cases herror
  refine (start_meets hcipher hformats hfresh hsmooth hsound hanswered hchosen).bind
    fun session => meets_and fun hread => meets_and fun hopen => ?_
  unfold resume
  rw [hopen]
  exact meets_pure fun disk hkept => ⟨hkept, hable, hshort, hread⟩

/-- A request to unlock, as a view makes it, and what it meets. -/
structure Trial where
  values : List String
  attempt : Attempt
  create : Bool

/-- The disk after a trial, whatever came of it. -/
def Trial.leave (i : Instance Key Rest) (passphrase : String) (disk : Disk) (t : Trial) : Disk :=
  Effect.after ((unlock i passphrase t.attempt t.values none t.create).run disk)

/-- The profile is open. -/
def Opens (i : Instance Key Rest) (passphrase : String) (a : Attempt) (values : List String)
    (create : Bool) (disk : Disk) : Prop :=
  ∃ session after, (unlock i passphrase a values none create).run disk = .ok session after

theorem unlock_run (hcipher : i.env.cipher.Lawful) (hformats : i.env.formats.Lawful)
    (hfresh : Fresh (i.keyed passphrase) i.safetyNumber) {disk : Disk}
    (hkept : Kept i passphrase sound disk) :
    Kept i passphrase sound
        (Effect.after ((unlock i passphrase a values none create).run disk)) ∧
      (Opens i passphrase a values create disk →
        i.Grants ∧ passphrase.utf8ByteSize ≤ 4096 ∧ Catalog.Answered i.lib true a.net values) ∧
      (sound → a.Local → create = disk.archive.isNone → (create = true → 8 ≤ passphrase.length) →
        i.Grants ∧ passphrase.utf8ByteSize ≤ 4096 ∧ Catalog.Answered i.lib true a.net values →
        Opens i passphrase a values create disk) := by
  let smooth := sound ∧ a.Local ∧ create = disk.archive.isNone ∧
    (create = true → 8 ≤ passphrase.length) ∧ i.Grants ∧ passphrase.utf8ByteSize ≤ 4096 ∧
      Catalog.Answered i.lib true a.net values
  have hmeets : Meets (fun disk => Kept i passphrase sound disk ∧
        (smooth → create = disk.archive.isNone)) (unlock i passphrase a values none create)
      (fun _ disk => Kept i passphrase sound disk ∧ i.Grants ∧
        passphrase.utf8ByteSize ≤ 4096 ∧ Catalog.Answered i.lib true a.net values)
      (Stopped i passphrase sound smooth) :=
    unlock_meets hcipher hformats hfresh (fun h => h.2.1) (fun h => h.1)
      (fun h => h.2.2.2.2.2.2) (fun h => h.2.2.2.1) (fun h => h.2.2.2.2.1) fun h => h.2.2.2.2.2.1
  obtain ⟨hok, herror⟩ := Effect.meets_iff.mp hmeets disk ⟨hkept, fun h => h.2.2.1⟩
  cases hrun : (unlock i passphrase a values none create).run disk with
  | ok session after =>
      obtain ⟨hafter, hfound⟩ := hok session after hrun
      exact ⟨hafter, fun _ => hfound, fun _ _ _ _ _ => ⟨session, after, hrun⟩⟩
  | error message after =>
      obtain ⟨hafter, hnot⟩ := herror message after hrun
      refine ⟨hafter, ?_, ?_⟩
      · rintro ⟨session, other, hopen⟩
        cases hrun.symm.trans hopen
      · intro hsound hlocal hcreate hchosen hfound
        exact absurd ⟨hsound, hlocal, hcreate, hchosen, hfound⟩ hnot

theorem leave_kept (hcipher : i.env.cipher.Lawful) (hformats : i.env.formats.Lawful)
    (hfresh : Fresh (i.keyed passphrase) i.safetyNumber) (trials : List Trial) {disk : Disk}
    (hkept : Kept i passphrase sound disk) :
    Kept i passphrase sound (trials.foldl (Trial.leave i passphrase) disk) := by
  induction trials generalizing disk with
  | nil => exact hkept
  | cons t trials ih => exact ih (unlock_run hcipher hformats hfresh hkept).1

/-- An archive of this instance opens with its passphrase exactly if no catalog is configured, or
the catalogs answer. After attempts that failed at whatever step, the archive that is there opens
with the passphrase, or none is there and it is created, as soon as nothing is in the way. -/
theorem unlock_succeeds_iff (hcipher : i.env.cipher.Lawful) (hformats : i.env.formats.Lawful)
    (hfresh : Fresh (i.keyed passphrase) i.safetyNumber) :
    (∀ disk a values, disk.archive ≠ none → KeepsArchive i passphrase disk.archive →
      Sound (i.keyed passphrase) i.safetyNumber disk.service → a.Local →
      (Opens i passphrase a values false disk ↔ i.Grants ∧ passphrase.utf8ByteSize ≤ 4096 ∧
        Catalog.Answered i.lib true a.net values)) ∧
    ∀ (trials : List Trial) (disk : Disk), disk.archive = none →
      let left := trials.foldl (Trial.leave i passphrase) disk
      (Sound (i.keyed passphrase) i.safetyNumber disk.service →
        Sound (i.keyed passphrase) i.safetyNumber left.service) ∧
      ∀ service a values, Sound (i.keyed passphrase) i.safetyNumber service → a.Local →
        i.Grants → passphrase.utf8ByteSize ≤ 4096 → (left.archive = none → 8 ≤ passphrase.length) →
        Catalog.Answered i.lib true a.net values →
        Opens i passphrase a values left.archive.isNone ⟨left.archive, service⟩ := by
  constructor
  · intro disk a values hthere harchive hservice hlocal
    have hnone : false = disk.archive.isNone :=
      (Bool.eq_false_iff.mpr fun h => hthere (Option.isNone_iff_eq_none.mp h)).symm
    have hkept : Kept i passphrase True disk := ⟨harchive, fun _ => hservice⟩
    obtain ⟨-, hfound, hopens⟩ := unlock_run (a := a) hcipher hformats hfresh hkept
    exact ⟨hfound, fun h => hopens trivial hlocal hnone nofun h⟩
  · intro trials disk hnone left
    have hleft : ∀ sound : Prop,
        (sound → Sound (i.keyed passphrase) i.safetyNumber disk.service) →
        Kept i passphrase sound left := by
      intro sound hservice
      refine leave_kept hcipher hformats hfresh trials ⟨?_, hservice⟩
      rw [hnone]
      exact keepsArchive_none
    refine ⟨fun hservice => (hleft _ id).service hservice, ?_⟩
    intro service a values hservice hlocal hgrants hbound hchosen hanswered
    have hkept : Kept i passphrase True ⟨left.archive, service⟩ :=
      ⟨(hleft False nofun).archive, fun _ => hservice⟩
    obtain ⟨-, -, hopens⟩ := unlock_run hcipher hformats hfresh hkept
    exact hopens trivial hlocal rfl (fun h => hchosen (Option.isNone_iff_eq_none.mp h))
      ⟨hgrants, hbound, hanswered⟩

end Unlocking

namespace Sample

open Service.Sample (array number object quote utf8)

/-! ### The JSON of a new profile -/

/-- A format for one document. -/
def only {α : Type} (isDocument : α → Bool) (document : α) (text : List UInt8) :
    Service.Format α where
  toVec d := if isDocument d then .ok text else .error "no sample"
  fromSlice bytes := if bytes = text then .ok document else .error "no sample"

theorem only_lawful {α : Type} {isDocument : α → Bool} {document : α} {text : List UInt8}
    (h : ∀ d, isDocument d = true → d = document) : (only isDocument document text).Lawful := by
  intro d bytes hvec
  change (if _ then _ else _) = _ at hvec
  change (if _ then _ else _) = _
  split at hvec
  next hd =>
    cases hvec
    rw [if_pos rfl, h d hd]
  · cases hvec

theorem only_fits {α : Type} {isDocument : α → Bool} {document d : α} {text : List UInt8}
    (h : isDocument d = true) (hlength : text.length ≤ Service.stateBound) :
    (only isDocument document text).Fits d :=
  ⟨text, if_pos h, hlength⟩

def isDigit (c : UInt8) : Bool := 48 ≤ c && c ≤ 57

def digits (b : UInt8) : List UInt8 := utf8 (number b.toNat)

/-- The numbers of an array, from one on. -/
def numbers : List UInt8 → List UInt8
  | [] => []
  | b :: rest => digits b ++ (if rest.isEmpty then 93 else 44) :: numbers rest

def readNumber (text : List UInt8) : Option UInt8 :=
  if text.isEmpty then none
  else some (UInt8.ofNat (text.foldl (fun n c => 10 * n + (c.toNat - 48)) 0))

def readNumbers : ℕ → List UInt8 → Option (List UInt8)
  | 0, _ => some []
  | n + 1, text => do
      let b ← readNumber (text.takeWhile isDigit)
      let rest ← readNumbers n ((text.dropWhile isDigit).drop 1)
      some (b :: rest)

theorem digits_spec (b : UInt8) : readNumber (digits b) = some b ∧
    (digits b).all isDigit = true ∧ (digits b).length ≤ 3 := by
  have hall : ∀ n < 256, readNumber (digits (UInt8.ofNat n)) = some (UInt8.ofNat n) ∧
      (digits (UInt8.ofNat n)).all isDigit = true ∧ (digits (UInt8.ofNat n)).length ≤ 3 := by
    decide +kernel
  have hb := hall b.toNat b.toNat_lt
  rwa [UInt8.ofNat_toNat] at hb

theorem readNumbers_numbers (items tail : List UInt8) :
    readNumbers items.length (numbers items ++ tail) = some items := by
  induction items with
  | nil => rfl
  | cons b items ih =>
      obtain ⟨hread, hdigits, -⟩ := digits_spec b
      have hdigits : ∀ c ∈ digits b, isDigit c = true := List.all_eq_true.mp hdigits
      have hstop : (numbers (b :: items) ++ tail).takeWhile isDigit = digits b ∧
          (numbers (b :: items) ++ tail).dropWhile isDigit =
            (if items.isEmpty then 93 else 44) :: (numbers items ++ tail) := by
        rw [numbers, List.append_assoc, List.takeWhile_append_of_pos hdigits,
          List.dropWhile_append_of_pos hdigits]
        cases items with
        | nil => exact ⟨by simp [isDigit], rfl⟩
        | cons c items => exact ⟨by simp [isDigit], rfl⟩
      obtain ⟨htake, hdrop⟩ := hstop
      rw [List.length_cons, readNumbers, htake, hdrop, hread]
      simp [ih]

theorem length_numbers (items : List UInt8) : (numbers items).length ≤ 4 * items.length := by
  induction items with
  | nil => exact le_rfl
  | cons b items ih =>
      have hdigits := (digits_spec b).2.2
      rw [numbers, List.length_append, List.length_cons, List.length_cons]
      omega

/-- The documents of a profile that has nothing yet, but for who it is. -/
def isNew (d : Service.Legacy Unit) : Bool :=
  d.activity == [] && d.read.isEmpty && d.commandHistory == [] && d.inputHistory == [] &&
    d.operations.isEmpty && d.messageMetadata.isEmpty

def newLegacy (instanceId safetyNumber : String) (fileKey : Option (Bytes 32)) :
    Service.Legacy Unit :=
  { (Service.UiState.default ()).toLegacy with
    instanceId := instanceId
    safetyNumber := safetyNumber
    fileKey := fileKey }

theorem isNew_eq {d : Service.Legacy Unit} (h : isNew d = true) :
    d = newLegacy d.instanceId d.safetyNumber d.fileKey := by
  obtain ⟨activity, instanceId, safetyNumber, read, commandHistory, inputHistory, operations,
    messageMetadata, fileKey, rest⟩ := d
  simp only [isNew, Bool.and_eq_true, beq_iff_eq, Std.ExtTreeMap.isEmpty_iff] at h
  obtain ⟨⟨⟨⟨⟨rfl, rfl⟩, rfl⟩, rfl⟩, rfl⟩, rfl⟩ := h
  rfl

def newText : List UInt8 := utf8 ['\x7b', '\x7d']

def id : String := Service.Sample.env.host.id

def head : List UInt8 :=
  utf8 ('\x7b' :: quote "instance_id" ++ ':' :: quote id ++ ',' :: quote "safety_number" ++
    ':' :: quote "12345" ++ ',' :: quote "file_key" ++ [':', '['])

/-- The JSON of a profile that was unlocked, without the fields that are those of a new one. -/
def openedText (key : Bytes 32) : List UInt8 := head ++ (numbers key.toList ++ [125])

def readOpened (text : List UInt8) : Option (Service.Legacy Unit) := do
  let key ← readNumbers 32 (text.drop head.length)
  if h : key.length = 32 then some (newLegacy id "12345" (some ⟨key, h⟩)) else none

def legacyFormat : Service.Format (Service.Legacy Unit) where
  toVec d :=
    if isNew d && d.instanceId == "" && d.safetyNumber == "" && d.fileKey == none then .ok newText
    else
      match d.fileKey with
      | some key =>
          if isNew d && d.instanceId == id && d.safetyNumber == "12345" then .ok (openedText key)
          else .error "no sample"
      | none => .error "no sample"
  fromSlice bytes :=
    if bytes = newText then .ok (newLegacy "" "" none) else okOr (readOpened bytes) "no sample"

theorem readOpened_openedText (key : Bytes 32) :
    readOpened (openedText key) = some (newLegacy id "12345" (some key)) := by
  obtain ⟨items, hitems⟩ := key
  have hread := readNumbers_numbers items [125]
  rw [hitems] at hread
  unfold readOpened openedText
  rw [List.drop_left]
  simp [hread, hitems]

theorem openedText_ne (key : Bytes 32) : openedText key ≠ newText := by
  intro h
  have hlength := congrArg List.length h
  have hhead : 2 < head.length := by decide +kernel
  have hnew : newText.length = 2 := by decide
  rw [openedText, List.length_append, hnew] at hlength
  omega

theorem legacyFormat_lawful : legacyFormat.Lawful := by
  intro d bytes h
  unfold legacyFormat at h ⊢
  dsimp only at h ⊢
  split at h
  next hd =>
    cases h
    simp only [Bool.and_eq_true, beq_iff_eq] at hd
    obtain ⟨⟨⟨hnew, hid⟩, hsafety⟩, hkey⟩ := hd
    rw [if_pos rfl, isNew_eq hnew, hid, hsafety, hkey]
  · split at h
    next key hkey =>
      split at h
      next hd =>
        cases h
        simp only [Bool.and_eq_true, beq_iff_eq] at hd
        obtain ⟨⟨hnew, hid⟩, hsafety⟩ := hd
        rw [if_neg (openedText_ne key), readOpened_openedText, isNew_eq hnew, hid, hsafety, hkey]
        rfl
      · cases h
    · cases h

def env : Service.Env Unit Unit :=
  { Service.Sample.env with
    formats :=
      { retained := only (fun d => d.channels.isEmpty && d.activity == []) ⟨∅, []⟩
          (utf8 (object [("channels", object []), ("activity", array [])]))
        book := only (fun d => d.version == 1 && d.contacts.isEmpty && d.outbox.isEmpty)
          Contacts.Book.default (utf8 (object [("version", number 1), ("contacts", object []),
            ("outbox", object [])]))
        preferences := only (fun d => d.isEmpty) Service.Preferences.default
          (utf8 (object [("muted", array []), ("ignored", object []), ("highlights", array []),
            ("aliases", object [])]))
        legacy := legacyFormat } }

theorem formats_lawful : env.formats.Lawful where
  retained := only_lawful fun d h => by
    obtain ⟨channels, activity⟩ := d
    simp only [Bool.and_eq_true, beq_iff_eq, Std.ExtTreeMap.isEmpty_iff] at h
    obtain ⟨rfl, rfl⟩ := h
    rfl
  book := only_lawful fun d h => by
    obtain ⟨version, contacts, outbox⟩ := d
    simp only [Bool.and_eq_true, beq_iff_eq, Std.ExtTreeMap.isEmpty_iff] at h
    obtain ⟨⟨rfl, rfl⟩, rfl⟩ := h
    rfl
  preferences := only_lawful fun d h => by
    obtain ⟨muted, ignored, highlights, aliases⟩ := d
    simp only [Service.Preferences.isEmpty, Bool.and_eq_true, Std.ExtTreeMap.isEmpty_iff] at h
    obtain ⟨⟨⟨rfl, rfl⟩, rfl⟩, rfl⟩ := h
    rfl
  legacy := legacyFormat_lawful

def descriptorCodec : Codec Catalog.CachedDescriptor :=
  ((Codec.fixed 32).pair (Codec.text.pair (Codec.text.pair (Codec.varint.pair (Codec.varint.pair
      (Codec.block.pair (Codec.block.pair (Codec.text.pair (Codec.text.pair
        Codec.varint))))))))).narrow
    (fun (channelId, title, description, capacity, expiresAtUnix, ownerPublicKey, signature,
        catalog, endpoint, publishedAtUnix) =>
      .ok ⟨⟨channelId, title, description, capacity, expiresAtUnix, ownerPublicKey, signature,
        ⟨catalog, endpoint⟩⟩, publishedAtUnix⟩)
    (fun c => (c.descriptor.channelId, c.descriptor.title, c.descriptor.description,
      c.descriptor.capacity, c.descriptor.expiresAtUnix, c.descriptor.ownerPublicKey,
      c.descriptor.signature, c.descriptor.automaticJoin.catalog,
      c.descriptor.automaticJoin.endpoint, c.publishedAtUnix)) fun _ => rfl

def catalog : String := "https://catalog.example"

def catalogBase : Catalog.Url where
  scheme := "https"
  username := ""
  password := none
  host := some "catalog.example"
  port := none
  path := "/"
  query := none
  fragment := none
  cannotBeABase := false

/-- A page without descriptors. -/
def emptyPage : List UInt8 :=
  utf8 (object [("descriptors", array []), ("next_cursor", Service.Sample.null)])

def lib : Catalog.Library where
  parse value := if value = catalog then .ok catalogBase else .error "no sample"
  join base path := .ok { base with path := base.path ++ path }
  display _ := "https://catalog.example/"
  fromSlice body := if body = emptyPage then .ok ⟨[], none⟩ else .error "no sample"
  verifyAt _ _ := false
  encode _ := "no sample"

def profile : Instance Unit Unit where
  env := env
  derive _ _ := ()
  descriptors := descriptorCodec
  lib := lib
  capabilities := [.channelMember]
  safetyNumber := "12345"
  embedded := true
  presenceEnabled _ := false

/-- The catalog answers every request with a page. -/
def answers : ℕ → Catalog.Answers := fun _ _ _ => .ok ⟨200, emptyPage⟩

def unreachable : ℕ → Catalog.Answers := fun _ _ _ => .error "connection refused"

def attempt (net : ℕ → Catalog.Answers) : Attempt where
  now := 1000
  archiveSalt := Bytes.fill 16 1
  archiveNonce := Bytes.fill 12 0
  createFault := none
  archiveFault := none
  openFault := none
  channelInbox := .ok ()
  listing := .ok []
  background := []
  net := net
  serviceFault := none
  presence _ := .ok ()
  salts := Service.Sample.opening.salts
  fileKey := Bytes.fill 32 5
  serviceIo := Service.Sample.io
  companionFault := none
  save := Service.Sample.saveIo

theorem attempt_local (net : ℕ → Catalog.Answers) : (attempt net).Local where
  createFault := rfl
  archiveFault := rfl
  openFault := rfl
  channelInbox := rfl
  listing := ⟨[], rfl, nofun⟩
  serviceFault := rfl
  presence _ := rfl
  serviceIo := rfl
  companionFault := rfl
  save := ⟨rfl, rfl, rfl, rfl⟩

def passphrase : String := "correct horse"

theorem openedText_fits (key : Bytes 32) :
    legacyFormat.Fits (newLegacy id "12345" (some key)) := by
  refine ⟨openedText key, rfl, ?_⟩
  have hlength := length_numbers key.toList
  have hhead : head.length < 1000 := by decide +kernel
  rw [Bytes.length_toList] at hlength
  rw [openedText, List.length_append, List.length_append, Service.stateBound]
  simp only [List.length_cons, List.length_nil]
  omega

theorem openedState_new (opening : Service.Opening) :
    (openedState (profile.keyed passphrase) opening
        (Service.UiState.default ()).documents).documents =
      ⟨⟨∅, []⟩, Contacts.Book.default, Service.Preferences.default,
        newLegacy id opening.safetyNumber (some opening.fileKey)⟩ := by
  have hactivity : (openedState (profile.keyed passphrase) opening
      (Service.UiState.default ()).documents).activity = [] := List.mergeSort_nil
  have hdocuments : ∀ state : Service.UiState Unit, state.activity = [] → state.documents =
      ⟨⟨state.hosted, []⟩, state.contacts, state.preferences,
        { state.toLegacy with activity := [] }⟩ := by
    intro state h
    rw [Service.UiState.documents, Service.UiState.retained, Service.UiState.legacy, h]
    rfl
  rw [hdocuments _ hactivity]
  rfl

theorem profile_fresh : Fresh (profile.keyed passphrase) profile.safetyNumber where
  legacy := ⟨newText, rfl, by decide⟩
  opened opening h := by
    have hsafety : opening.safetyNumber = "12345" := h
    have hstate := openedState_new opening
    rw [hsafety] at hstate
    change Fits _ (openedState _ opening (Service.UiState.default ()).documents).documents
    rw [hstate]
    exact ⟨only_fits rfl (by decide +kernel), only_fits rfl (by decide +kernel),
      only_fits rfl (by decide +kernel), openedText_fits _⟩

theorem profile_grants : profile.Grants := ⟨.channelMember, by decide, by decide⟩

/-- The archive of the profile, without any other file. -/
def created : Disk where
  archive := some (EncryptedStore.output profile.env.cipher (Migration.archiveDataCodec profile.rooms)
    ⟨Migration.archiveMagic, Bytes.fill 16 1, (), true⟩ (Bytes.fill 12 0) (newArchive profile))
  service := ⟨none, none, none, none⟩

theorem created_keeps : KeepsArchive profile passphrase created.archive :=
  keepsArchive_output sampleCipher_lawful ⟨rfl, rfl⟩ rfl _

theorem created_sound : Sound (profile.keyed passphrase) profile.safetyNumber created.service :=
  Or.inl rfl

def new : Disk := ⟨none, ⟨none, none, none, none⟩⟩

/-- The catalog is not reached at the first attempt. -/
def failed : List Trial := [⟨[catalog], attempt unreachable, true⟩]

theorem answered : Catalog.Answered lib true answers [catalog] := by
  have hok : (Catalog.configureCatalogs lib true 1000 answers ⟨[], []⟩ [catalog]).2 = .ok () := by
    rfl
  exact Catalog.configureCatalogs_ok.mp hok

theorem unanswered : ¬Catalog.Answered lib true unreachable [catalog] := by
  intro h
  have hok : (Catalog.configureCatalogs lib true 1000 unreachable ⟨[], []⟩ [catalog]).2 = .ok () :=
    Catalog.configureCatalogs_ok.mpr h
  cases hok

end Sample

/-- The archive does not open while its catalog is not reached; it does as soon as it is, also
after a first attempt that created it and failed. -/
theorem sample_unlocks :
    ¬Opens Sample.profile Sample.passphrase (Sample.attempt Sample.unreachable) [Sample.catalog]
        false Sample.created ∧
      Opens Sample.profile Sample.passphrase (Sample.attempt Sample.answers) [Sample.catalog] false
        Sample.created ∧
      let left := Sample.failed.foldl (Trial.leave Sample.profile Sample.passphrase) Sample.new
      left.archive.isSome = true ∧
        Opens Sample.profile Sample.passphrase (Sample.attempt Sample.answers) [Sample.catalog]
          left.archive.isNone left := by
  obtain ⟨hopens, hretry⟩ := @unlock_succeeds_iff Unit Unit Sample.profile Sample.passphrase _
    sampleCipher_lawful Sample.formats_lawful Sample.profile_fresh
  have hunlock := fun net => hopens Sample.created (Sample.attempt net) [Sample.catalog] nofun
    Sample.created_keeps Sample.created_sound (Sample.attempt_local net)
  refine ⟨fun h => Sample.unanswered ((hunlock _).mp h).2.2, ?_, ?_, ?_⟩
  · exact (hunlock _).mpr ⟨Sample.profile_grants, by decide, Sample.answered⟩
  · decide +kernel
  · obtain ⟨hsound, hagain⟩ := hretry Sample.failed Sample.new rfl
    exact hagain _ (Sample.attempt Sample.answers) [Sample.catalog] (hsound (Or.inl rfl))
      (Sample.attempt_local _) Sample.profile_grants (by decide) (fun _ => by decide)
      Sample.answered

/-- Unlocking waits for the network: an archive with its passphrase is refused where a catalog is
not reached. -/
theorem unreachable_catalog_refused :
    ¬ ∀ (disk : Disk) (a : Attempt) (values : List String), disk.archive ≠ none →
      KeepsArchive Sample.profile Sample.passphrase disk.archive →
      Sound (Sample.profile.keyed Sample.passphrase) Sample.profile.safetyNumber disk.service →
      a.Local → Opens Sample.profile Sample.passphrase a values false disk := by
  intro h
  have hopen := h Sample.created (Sample.attempt Sample.unreachable) [Sample.catalog] nofun
    Sample.created_keeps Sample.created_sound (Sample.attempt_local _)
  have hkept : Kept Sample.profile Sample.passphrase True Sample.created :=
    ⟨Sample.created_keeps, fun _ => Sample.created_sound⟩
  have hfound := (unlock_run sampleCipher_lawful Sample.formats_lawful Sample.profile_fresh
    hkept).2.1 hopen
  exact Sample.unanswered hfound.2.2

end Unlock

end GChat
