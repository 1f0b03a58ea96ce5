import GChat.Archive.Run

/-!
# One active record for each channel

`Consistent` is what the views rely on: at most one active record for each
channel, distinct conversation keys, and an active record behind every active
private conversation. The operations do not keep it unconditionally. Three
steps lose it: merging a channel whose active record carries another self
member, retiring a record while an equal one is already retained, and filing a
direct message of a channel that was left. `StepOk` excludes exactly these, so
a run stays consistent if and only if all of its steps meet it.
-/

namespace GChat

namespace Archive

open Foundation

/-- The keys of all conversations a view can name. -/
def conversationKeys (data : ArchiveData) : List String :=
  data.channels.map recordKey ++ data.scopedPms.map fun p => queryKey p.id

structure Consistent (data : ArchiveData) : Prop where
  activeIds : ((data.channels.filter fun c => c.active).map (·.id)).Nodup
  keys : (conversationKeys data).Nodup
  activePms : ∀ p ∈ data.scopedPms, p.active = true →
    ∃ c ∈ data.channels, c.active = true ∧ c.id = p.id.channelId

/-- The identity of a record once it is retained. -/
def retiredIdentity (c : ChannelRecord) : RecordIdentity :=
  .retained c.id c.selfMemberId c.joinedAtUnix

def identities (data : ArchiveData) : List RecordIdentity := data.channels.map recordIdentity

/-- The steps that keep a consistent archive consistent. -/
def StepOk (data : ArchiveData) : Op → Prop
  | .dropLost activeIds => ∀ c ∈ data.channels, c.active = true → c.id ∉ activeIds →
      retiredIdentity c ∉ identities data
  | .mergeChannel joined roster _ => ∀ c ∈ data.channels, c.active = true → c.id = joined.id →
      c.selfMemberId = rosterSelf roster
  | .event (.channelRemoved channel) => ∀ c, data.channels.find? (namesActive channel) = some c →
      retiredIdentity c ∉ identities data
  | .event (.channelDirectMessage channel sender recipient _ _ _) =>
      ∀ c, data.channels.find? (names channel) = some c → c.selfMemberId = some recipient →
        ⟨c.id, recipient, sender⟩ ∉ data.scopedPms.map (·.id) →
        ∃ d ∈ data.channels, d.active = true ∧ d.id = c.id
  | _ => True

/-! ### Identities -/

theorem live_mem_identities {data : ArchiveData} {id : ChannelId} :
    .live id ∈ identities data ↔ ∃ c ∈ data.channels, c.active = true ∧ c.id = id := by
  rw [identities, List.mem_map]
  constructor
  · rintro ⟨c, hc, hid⟩
    cases hactive : c.active with
    | true =>
        rw [recordIdentity_of_active hactive, RecordIdentity.live.injEq] at hid
        exact ⟨c, hc, hactive, hid⟩
    | false =>
        rw [recordIdentity_of_inactive hactive] at hid
        cases hid
  · rintro ⟨c, hc, hactive, rfl⟩
    exact ⟨c, hc, recordIdentity_of_active hactive⟩

/-- A record whose identity is a retained one is inactive. -/
theorem inactive_of_identity {c d : ChannelRecord}
    (h : recordIdentity d = retiredIdentity c) : d.active = false := by
  cases hactive : d.active with
  | true =>
      rw [recordIdentity_of_active hactive] at h
      cases h
  | false => rfl

theorem recordIdentity_deactivate (c : ChannelRecord) :
    recordIdentity c.deactivate = retiredIdentity c := rfl

/-- Distinct identities leave one active record for each channel. -/
theorem nodup_activeIds {l : List ChannelRecord} (h : (l.map recordIdentity).Nodup) :
    ((l.filter fun c => c.active).map (·.id)).Nodup := by
  rw [List.Nodup, List.pairwise_map] at h ⊢
  refine (h.filter _).imp_of_mem ?_
  intro c d hc hd hne hid
  have hc' := (List.mem_filter.mp hc).2
  have hd' := (List.mem_filter.mp hd).2
  exact hne (by rw [recordIdentity_of_active hc', recordIdentity_of_active hd', hid])

theorem nodup_recordKeys_iff (l : List ChannelRecord) :
    (l.map recordKey).Nodup ↔ (l.map recordIdentity).Nodup := by
  simp only [List.Nodup, List.pairwise_map, ne_eq, recordKey_eq_iff]

theorem nodup_queryKeys_iff (l : List ScopedPmRecord) :
    (l.map fun p => queryKey p.id).Nodup ↔ (l.map (·.id)).Nodup := by
  simp only [List.Nodup, List.pairwise_map, ne_eq, queryKey_injective.eq_iff]

/-- Consistency in terms of identities. -/
structure Coherent (data : ArchiveData) : Prop where
  records : (identities data).Nodup
  pmIds : (data.scopedPms.map (·.id)).Nodup
  activePms : ∀ p ∈ data.scopedPms, p.active = true → .live p.id.channelId ∈ identities data

theorem consistent_iff_coherent (data : ArchiveData) : Consistent data ↔ Coherent data := by
  constructor
  · intro h
    have hkeys := List.nodup_append.mp h.keys
    refine ⟨(nodup_recordKeys_iff _).mp hkeys.1, (nodup_queryKeys_iff _).mp hkeys.2.1, ?_⟩
    intro p hp hactive
    exact live_mem_identities.mpr (h.activePms p hp hactive)
  · intro h
    refine ⟨nodup_activeIds h.records, ?_, fun p hp hactive =>
      live_mem_identities.mp (h.activePms p hp hactive)⟩
    refine List.nodup_append.mpr ⟨(nodup_recordKeys_iff _).mpr h.records,
      (nodup_queryKeys_iff _).mpr h.pmIds, ?_⟩
    rintro _ hc _ hp rfl
    obtain ⟨c, -, hkey⟩ := List.mem_map.mp hc
    obtain ⟨p, -, hkey'⟩ := List.mem_map.mp hp
    exact queryKey_ne_recordKey p.id c (hkey'.trans hkey.symm)

theorem eq_of_active_of_id {data : ArchiveData} (h : (identities data).Nodup)
    {c d : ChannelRecord} (hc : c ∈ data.channels) (hd : d ∈ data.channels)
    (hcactive : c.active = true) (hdactive : d.active = true) (hid : c.id = d.id) : c = d := by
  refine List.inj_on_of_nodup_map h hc hd ?_
  rw [recordIdentity_of_active hcactive, recordIdentity_of_active hdactive, hid]

/-! ### Retiring records -/

/-- The records with the active ones that meet `P` retired. -/
def retire (P : ChannelRecord → Bool) (l : List ChannelRecord) : List ChannelRecord :=
  l.map fun c => if c.active && P c then c.deactivate else c

/-- Retiring keeps identities distinct exactly when no retired record meets an
equal one that is already retained. -/
theorem nodup_retire_iff {P : ChannelRecord → Bool} {l : List ChannelRecord}
    (h : (l.map recordIdentity).Nodup) :
    ((retire P l).map recordIdentity).Nodup ↔
      ∀ c ∈ l, c.active = true → P c = true → retiredIdentity c ∉ l.map recordIdentity := by
  have hmap : (retire P l).map recordIdentity =
      l.map fun c => if c.active && P c then retiredIdentity c else recordIdentity c := by
    rw [retire, List.map_map]
    refine List.map_congr_left fun c _ => ?_
    rw [Function.comp_apply]
    split
    · exact recordIdentity_deactivate c
    · rfl
  rw [hmap]
  constructor
  · intro hnodup c hc hactive hP hretired
    obtain ⟨d, hd, hid⟩ := List.mem_map.mp hretired
    have hdactive := inactive_of_identity hid
    have hcd : c = d := by
      refine List.inj_on_of_nodup_map hnodup hc hd ?_
      simp [hactive, hP, hdactive, hid]
    rw [hcd, hdactive] at hactive
    cases hactive
  · intro hfree
    refine (List.Nodup.of_map recordIdentity h).map_on ?_
    intro c hc d hd heq
    by_cases hcP : (c.active && P c) = true
    · by_cases hdP : (d.active && P d) = true
      · rw [if_pos hcP, if_pos hdP] at heq
        rw [Bool.and_eq_true] at hcP hdP
        refine List.inj_on_of_nodup_map h hc hd ?_
        rw [recordIdentity_of_active hcP.1, recordIdentity_of_active hdP.1]
        exact congrArg RecordIdentity.live (RecordIdentity.retained.inj heq).1
      · rw [if_pos hcP, if_neg hdP] at heq
        rw [Bool.and_eq_true] at hcP
        exact absurd (heq ▸ List.mem_map_of_mem hd) (hfree c hc hcP.1 hcP.2)
    · by_cases hdP : (d.active && P d) = true
      · rw [if_neg hcP, if_pos hdP] at heq
        rw [Bool.and_eq_true] at hdP
        exact absurd (heq ▸ List.mem_map_of_mem hc) (hfree d hd hdP.1 hdP.2)
      · rw [if_neg hcP, if_neg hdP] at heq
        exact List.inj_on_of_nodup_map h hc hd heq

/-- The channels that stay active when records are retired. -/
theorem live_mem_retire {P : ChannelRecord → Bool} {l : List ChannelRecord} {c : ChannelRecord}
    (hc : c ∈ l) (hactive : c.active = true) (hP : P c = false) :
    .live c.id ∈ (retire P l).map recordIdentity := by
  refine List.mem_map.mpr ⟨c, List.mem_map.mpr ⟨c, hc, ?_⟩, recordIdentity_of_active hactive⟩
  rw [hP, Bool.and_false, if_neg Bool.false_ne_true]

/-- With one active record for each channel, removing a channel by its name
retires the records of its identifier. -/
theorem modifyFirst_deactivate {l : List ChannelRecord} (h : (l.map recordIdentity).Nodup)
    {q : ChannelRecord → Bool} (hq : ∀ c, q c = true → c.active = true) {found : ChannelRecord}
    (hfound : l.find? q = some found) :
    modifyFirst q ChannelRecord.deactivate l = retire (fun c => c.id == found.id) l := by
  induction l with
  | nil => rfl
  | cons c l ih =>
      rw [List.map_cons, List.nodup_cons] at h
      cases hc : q c with
      | true =>
          rw [List.find?_cons_of_pos hc, Option.some.injEq] at hfound
          subst hfound
          have hrest : retire (fun d => d.id == c.id) l = l := by
            refine (List.map_congr_left fun d hd => ?_).trans (List.map_id l)
            refine if_neg fun hdc => h.1 ?_
            rw [Bool.and_eq_true, beq_iff_eq] at hdc
            rw [recordIdentity_of_active (hq c hc), ← hdc.2, ← recordIdentity_of_active hdc.1]
            exact List.mem_map_of_mem hd
          rw [modifyFirst_cons_pos hc]
          refine congrArg₂ List.cons ?_ hrest.symm
          exact (if_pos (by simp [hq c hc])).symm
      | false =>
          rw [List.find?_cons_of_neg (by simp [hc])] at hfound
          rw [modifyFirst_cons_neg hc, ih h.2 hfound]
          refine congrArg₂ List.cons ?_ rfl
          refine (if_neg fun hcf => h.1 ?_).symm
          rw [Bool.and_eq_true, beq_iff_eq] at hcf
          have hmem := List.mem_of_find?_eq_some hfound
          have hactive := hq found (List.find?_some hfound)
          rw [recordIdentity_of_active hcf.1, hcf.2, ← recordIdentity_of_active hactive]
          exact List.mem_map_of_mem hmem

/-! ### What each operation does to the identities -/

/-- The active conversations of `pms'` are active in `pms`. -/
def NoNewActive (pms pms' : List ScopedPmRecord) : Prop :=
  ∀ p' ∈ pms', p'.active = true → ∃ p ∈ pms, p.active = true ∧ p.id = p'.id

theorem NoNewActive.refl (pms : List ScopedPmRecord) : NoNewActive pms pms :=
  fun p hp hactive => ⟨p, hp, hactive, rfl⟩

theorem noNewActive_map {f : ScopedPmRecord → ScopedPmRecord} (hid : ∀ p, (f p).id = p.id)
    (hactive : ∀ p, (f p).active = true → p.active = true) (pms : List ScopedPmRecord) :
    NoNewActive pms (pms.map f) := by
  intro p' hp' hp'active
  obtain ⟨p, hp, rfl⟩ := List.mem_map.mp hp'
  exact ⟨p, hp, hactive p hp'active, (hid p).symm⟩

theorem noNewActive_modifyFirst {q : ScopedPmRecord → Bool}
    {f : ScopedPmRecord → ScopedPmRecord} (hid : ∀ p, (f p).id = p.id)
    (hactive : ∀ p, (f p).active = p.active) (pms : List ScopedPmRecord) :
    NoNewActive pms (modifyFirst q f pms) := by
  intro p' hp' hp'active
  rcases mem_modifyFirst hp' with hp | ⟨p, hfind, rfl⟩
  · exact ⟨p', hp, hp'active, rfl⟩
  · exact ⟨p, List.mem_of_find?_eq_some hfind, (hactive p) ▸ hp'active, (hid p).symm⟩

/-- An operation that keeps the identities and activates no conversation keeps an
archive coherent. -/
theorem coherent_of_frame {data data' : ArchiveData} (h : Coherent data)
    (hrecords : identities data' = identities data)
    (hids : (data'.scopedPms.map (·.id)).Nodup)
    (hpms : NoNewActive data.scopedPms data'.scopedPms) : Coherent data' := by
  refine ⟨hrecords ▸ h.records, hids, fun p' hp' hactive => ?_⟩
  obtain ⟨p, hp, hpactive, hid⟩ := hpms p' hp' hactive
  rw [hrecords, ← hid]
  exact h.activePms p hp hpactive

def ScopedPmRecord.status (p : ScopedPmRecord) : ScopedPmId × Bool := (p.id, p.active)

/-- Coherence reads no more of an archive than the identities of the records and
which conversations are active. -/
theorem coherent_congr (data data' : ArchiveData) (hrecords : identities data' = identities data)
    (hpms : data'.scopedPms.map ScopedPmRecord.status = data.scopedPms.map ScopedPmRecord.status) : Coherent data' ↔ Coherent data := by
  have hactive : ∀ {d d' : ArchiveData},
      d'.scopedPms.map ScopedPmRecord.status = d.scopedPms.map ScopedPmRecord.status →
      NoNewActive d.scopedPms d'.scopedPms := by
    intro d d' heq p' hp' hp'active
    have hmem := heq ▸ List.mem_map_of_mem (f := ScopedPmRecord.status) hp'
    obtain ⟨p, hp, hpp'⟩ := List.mem_map.mp hmem
    simp only [ScopedPmRecord.status, Prod.mk.injEq] at hpp'
    exact ⟨p, hp, hpp'.2.trans hp'active, hpp'.1⟩
  have hids : data'.scopedPms.map (·.id) = data.scopedPms.map (·.id) := by
    simpa [List.map_map, Function.comp_def, ScopedPmRecord.status] using congrArg (List.map Prod.fst) hpms
  constructor
  · intro h
    exact coherent_of_frame h hrecords.symm (hids ▸ h.pmIds) (hactive hpms.symm)
  · intro h
    exact coherent_of_frame h hrecords (hids.symm ▸ h.pmIds) (hactive hpms)

theorem identities_applyDelivered (data : ArchiveData) (channel : String)
    (messageId : MessageId) :
    identities (applyDelivered data channel messageId) = identities data := by
  unfold applyDelivered
  split
  · rfl
  · rw [identities, identities, List.map_map]
    refine List.map_congr_left fun c _ => ?_
    rw [Function.comp_apply]
    split <;> rfl

theorem noNewActive_applyDelivered (data : ArchiveData) (channel : String)
    (messageId : MessageId) :
    NoNewActive data.scopedPms (applyDelivered data channel messageId).scopedPms := by
  unfold applyDelivered
  split
  · exact NoNewActive.refl _
  · refine noNewActive_map (fun p => ?_) (fun p => ?_) _
    · split <;> rfl
    · split <;> exact fun h => h

theorem noNewActive_deactivate (q : ScopedPmRecord → Bool) (pms : List ScopedPmRecord) :
    NoNewActive pms (pms.map fun p => if q p then p.deactivate else p) := by
  refine noNewActive_map (fun p => ?_) (fun p => ?_) _
  · split <;> rfl
  · split
    · exact fun h => nomatch h
    · exact fun h => h

/-! ### The steps -/

/-- Retire records and deactivate at least the conversations of their channels. -/
theorem coherent_retire_iff {data : ArchiveData} (h : Coherent data)
    {P : ChannelRecord → Bool} {q : ScopedPmRecord → Bool}
    (hcover : ∀ p ∈ data.scopedPms, q p = false → ∀ c ∈ data.channels, c.active = true →
      c.id = p.id.channelId → P c = false) :
    Coherent { data with
      channels := retire P data.channels
      scopedPms := data.scopedPms.map fun p => if q p then p.deactivate else p } ↔
    ∀ c ∈ data.channels, c.active = true → P c = true →
      retiredIdentity c ∉ identities data := by
  constructor
  · intro h'
    exact (nodup_retire_iff h.records).mp h'.records
  · intro hfree
    refine ⟨(nodup_retire_iff h.records).mpr hfree, ?_, ?_⟩
    · refine (map_id_map_of_eq (fun p => ?_) _).symm ▸ h.pmIds
      split <;> rfl
    · intro p' hp' hactive
      obtain ⟨p, hp, rfl⟩ := List.mem_map.mp hp'
      cases hq : q p with
      | true => simp [hq, ScopedPmRecord.deactivate] at hactive
      | false =>
          simp only [hq, Bool.false_eq_true, if_false] at hactive ⊢
          obtain ⟨c, hc, hcactive, hid⟩ := live_mem_identities.mp (h.activePms p hp hactive)
          rw [← hid]
          exact live_mem_retire hc hcactive (hcover p hp hq c hc hcactive hid)

theorem coherent_dropLost_iff {data : ArchiveData} (h : Coherent data)
    (activeIds : List ChannelId) :
    Coherent (dropLost data activeIds) ↔ StepOk data (.dropLost activeIds) := by
  refine (coherent_retire_iff h ?_).trans ?_
  · intro p hp hlost c hc hactive hid
    have hnot := (Bool.eq_false_iff.mp hlost) ∘ List.contains_iff_mem.mpr
    by_contra hP
    rw [Bool.not_eq_false] at hP
    refine hnot (List.mem_map.mpr ⟨c, List.mem_filter.mpr ⟨hc, ?_⟩, hid⟩)
    rw [hactive, hP]
    rfl
  · simp [StepOk]

theorem coherent_channelRemoved_iff {data : ArchiveData} (h : Coherent data)
    (channel : String) :
    Coherent (applyChannelRemoved data channel) ↔
      StepOk data (.event (.channelRemoved channel)) := by
  unfold applyChannelRemoved
  cases hfind : data.channels.find? (namesActive channel) with
  | none => simp [StepOk, hfind, h]
  | some found =>
      have hq : ∀ c, namesActive channel c = true → c.active = true :=
        fun c hc => (Bool.and_eq_true_iff.mp hc).1
      have hfound := List.mem_of_find?_eq_some hfind
      have hactive := hq found (List.find?_some hfind)
      simp only [modifyFirst_deactivate h.records hq hfind]
      refine (coherent_retire_iff h ?_).trans ?_
      · intro p _ hp c _ _ hid
        rwa [hid]
      · simp only [StepOk, hfind, Option.some.injEq, forall_eq', beq_iff_eq]
        constructor
        · intro hfree
          exact hfree found hfound hactive rfl
        · intro hfree c hc hcactive hid
          rwa [eq_of_active_of_id h.records hc hfound hcactive hactive hid]

theorem coherent_mergeChannel_iff {data : ArchiveData} (h : Coherent data)
    (joined : JoinedChannel) (roster : List RosterMember) (now : ℕ) :
    Coherent (mergeChannel data joined roster now) ↔
      StepOk data (.mergeChannel joined roster now) := by
  unfold mergeChannel
  by_cases hany : (data.channels.any (isCurrent joined (rosterSelf roster))) = true
  · rw [if_pos hany]
    obtain ⟨current, hcurrent, his⟩ := List.any_eq_true.mp hany
    simp only [isCurrent, Bool.and_eq_true, beq_iff_eq] at his
    obtain ⟨⟨hactive, hid⟩, hself⟩ := his
    refine iff_of_true ?_ ?_
    · exact coherent_of_frame h (map_modifyFirst_of_eq (fun c => by rfl) _) h.pmIds
        (NoNewActive.refl _)
    · intro c hc hcactive hcid
      rw [eq_of_active_of_id h.records hc hcurrent hcactive hactive (hcid.trans hid.symm), hself]
  · rw [if_neg hany]
    have hidentities : identities { data with channels := data.channels ++
        [ChannelRecord.create joined (rosterSelf roster) (roster.map RosterMember.record) now] } =
        identities data ++ [.live joined.id] := by
      rw [identities, identities, List.map_append]
      rfl
    constructor
    · intro h' c hc hcactive hcid
      have hnodup := h'.records
      rw [hidentities, List.nodup_append] at hnodup
      refine absurd rfl (hnodup.2.2 (.live joined.id) ?_ (.live joined.id) (by simp))
      exact live_mem_identities.mpr ⟨c, hc, hcactive, hcid⟩
    · intro hok
      have hfresh : .live joined.id ∉ identities data := by
        intro hlive
        obtain ⟨c, hc, hcactive, hcid⟩ := live_mem_identities.mp hlive
        refine hany (List.any_eq_true.mpr ⟨c, hc, ?_⟩)
        simp [isCurrent, hcactive, hcid, hok c hc hcactive hcid]
      refine ⟨?_, h.pmIds, ?_⟩
      · rw [hidentities]
        exact h.records.append (List.nodup_singleton _) (by simpa using hfresh)
      · intro p hp hactive
        rw [hidentities]
        exact List.mem_append_left _ (h.activePms p hp hactive)

/-- A conversation is created active, so its channel must have an active record. -/
theorem coherent_ensurePm_iff {data : ArchiveData} (h : Coherent data) (id : ScopedPmId)
    (name : String) :
    Coherent { data with scopedPms := ensurePm data.scopedPms id name } ↔
      (id ∉ data.scopedPms.map (·.id) → .live id.channelId ∈ identities data) := by
  by_cases hid : id ∈ data.scopedPms.map (·.id)
  · rw [ensurePm_of_mem hid]
    exact iff_of_true h fun hnot => absurd hid hnot
  · have hnodup := nodup_ids_ensurePm h.pmIds id name
    rw [ensurePm_of_not_mem hid] at hnodup ⊢
    constructor
    · intro h' _
      exact h'.activePms (ScopedPmRecord.create id name) (by simp) rfl
    · intro hlive
      refine ⟨h.records, hnodup, fun p hp hactive => ?_⟩
      rcases List.mem_append.mp hp with hp | hp
      · exact h.activePms p hp hactive
      · rw [List.mem_singleton.mp hp]
        exact hlive hid

theorem coherent_directMessage_iff {data : ArchiveData} (h : Coherent data) (channel : String)
    (sender recipient : MemberId) (messageId : MessageId) (ts : ℕ) (body : List UInt8) :
    Coherent (applyChannelDirectMessage data channel sender recipient messageId ts body) ↔
      StepOk data
        (.event (.channelDirectMessage channel sender recipient messageId ts body)) := by
  rcases applyChannelDirectMessage_cases data channel sender recipient messageId ts body with
    ⟨hno, heq⟩ | ⟨record, hfind, hself, heq⟩
  · rw [heq]
    exact iff_of_true h fun c hc hcself => absurd hcself (hno c hc)
  · have hfiled : Coherent (applyChannelDirectMessage data channel sender recipient messageId ts
        body) ↔ Coherent { data with
          scopedPms := ensurePm data.scopedPms ⟨record.id, recipient, sender⟩
            (remoteName record sender) } := by
      refine coherent_congr _ _ ?_ ?_
      · rw [heq]
        rfl
      · rw [heq]
        exact map_modifyFirst_of_eq (fun p => by rfl) _
    rw [hfiled, coherent_ensurePm_iff h, live_mem_identities]
    simp only [StepOk, hfind, Option.some.injEq, forall_eq', hself, forall_const]

/-- A step from a coherent archive reaches a coherent one exactly when it meets
`StepOk`. -/
theorem coherent_apply_iff {data : ArchiveData} (h : Coherent data) (op : Op) :
    Coherent (op.apply data) ↔ StepOk data op := by
  have hids := nodup_pm_ids_apply h.pmIds op
  cases op with
  | dropLost activeIds => exact coherent_dropLost_iff h activeIds
  | mergeChannel joined roster now => exact coherent_mergeChannel_iff h joined roster now
  | rosterChanged channel roster =>
      refine iff_of_true (coherent_of_frame h ?_ hids ?_) trivial
      · simp only [Op.apply, rosterChanged]
        split
        · rfl
        · exact map_modifyFirst_of_eq (fun c => by rfl) _
      · simp only [Op.apply, rosterChanged]
        split
        · exact NoNewActive.refl _
        · exact noNewActive_deactivate _ _
  | event e =>
      cases e with
      | channelDelivered channel messageId =>
          exact iff_of_true (coherent_of_frame h (identities_applyDelivered _ _ _) hids
            (noNewActive_applyDelivered _ _ _)) trivial
      | channelDirectDelivered channel messageId =>
          exact iff_of_true (coherent_of_frame h (identities_applyDelivered _ _ _) hids
            (noNewActive_applyDelivered _ _ _)) trivial
      | channelMessage channel messageId ts sender senderIndex body =>
          refine iff_of_true (coherent_of_frame h ?_ hids (NoNewActive.refl _)) trivial
          exact map_modifyFirst_of_eq (fun c => by rfl) _
      | channelDirectMessage channel sender recipient messageId ts body =>
          exact coherent_directMessage_iff h channel sender recipient messageId ts body
      | channelRemoved channel => exact coherent_channelRemoved_iff h channel
      | channelRosterChanged => exact iff_of_true h trivial
      | channelPresenceChanged => exact iff_of_true h trivial
      | eventsLagged => exact iff_of_true h trivial
  | openScopedPm channelId remote =>
      refine iff_of_true ?_ trivial
      rcases openScopedPm_cases data channelId remote with ⟨⟨message, herr⟩, -⟩ |
        ⟨record, self, member, hrecord, -, -, hok⟩
      · rwa [Op.apply, herr]
      · rw [Op.apply, hok]
        obtain ⟨hmem, hactive, hid⟩ := channel_eq_some hrecord
        exact (coherent_ensurePm_iff h _ _).mpr fun _ =>
          live_mem_identities.mpr ⟨record, hmem, hactive, hid⟩
  | recordChannelSend id out =>
      refine iff_of_true (coherent_of_frame h ?_ hids (NoNewActive.refl _)) trivial
      exact map_modifyFirst_of_eq (fun c => by rfl) _
  | recordScopedPmSend record id out =>
      refine iff_of_true ?_ trivial
      rcases recordScopedPmSend_cases data record id out with ⟨-, herr⟩ | ⟨-, hok⟩
      · rwa [Op.apply, herr]
      · rw [Op.apply, hok] at hids ⊢
        exact coherent_of_frame h rfl hids
          (noNewActive_modifyFirst (fun p => by rfl) (fun p => by rfl) _)
  | reopen =>
      refine iff_of_true (coherent_of_frame h ?_ hids ?_) trivial
      · simp only [Op.apply, ArchiveData.stored, identities, List.map_map]
        exact List.map_congr_left fun c _ => rfl
      · exact noNewActive_map (fun p => by rfl) (fun p hp => by exact hp) _

theorem coherent_create (daemonSafetyNumber : String) :
    Coherent (ArchiveData.create daemonSafetyNumber) :=
  ⟨List.nodup_nil, List.nodup_nil, fun _ hp => nomatch hp⟩

/-- Every archive along a run is consistent exactly when every step of the run
meets `StepOk`. -/
theorem consistent_run_iff (daemonSafetyNumber : String) (ops : List Op) :
    (∀ n, Consistent ((ops.take n).foldl Op.apply (ArchiveData.create daemonSafetyNumber))) ↔
      ∀ (n : ℕ) (op : Op), ops[n]? = some op →
        StepOk ((ops.take n).foldl Op.apply (ArchiveData.create daemonSafetyNumber)) op := by
  simp only [consistent_iff_coherent]
  exact Machine.forall_take_iff (coherent_create daemonSafetyNumber)
    (fun data op h => coherent_apply_iff h op) ops

/-- Two reconciliations between which the own membership of a listed room changes
leave two active records of the room. -/
theorem reconcile_changed_membership_not_consistent :
    ¬ ∀ joined joined' : List (JoinedChannel × List RosterMember),
      Consistent (reconcileChannels (reconcileChannels (ArchiveData.create "") joined 1)
        joined' 2) := by
  intro h
  have hnodup := (h [(room, ownRoster (Bytes.fill 32 1))]
    [(room, ownRoster (Bytes.fill 32 2))]).activeIds
  exact absurd hnodup (by decide)

end Archive

end GChat
