import GChat.Archive.Stays
import GChat.Foundation.Window
import GChat.Hosted.Apply

/-!
# Activity of channels

A refresh compares each record of the archive with what was observed of it before, and records
an activity for each difference. The first observation of a record is only a baseline. Baselines
are filed under the key of a record, and a record that became inactive is compared with the
baseline of its channel, which it takes away. A retained record does so at every refresh, also
where the channel was joined again and the baseline is that of the new record. The activity is
exact in runs where no record behind a retained one changes.
-/

namespace GChat

namespace Service

open Foundation Archive

/-! ### What a refresh does -/

structure ObservedChannel where
  members : StringMap String
  topic : String
  active : Bool
deriving DecidableEq

/-- An activity without its random identifier and its time. -/
structure Note where
  conversation : String
  kind : String
  text : String
deriving DecidableEq

def Note.entry (note : Note) (stamp : String × ℕ) : Hosted.Activity :=
  ⟨stamp.1, note.conversation, note.kind, note.text, stamp.2⟩

def noteOf (a : Hosted.Activity) : Note := ⟨a.conversation, a.kind, a.text⟩

/-- A difference between two observations of a record. -/
inductive Change where
  | ended
  | joined (member name : String)
  | left (member name : String)
  | topic (text : String)
deriving DecidableEq

def Change.note (conversation : String) : Change → Note
  | .ended => ⟨conversation, "left", "This channel is no longer active for this profile."⟩
  | .joined _ name => ⟨conversation, "joined", name ++ " joined."⟩
  | .left _ name => ⟨conversation, "left", name ++ " left or was removed."⟩
  | .topic text =>
      ⟨conversation, "topic", if text.isEmpty then "Topic cleared." else "Topic: " ++ text⟩

/-- The differences for which a refresh records an activity, in its order. -/
def changes (old new : ObservedChannel) : List Change :=
  if old.active && !new.active then [.ended]
  else if new.active then
    (new.members.toList.filter fun m => !old.members.contains m.1).map (fun m => .joined m.1 m.2) ++
      ((old.members.toList.filter fun m => !new.members.contains m.1).map (fun m => .left m.1 m.2) ++
        if old.topic = new.topic then [] else [.topic new.topic])
  else []

/-- The state under refresh; `drawn` counts the identifiers that were drawn. -/
structure Candidate where
  topics : StringMap String
  observedChannels : StringMap ObservedChannel
  activity : List Hosted.Activity
  drawn : ℕ

section Refresh

-- the identifiers and times of the activities, in the order in which they are drawn
variable (stamp : ℕ → String × ℕ)

def Candidate.recordActivity (candidate : Candidate) (note : Note) : Candidate :=
  { candidate with
    activity := Hosted.trim (candidate.activity ++ [note.entry (stamp candidate.drawn)])
    drawn := candidate.drawn + 1 }

/-- The topics after the library was asked for that of an active record. -/
def topicsAfter (topics : StringMap String) (channel : ChannelRecord) (answer : Option String) :
    StringMap String :=
  match if channel.active then answer else none with
  | some topic => topics.insert (channelKey channel.id) topic
  | none => topics

/-- A record as it is observed; where there is no answer the topic is the one known last. -/
def observedChannel (topics : StringMap String) (channel : ChannelRecord)
    (answer : Option String) : ObservedChannel where
  members := channel.members.foldl (fun members m => members.insert (hex m.id.toList) m.displayName) ∅
  topic := (if channel.active then answer else none).getD
    ((topicsAfter topics channel answer)[channelKey channel.id]?.getD "")
  active := channel.active

/-- The baseline of a record. -/
def previous (observed : StringMap ObservedChannel) (channel : ChannelRecord) :
    Option ObservedChannel :=
  observed[recordKey channel]?.or
    (if channel.active then none else observed[channelKey channel.id]?)

/-- The baselines once a record was observed. -/
def rebase (observed : StringMap ObservedChannel) (channel : ChannelRecord)
    (new : ObservedChannel) : StringMap ObservedChannel :=
  (if channel.active then observed else observed.erase (channelKey channel.id)).insert
    (recordKey channel) new

/-- One turn of the loop over the records. -/
def Candidate.observe (candidate : Candidate) (sighting : ChannelRecord × Option String) :
    Candidate :=
  let (channel, answer) := sighting
  let observed := observedChannel candidate.topics channel answer
  let notes := ((previous candidate.observedChannels channel).map fun old =>
    (changes old observed).map (Change.note (recordKey channel))).getD []
  let candidate := notes.foldl (Candidate.recordActivity stamp) candidate
  { candidate with
    topics := topicsAfter candidate.topics channel answer
    observedChannels := rebase candidate.observedChannels channel observed }

/-- The part of the saved state that a refresh writes, but for the deliveries of own messages. -/
structure Watch where
  topics : StringMap String
  observedChannels : StringMap ObservedChannel
  activity : List Hosted.Activity

/-- The records of the archive, with the answers of the library. -/
def sightings (channels : List ChannelRecord) (answer : ℕ → Option String) :
    List (ChannelRecord × Option String) :=
  channels.zipIdx.map fun c => (c.1, answer c.2)

/-- `metadataChanged` is that the deliveries differ from those saved, and `saved` is what the
save returns if there is one. -/
def refreshChannelTopics (watch : Watch) (channels : List ChannelRecord)
    (answer : ℕ → Option String) (metadataChanged : Bool) (saved : Except String Unit) :
    Watch × Except String Unit :=
  let candidate := (sightings channels answer).foldl (Candidate.observe stamp)
    ⟨watch.topics, watch.observedChannels, [], 0⟩
  if metadataChanged || candidate.topics != watch.topics ||
      candidate.observedChannels != watch.observedChannels then
    match saved with
    | .error message => (watch, .error message)
    | .ok () =>
        (⟨candidate.topics, candidate.observedChannels,
          Hosted.trim (watch.activity ++ candidate.activity)⟩, .ok ())
  else (watch, .ok ())

end Refresh

/-! ### What should be recorded -/

/-- What happened to a record between two observations. -/
def Happened (old new : ObservedChannel) : Change → Prop
  | .ended => old.active = true ∧ new.active = false
  | .joined member name =>
      new.active = true ∧ new.members[member]? = some name ∧ old.members[member]? = none
  | .left member name =>
      new.active = true ∧ old.members[member]? = some name ∧ new.members[member]? = none
  | .topic text => new.active = true ∧ new.topic = text ∧ old.topic ≠ text

theorem mem_missing_iff (a b : StringMap String) (m : String × String) :
    (m ∈ a.toList.filter fun x => !b.contains x.1) ↔ a[m.1]? = some m.2 ∧ b[m.1]? = none := by
  rw [List.mem_filter, Std.ExtTreeMap.mem_toList_iff_getElem?_eq_some, StringMap.contains_eq_isSome]
  cases b[m.1]? with
  | none => simp
  | some v => simp

theorem nodup_toList (a : StringMap String) : a.toList.Nodup := by
  have h := Std.ExtTreeMap.distinct_keys_toList (t := a)
  refine h.imp ?_
  rintro x y hne rfl
  exact hne (Std.compare_eq_iff_eq.mpr rfl)

/-- A refresh records what happened. -/
theorem mem_changes_iff (old new : ObservedChannel) (x : Change) :
    x ∈ changes old new ↔ Happened old new x := by
  cases hnew : new.active with
  | false =>
      cases hold : old.active with
      | false => cases x <;> simp [changes, Happened, hnew, hold]
      | true => cases x <;> simp [changes, Happened, hnew, hold]
  | true =>
      have hsplit : x ∈ changes old new ↔
          x ∈ (new.members.toList.filter fun m => !old.members.contains m.1).map
              (fun m => Change.joined m.1 m.2) ∨
            x ∈ (old.members.toList.filter fun m => !new.members.contains m.1).map
              (fun m => Change.left m.1 m.2) ∨
            x ∈ (if old.topic = new.topic then [] else [Change.topic new.topic]) := by
        simp only [changes, hnew, Bool.not_true, Bool.and_false, Bool.false_eq_true, ↓reduceIte,
          List.mem_append]
      rw [hsplit]
      simp only [List.mem_map, mem_missing_iff, Prod.exists]
      cases x with
      | ended =>
          split
          · simp [Happened, hnew]
          · simp [Happened, hnew]
      | joined member name =>
          split
          · simp [Happened, hnew]
          · simp [Happened, hnew]
      | left member name =>
          split
          · simp [Happened, hnew]
          · simp [Happened, hnew]
      | topic text =>
          split
          next h =>
            simp only [reduceCtorEq, and_false, exists_false, List.not_mem_nil, or_self, Happened,
              false_iff, not_and, not_not]
            exact fun _ htext => h.trans htext
          next h =>
            simp only [reduceCtorEq, and_false, exists_false, List.mem_singleton, false_or,
              Change.topic.injEq, Happened]
            constructor
            · rintro rfl
              exact ⟨hnew, rfl, h⟩
            · exact fun h => h.2.1.symm

/-- No difference is recorded twice. -/
theorem nodup_changes (old new : ObservedChannel) : (changes old new).Nodup := by
  unfold changes
  split
  · exact List.nodup_singleton _
  · split
    · have hjoined : ((new.members.toList.filter fun m => !old.members.contains m.1).map
          fun m => Change.joined m.1 m.2).Nodup := by
        refine ((nodup_toList _).filter _).map ?_
        intro x y h
        injection h with hmember hname
        exact Prod.ext hmember hname
      have hleft : ((old.members.toList.filter fun m => !new.members.contains m.1).map
          fun m => Change.left m.1 m.2).Nodup := by
        refine ((nodup_toList _).filter _).map ?_
        intro x y h
        injection h with hmember hname
        exact Prod.ext hmember hname
      have htopic : (if old.topic = new.topic then [] else [Change.topic new.topic]).Nodup := by
        split
        · exact List.nodup_nil
        · exact List.nodup_singleton _
      refine hjoined.append (hleft.append htopic ?_) ?_
      · intro x hx hx'
        obtain ⟨m, -, rfl⟩ := List.mem_map.mp hx
        split at hx'
        · cases hx'
        · simp at hx'
      · intro x hx hx'
        obtain ⟨m, -, rfl⟩ := List.mem_map.mp hx
        obtain hx' | hx' := List.mem_append.mp hx'
        · simp at hx'
        · split at hx'
          · cases hx'
          · simp at hx'
    · exact List.nodup_nil

theorem changes_of_inactive {old new : ObservedChannel} (hold : old.active = false)
    (hnew : new.active = false) : changes old new = [] := by
  simp [changes, hold, hnew]

theorem changes_self (o : ObservedChannel) : changes o o = [] := by
  rw [List.eq_nil_iff_forall_not_mem]
  intro x hx
  rw [mem_changes_iff] at hx
  cases x with
  | ended => exact absurd (hx.1.symm.trans hx.2) (by decide)
  | joined member name => exact absurd (hx.2.1.symm.trans hx.2.2) (by simp)
  | left member name => exact absurd (hx.2.1.symm.trans hx.2.2) (by simp)
  | topic text => exact hx.2.2 hx.2.1

/-! ### Keys -/

theorem deactivate_of_inactive {c : ChannelRecord} (h : c.active = false) : c.deactivate = c := by
  unfold ChannelRecord.deactivate
  rw [← h]

theorem channelKey_inj {a b : ChannelId} (h : channelKey a = channelKey b) : a = b := by
  have hchars := congrArg String.toList h
  rw [toList_channelKey, toList_channelKey] at hchars
  exact bytes_eq_of_hexChars (List.append_cancel_left hchars)

theorem retiredKey_ne (c : ChannelRecord) (id : ChannelId) :
    recordKey c.deactivate ≠ channelKey id := by
  intro h
  have hchars := congrArg String.toList h
  rw [toList_recordKey, recordIdentity_of_inactive rfl, keyChars_retained, toList_channelKey]
    at hchars
  exact absurd (List.cons.inj hchars).1 (by decide)

theorem id_of_retiredKey {c d : ChannelRecord}
    (h : recordKey c.deactivate = recordKey d.deactivate) : c.id = d.id := by
  rw [recordKey_eq_iff, recordIdentity_of_inactive rfl, recordIdentity_of_inactive rfl] at h
  injection h

/-! ### The loop over the records -/

/-- `L` are the observations of the records by their places, of this refresh for the first `n`
and else of the last one, and `obs` are the baselines. -/
structure Tracks (channels : List ChannelRecord) (n : ℕ) (L : ℕ → Option ObservedChannel)
    (obs : StringMap ObservedChannel) : Prop where
  /-- An active record has its baseline, unless it is about to be observed and a retained record
  of its channel was observed before. -/
  active : ∀ i c o, channels[i]? = some c → L i = some o → o.active = true →
    obs[channelKey c.id]? = some o ∨
      (n ≤ i ∧ obs[channelKey c.id]? = none ∧
        ∃ (m : ℕ) (d : ChannelRecord), m < n ∧ channels[m]? = some d ∧ d.id = c.id)
  retired : ∀ i c o, channels[i]? = some c → L i = some o → o.active = false →
    ∃ o' : ObservedChannel, obs[recordKey c.deactivate]? = some o' ∧ o'.active = false
  source : ∀ k o, obs[k]? = some o →
    ∃ (i : ℕ) (c : ChannelRecord) (p : ObservedChannel), channels[i]? = some c ∧
      L i = some p ∧ p.active = o.active ∧
        k = if o.active then channelKey c.id else recordKey c.deactivate

/-- The order of the observations: they begin with the first record, and none is of a record
behind an active one of the same channel. -/
structure Ordered (channels : List ChannelRecord) (n : ℕ) (L : ℕ → Option ObservedChannel) :
    Prop where
  observed : ∀ i c, i < n → channels[i]? = some c → ∃ o, L i = some o ∧ o.active = c.active
  inactive : ∀ i c o, channels[i]? = some c → L i = some o → o.active = false → c.active = false
  before : ∀ i m p, i < m → L m = some p → ∃ o, L i = some o
  behind : ∀ i m c d o p, i < m → channels[i]? = some c → channels[m]? = some d → c.id = d.id →
    L i = some o → L m = some p → o.active = false

/-- No record stands behind an active one of the same channel. -/
def Settled (channels : List ChannelRecord) : Prop :=
  ∀ (m n : ℕ) (c d : ChannelRecord), m < n → channels[m]? = some c → channels[n]? = some d →
    c.id = d.id → c.active = false

section Turn

variable {channels : List ChannelRecord} {n : ℕ} {L : ℕ → Option ObservedChannel}
  {obs : StringMap ObservedChannel} {c : ChannelRecord} {new : ObservedChannel}

theorem Ordered.update (hsettled : Settled channels) (h : Ordered channels n L)
    (hc : channels[n]? = some c) (hnew : new.active = c.active) :
    Ordered channels (n + 1) (Function.update L n (some new)) := by
  constructor
  · intro i d hi hd
    by_cases hin : i = n
    · subst hin
      rw [hc] at hd
      cases hd
      exact ⟨new, Function.update_self _ _ _, hnew⟩
    · rw [Function.update_of_ne hin]
      exact h.observed i d (by omega) hd
  · intro i d o hd ho hinactive
    by_cases hin : i = n
    · subst hin
      rw [hc] at hd
      cases hd
      rw [Function.update_self] at ho
      cases ho
      rw [← hnew, hinactive]
    · rw [Function.update_of_ne hin] at ho
      exact h.inactive i d o hd ho hinactive
  · intro i m p him hp
    by_cases hin : i = n
    · subst hin
      exact ⟨new, Function.update_self _ _ _⟩
    · rw [Function.update_of_ne hin]
      by_cases hmn : m = n
      · subst hmn
        obtain ⟨d, hd⟩ : ∃ d, channels[i]? = some d :=
          ⟨_, List.getElem?_eq_getElem (him.trans (List.getElem?_eq_some_iff.mp hc).1)⟩
        obtain ⟨o, ho, -⟩ := h.observed i d him hd
        exact ⟨o, ho⟩
      · rw [Function.update_of_ne hmn] at hp
        exact h.before i m p him hp
  · intro i m d e o p him hd he hid ho hp
    by_cases hin : i = n
    · subst hin
      rw [hc] at hd
      cases hd
      rw [Function.update_self] at ho
      cases ho
      rw [hnew]
      exact hsettled i m c e him hc he hid
    · rw [Function.update_of_ne hin] at ho
      by_cases hmn : m = n
      · subst hmn
        obtain ⟨o', ho', hactive⟩ := h.observed i d him hd
        rw [ho] at ho'
        cases ho'
        rw [hactive]
        exact hsettled i m d e him hd he hid
      · rw [Function.update_of_ne hmn] at hp
        exact h.behind i m d e o p him hd he hid ho hp

/-- Where there is no observation of the record there is no baseline of its channel. -/
theorem Tracks.no_baseline (hsettled : Settled channels) (hordered : Ordered channels n L)
    (h : Tracks channels n L obs) (hc : channels[n]? = some c) (hL : L n = none) :
    obs[channelKey c.id]? = none := by
  cases hobs : obs[channelKey c.id]? with
  | none => rfl
  | some o =>
      obtain ⟨i, d, p, hd, hp, hactive, hkey⟩ := h.source _ o hobs
      cases ho : o.active with
      | false =>
          rw [ho, if_neg Bool.false_ne_true] at hkey
          exact absurd hkey.symm (retiredKey_ne d c.id)
      | true =>
          rw [ho, if_pos rfl] at hkey
          have hid := channelKey_inj hkey
          obtain hin | rfl | hin := Nat.lt_trichotomy i n
          · obtain ⟨o', ho', hd'⟩ := hordered.observed i d hin hd
            rw [hp] at ho'
            cases ho'
            rw [hsettled i n d c hin hd hc hid.symm, hactive, ho] at hd'
            cases hd'
          · rw [hL] at hp
            cases hp
          · obtain ⟨o', ho'⟩ := hordered.before n i p hin hp
            rw [hL] at ho'
            cases ho'

/-- What the baseline gives is what the last observation gives. -/
theorem Tracks.recorded (hsettled : Settled channels) (hordered : Ordered channels n L)
    (h : Tracks channels n L obs) (hc : channels[n]? = some c) (hnew : new.active = c.active)
    (hclear : ∀ old (m : ℕ) (d : ChannelRecord), L n = some old → old.active = true → m < n →
      channels[m]? = some d → d.id = c.id → changes old new = []) :
    ((previous obs c).map fun old => changes old new).getD [] =
      ((L n).map fun old => changes old new).getD [] := by
  cases hactive : c.active with
  | true =>
      have hprevious : previous obs c = obs[channelKey c.id]? := by
        rw [previous, recordKey_of_active hactive, hactive, if_pos rfl, Option.or_none]
      rw [hprevious]
      cases hL : L n with
      | none => rw [h.no_baseline hsettled hordered hc hL]
      | some old =>
          have hold : old.active = true := by
            rw [← Bool.not_eq_false]
            intro hold
            have hinactive := hordered.inactive n c old hc hL hold
            rw [hactive] at hinactive
            cases hinactive
          obtain hobs | ⟨-, hobs, m, d, hm, hd, hid⟩ := h.active n c old hc hL hold
          · rw [hobs]
          · rw [hobs]
            exact (hclear old m d hL hold hm hd hid).symm
  | false =>
      have hnew' : new.active = false := hnew.trans hactive
      have hprevious : previous obs c = obs[recordKey c]?.or obs[channelKey c.id]? := by
        rw [previous, hactive, if_neg Bool.false_ne_true]
      have hretired : ∀ o, obs[recordKey c]? = some o → o.active = false ∧
          ∃ (i : ℕ) (d : ChannelRecord) (p : ObservedChannel), channels[i]? = some d ∧
            L i = some p ∧ p.active = false ∧ d.id = c.id := by
        intro o ho
        obtain ⟨i, d, p, hd, hp, hpo, hkey⟩ := h.source _ o ho
        rw [← deactivate_of_inactive hactive] at hkey
        cases hoactive : o.active with
        | true =>
            rw [hoactive, if_pos rfl] at hkey
            exact absurd hkey (retiredKey_ne c d.id)
        | false =>
            rw [hoactive, if_neg Bool.false_ne_true] at hkey
            exact ⟨rfl, i, d, p, hd, hp, hpo.trans hoactive, (id_of_retiredKey hkey).symm⟩
      rw [hprevious]
      cases hL : L n with
      | none =>
          rw [h.no_baseline hsettled hordered hc hL, Option.or_none]
          cases hobs : obs[recordKey c]? with
          | none => rfl
          | some o => exact changes_of_inactive (hretired o hobs).1 hnew'
      | some old =>
          cases hold : old.active with
          | false =>
              obtain ⟨o, ho, hoactive⟩ := h.retired n c old hc hL hold
              rw [deactivate_of_inactive hactive] at ho
              rw [ho]
              exact (changes_of_inactive hoactive hnew').trans (changes_of_inactive hold hnew').symm
          | true =>
              cases hobs : obs[recordKey c]? with
              | none =>
                  rw [Option.none_or]
                  obtain hobs | ⟨-, hobs, m, d, hm, hd, hid⟩ := h.active n c old hc hL hold
                  · rw [hobs]
                  · rw [hobs]
                    exact (hclear old m d hL hold hm hd hid).symm
              | some o =>
                  obtain ⟨hoactive, i, d, p, hd, hp, hpactive, hid⟩ := hretired o hobs
                  obtain hin | rfl | hin := Nat.lt_trichotomy i n
                  · rw [Option.some_or]
                    exact (changes_of_inactive hoactive hnew').trans
                      (hclear old i d hL hold hin hd hid).symm
                  · rw [hL] at hp
                    cases hp
                    rw [hold] at hpactive
                    cases hpactive
                  · have hbehind := hordered.behind n i c d old p hin hc hd hid.symm hL hp
                    rw [hold] at hbehind
                    cases hbehind

theorem rebase_get (obs : StringMap ObservedChannel) (c : ChannelRecord) (new : ObservedChannel)
    (k : String) : (rebase obs c new)[k]? =
      if recordKey c = k then some new
      else if c.active = false ∧ channelKey c.id = k then none else obs[k]? := by
  unfold rebase
  rw [StringMap.get_insert]
  cases hactive : c.active with
  | true => simp
  | false =>
      rw [if_neg Bool.false_ne_true, StringMap.get_erase]
      simp

theorem Tracks.rebase (hsettled : Settled channels) (hordered : Ordered channels n L)
    (h : Tracks channels n L obs) (hc : channels[n]? = some c) (hnew : new.active = c.active) :
    Tracks channels (n + 1) (Function.update L n (some new)) (rebase obs c new) := by
  constructor
  · intro i d o hd ho hoactive
    by_cases hin : i = n
    · subst hin
      rw [hc] at hd
      cases hd
      rw [Function.update_self] at ho
      cases ho
      rw [hnew] at hoactive
      rw [rebase_get, recordKey_of_active hoactive, if_pos rfl]
      exact Or.inl rfl
    · rw [Function.update_of_ne hin] at ho
      have hbefore : i < n → d.active = true := by
        intro hi
        obtain ⟨o', ho', hd'⟩ := hordered.observed i d hi hd
        rw [ho] at ho'
        cases ho'
        rw [← hd', hoactive]
      by_cases hid : c.id = d.id
      · have hni : n < i := by
          obtain hi | hi := Nat.lt_or_gt_of_ne hin
          · have hinactive := hsettled i n d c hi hd hc hid.symm
            rw [hbefore hi] at hinactive
            cases hinactive
          · exact hi
        have hinactive := hsettled n i c d hni hc hd hid
        refine Or.inr ⟨hni, ?_, n, c, Nat.lt_succ_self n, hc, hid⟩
        rw [rebase_get, if_neg, if_pos ⟨hinactive, by rw [hid]⟩]
        rw [← deactivate_of_inactive hinactive]
        exact retiredKey_ne c d.id
      · have hget : (Service.rebase obs c new)[channelKey d.id]? = obs[channelKey d.id]? := by
          rw [rebase_get, if_neg, if_neg]
          · exact fun hkey => hid (channelKey_inj hkey.2)
          · cases hactive : c.active with
            | true =>
                rw [recordKey_of_active hactive]
                exact fun hkey => hid (channelKey_inj hkey)
            | false =>
                rw [← deactivate_of_inactive hactive]
                exact retiredKey_ne c d.id
        rw [hget]
        obtain hobs | ⟨hni, hobs, m, e, hm, he, heid⟩ := h.active i d o hd ho hoactive
        · exact Or.inl hobs
        · exact Or.inr ⟨by omega, hobs, m, e, by omega, he, heid⟩
  · intro i d o hd ho hoactive
    by_cases hin : i = n
    · subst hin
      rw [hc] at hd
      cases hd
      rw [Function.update_self] at ho
      cases ho
      have hinactive := hnew.symm.trans hoactive
      refine ⟨new, ?_, hoactive⟩
      rw [rebase_get, if_pos]
      rw [deactivate_of_inactive hinactive]
    · rw [Function.update_of_ne hin] at ho
      obtain ⟨o', ho', ho'active⟩ := h.retired i d o hd ho hoactive
      rw [rebase_get]
      split
      next hkey =>
        refine ⟨new, rfl, ?_⟩
        rw [hnew, ← Bool.not_eq_true]
        intro hactive
        rw [recordKey_of_active hactive] at hkey
        exact retiredKey_ne d c.id hkey.symm
      · rw [if_neg fun hkey => retiredKey_ne d c.id hkey.2.symm]
        exact ⟨o', ho', ho'active⟩
  · intro k o ho
    rw [rebase_get] at ho
    by_cases hkey : recordKey c = k
    · rw [if_pos hkey] at ho
      cases ho
      refine ⟨n, c, new, hc, Function.update_self _ _ _, rfl, ?_⟩
      rw [← hkey, hnew]
      cases hactive : c.active with
      | true => rw [if_pos rfl, recordKey_of_active hactive]
      | false => rw [if_neg Bool.false_ne_true, deactivate_of_inactive hactive]
    · rw [if_neg hkey] at ho
      by_cases herased : c.active = false ∧ channelKey c.id = k
      · rw [if_pos herased] at ho
        cases ho
      · rw [if_neg herased] at ho
        obtain ⟨i, d, p, hd, hp, hpo, hk⟩ := h.source k o ho
        refine ⟨i, d, p, hd, ?_, hpo, hk⟩
        rw [Function.update_of_ne _, hp]
        rintro rfl
        rw [hc] at hd
        cases hd
        cases hactive : c.active with
        | true =>
            have hoactive : o.active = true := by
              rw [← hpo, ← Bool.not_eq_false]
              intro hfalse
              have hinactive := hordered.inactive i c p hc hp hfalse
              rw [hactive] at hinactive
              cases hinactive
            rw [hoactive, if_pos rfl] at hk
            rw [recordKey_of_active hactive] at hkey
            exact hkey hk.symm
        | false =>
            cases hoactive : o.active with
            | true =>
                rw [hoactive, if_pos rfl] at hk
                exact herased ⟨hactive, hk.symm⟩
            | false =>
                rw [hoactive, if_neg Bool.false_ne_true, deactivate_of_inactive hactive] at hk
                exact hkey hk.symm

end Turn

/-! ### A refresh -/

/-- The observations of a refresh. -/
def observations : StringMap String → List (ChannelRecord × Option String) → List ObservedChannel
  | _, [] => []
  | topics, (channel, answer) :: rest =>
      observedChannel topics channel answer :: observations (topicsAfter topics channel answer) rest

/-- The activity that is due for the records with an earlier observation. -/
def due : List ChannelRecord → List ObservedChannel → List ObservedChannel → List Note
  | channel :: channels, old :: last, new :: seen =>
      (changes old new).map (Change.note (recordKey channel)) ++ due channels last seen
  | _, _, _ => []

theorem due_nil (last seen : List ObservedChannel) : due [] last seen = [] := by
  simp [due]

theorem due_cons (channel : ChannelRecord) (channels : List ChannelRecord)
    (last : List ObservedChannel) (new : ObservedChannel) (seen : List ObservedChannel) :
    due (channel :: channels) last (new :: seen) =
      ((last.head?.map fun old => changes old new).getD []).map
          (Change.note (recordKey channel)) ++ due channels last.tail seen := by
  cases last with
  | nil =>
      cases channels with
      | nil => simp [due]
      | cons c channels => simp [due]
  | cons old last => rfl

theorem due_eq_nil_of (channels : List ChannelRecord) (last seen : List ObservedChannel)
    (h : ∀ (i : ℕ) (c : ChannelRecord) (old new : ObservedChannel), channels[i]? = some c →
      last[i]? = some old → seen[i]? = some new → changes old new = []) :
    due channels last seen = [] := by
  induction channels generalizing last seen with
  | nil => exact due_nil last seen
  | cons c channels ih =>
      cases seen with
      | nil => simp [due]
      | cons new seen =>
          have htail : due channels last.tail seen = [] := by
            apply ih
            intro i d old new hd hold hnew
            rw [List.getElem?_tail] at hold
            exact h (i + 1) d old new hd hold hnew
          rw [due_cons, htail, List.append_nil]
          cases last with
          | nil => rfl
          | cons old last =>
              have hhead := h 0 c old new rfl rfl rfl
              rw [List.head?_cons, Option.map_some, Option.getD_some, hhead, List.map_nil]

theorem length_observations (topics : StringMap String)
    (sightings : List (ChannelRecord × Option String)) :
    (observations topics sightings).length = sightings.length := by
  induction sightings generalizing topics with
  | nil => rfl
  | cons sighting rest ih =>
      obtain ⟨channel, answer⟩ := sighting
      rw [observations, List.length_cons, List.length_cons, ih]

/-- No record behind an active one of the same channel, and no difference at a record behind a
retained one. -/
def Clear (channels : List ChannelRecord) (last seen : List ObservedChannel) : Prop :=
  Settled channels ∧ ∀ (m n : ℕ) (c d : ChannelRecord) (old new : ObservedChannel), m < n →
    channels[m]? = some c → channels[n]? = some d → c.id = d.id → last[n]? = some old →
      seen[n]? = some new → old.active = true → changes old new = []

theorem trim_eq_rtake (activity : List Hosted.Activity) :
    Hosted.trim activity = activity.rtake Hosted.maxActivity := rfl

theorem noteOf_entry (note : Note) (stamp : String × ℕ) : noteOf (note.entry stamp) = note := rfl

theorem recordActivity_topics (stamp : ℕ → String × ℕ) (candidate : Candidate) (note : Note) :
    (candidate.recordActivity stamp note).topics = candidate.topics := by
  simp only [Candidate.recordActivity]

theorem recordActivity_observedChannels (stamp : ℕ → String × ℕ) (candidate : Candidate)
    (note : Note) :
    (candidate.recordActivity stamp note).observedChannels = candidate.observedChannels := by
  simp only [Candidate.recordActivity]

theorem foldl_recordActivity (stamp : ℕ → String × ℕ) (notes : List Note)
    (candidate : Candidate) :
    (notes.foldl (Candidate.recordActivity stamp) candidate).topics = candidate.topics ∧
    (notes.foldl (Candidate.recordActivity stamp) candidate).observedChannels =
      candidate.observedChannels ∧
    ((notes.foldl (Candidate.recordActivity stamp) candidate).activity.map noteOf).rtake
        Hosted.maxActivity =
      (candidate.activity.map noteOf ++ notes).rtake Hosted.maxActivity := by
  induction notes generalizing candidate with
  | nil => exact ⟨rfl, rfl, by rw [List.foldl_nil, List.append_nil]⟩
  | cons note notes ih =>
      obtain ⟨htopics, hobserved, hactivity⟩ := ih (candidate.recordActivity stamp note)
      rw [List.foldl_cons]
      rw [recordActivity_topics] at htopics
      rw [recordActivity_observedChannels] at hobserved
      refine ⟨htopics, hobserved, ?_⟩
      have hmap : (candidate.recordActivity stamp note).activity.map noteOf =
          (candidate.activity.map noteOf ++ [note]).rtake Hosted.maxActivity := by
        simp only [Candidate.recordActivity]
        rw [trim_eq_rtake, map_rtake, List.map_append, List.map_singleton, noteOf_entry]
      rw [hactivity, hmap, rtake_rtake_append, List.append_assoc, List.singleton_append]

section Loop

variable (stamp : ℕ → String × ℕ) (candidate : Candidate) (channel : ChannelRecord)
  (answer : Option String)

theorem observe_topics : (candidate.observe stamp (channel, answer)).topics =
    topicsAfter candidate.topics channel answer := by
  simp only [Candidate.observe, (foldl_recordActivity stamp _ candidate).1]

theorem observe_observedChannels : (candidate.observe stamp (channel, answer)).observedChannels =
    rebase candidate.observedChannels channel
      (observedChannel candidate.topics channel answer) := by
  simp only [Candidate.observe, (foldl_recordActivity stamp _ candidate).2.1]

theorem observe_activity :
    ((candidate.observe stamp (channel, answer)).activity.map noteOf).rtake Hosted.maxActivity =
      (candidate.activity.map noteOf ++
        (((previous candidate.observedChannels channel).map fun old =>
          changes old (observedChannel candidate.topics channel answer)).getD []).map
            (Change.note (recordKey channel))).rtake Hosted.maxActivity := by
  simp only [Candidate.observe]
  rw [(foldl_recordActivity stamp _ candidate).2.2]
  cases previous candidate.observedChannels channel with
  | none => rfl
  | some old => rfl

end Loop

/-- From the observations of the last refresh the loop comes to those of this one, and the
activity it records is the one that is due. -/
theorem observe_loop {channels : List ChannelRecord} (hsettled : Settled channels)
    (stamp : ℕ → String × ℕ) (rest : List (ChannelRecord × Option String))
    (before : List ChannelRecord) (last : List ObservedChannel) (candidate : Candidate)
    (L : ℕ → Option ObservedChannel) (hchannels : channels = before ++ rest.map Prod.fst)
    (hordered : Ordered channels before.length L)
    (htracks : Tracks channels before.length L candidate.observedChannels)
    (hlast : ∀ i, L (before.length + i) = last[i]?) (hshort : last.length ≤ rest.length)
    (hclear : ∀ (i m : ℕ) (c d : ChannelRecord) (old new : ObservedChannel),
      m < before.length + i → channels[m]? = some c → channels[before.length + i]? = some d →
        c.id = d.id → last[i]? = some old → (observations candidate.topics rest)[i]? = some new →
          old.active = true → changes old new = []) :
    ((rest.foldl (Candidate.observe stamp) candidate).activity.map noteOf).rtake
        Hosted.maxActivity =
      (candidate.activity.map noteOf ++
        due (rest.map Prod.fst) last (observations candidate.topics rest)).rtake
          Hosted.maxActivity ∧
    ∃ L', Ordered channels channels.length L' ∧
      Tracks channels channels.length L'
        (rest.foldl (Candidate.observe stamp) candidate).observedChannels ∧
      (∀ i < before.length, L' i = L i) ∧
      ∀ i, L' (before.length + i) = (observations candidate.topics rest)[i]? := by
  induction rest generalizing before last candidate L with
  | nil =>
      have hlength : channels.length = before.length := by
        rw [hchannels, List.map_nil, List.append_nil]
      cases List.length_eq_zero_iff.mp (Nat.le_zero.mp hshort)
      refine ⟨?_, L, hlength ▸ hordered, hlength ▸ htracks, fun _ _ => rfl, hlast⟩
      rw [List.foldl_nil, List.map_nil, due_nil, List.append_nil]
  | cons sighting rest ih =>
      obtain ⟨channel, answer⟩ := sighting
      have hc : channels[before.length]? = some channel := by
        rw [hchannels]
        simp
      have hnew : (observedChannel candidate.topics channel answer).active = channel.active := rfl
      have hrecorded := htracks.recorded hsettled hordered hc hnew
        fun old m d hold hactive hm hd hid => hclear 0 m d channel old _ hm hd hc hid
          ((hlast 0).symm.trans hold) rfl hactive
      have hfirst : L before.length = last.head? := by
        rw [List.head?_eq_getElem?, ← hlast, Nat.add_zero]
      have hlength : (before ++ [channel]).length = before.length + 1 := List.length_append
      have hadd : ∀ i, (before ++ [channel]).length + i = before.length + (i + 1) := by
        intro i
        rw [hlength]
        omega
      obtain ⟨hactivity, L', hordered', htracks', hkept, hseen⟩ :=
        ih (before ++ [channel]) last.tail (candidate.observe stamp (channel, answer))
          (Function.update L before.length
            (some (observedChannel candidate.topics channel answer)))
          (by rw [hchannels, List.map_cons, List.append_assoc, List.singleton_append])
          (by rw [hlength]; exact hordered.update hsettled hc rfl)
          (by
            rw [hlength, observe_observedChannels]
            exact htracks.rebase hsettled hordered hc rfl)
          (by
            intro i
            rw [hadd, Function.update_of_ne (by omega), hlast, List.getElem?_tail])
          (by rw [List.length_tail]; exact Nat.sub_le_of_le_add hshort)
          (by
            intro i m c d old new hm hd he hid hold hnew hactive
            rw [hadd] at hm he
            rw [List.getElem?_tail] at hold
            rw [observe_topics] at hnew
            exact hclear (i + 1) m c d old new hm hd he hid hold hnew hactive)
      rw [observe_topics] at hactivity hseen
      refine ⟨?_, L', hordered', htracks', ?_, ?_⟩
      · rw [List.foldl_cons, hactivity, ← rtake_rtake_append, observe_activity, hrecorded,
          rtake_rtake_append, List.append_assoc, List.map_cons, observations, due_cons, hfirst]
      · intro i hi
        rw [hkept i (by omega), Function.update_of_ne (by omega)]
      · intro i
        cases i with
        | zero =>
            rw [Nat.add_zero, hkept before.length (by omega), Function.update_self]
            rfl
        | succ i =>
            rw [← hadd, hseen]
            rfl

/-- The baselines are those of the observations `last`. -/
structure Baselines (channels : List ChannelRecord) (last : List ObservedChannel)
    (obs : StringMap ObservedChannel) : Prop where
  short : last.length ≤ channels.length
  ordered : Ordered channels 0 fun i => last[i]?
  tracks : Tracks channels 0 (fun i => last[i]?) obs

theorem baselines_empty (channels : List ChannelRecord) : Baselines channels [] ∅ := by
  refine ⟨Nat.zero_le _, ⟨?_, ?_, ?_, ?_⟩, ⟨?_, ?_, ?_⟩⟩
  · exact fun _ _ h => absurd h (Nat.not_lt_zero _)
  · exact fun _ _ _ _ h => nomatch h
  · exact fun _ _ _ _ h => nomatch h
  · exact fun _ _ _ _ _ _ _ _ _ _ h => nomatch h
  · exact fun _ _ _ _ h => nomatch h
  · exact fun _ _ _ _ h => nomatch h
  · exact fun k o h => absurd h (by simp)

/-- The operations of the archive leave the places of the records, their identities and what
their retained keys are made of. -/
theorem Baselines.extends {channels channels' : List ChannelRecord}
    {last : List ObservedChannel} {obs : StringMap ObservedChannel}
    (h : Baselines channels last obs) (hstays : Extends Stays channels channels') :
    Baselines channels' last obs := by
  have hback : ∀ (i : ℕ) (c' : ChannelRecord) (o : ObservedChannel), channels'[i]? = some c' →
      last[i]? = some o → ∃ c, channels[i]? = some c ∧ Stays c c' := by
    intro i c' o hc' ho
    have hi := (List.getElem?_eq_some_iff.mp ho).1.trans_le h.short
    obtain ⟨d, hd, hstay⟩ := hstays i channels[i] (List.getElem?_eq_getElem hi)
    rw [hc'] at hd
    cases hd
    exact ⟨_, List.getElem?_eq_getElem hi, hstay⟩
  have hkey : ∀ {c c' : ChannelRecord}, Stays c c' →
      recordKey c'.deactivate = recordKey c.deactivate := by
    intro c c' hstay
    have hstay' := hstay.trans c c' c'.deactivate
      ⟨ChannelRecord.Grows.refl sameContent_refl c', retires_deactivate c'⟩
    exact recordKey_stays hstay' rfl
  refine ⟨h.short.trans ?_, ⟨?_, ?_, h.ordered.before, ?_⟩, ⟨?_, ?_, ?_⟩⟩
  · by_contra hlt
    obtain ⟨c', hc', -⟩ := hstays channels'.length
      channels[channels'.length] (List.getElem?_eq_getElem (Nat.lt_of_not_le hlt))
    exact absurd (List.getElem?_eq_some_iff.mp hc').1 (Nat.lt_irrefl _)
  · exact fun _ _ hi => absurd hi (Nat.not_lt_zero _)
  · intro i c' o hc' ho hinactive
    obtain ⟨c, hc, hstay⟩ := hback i c' o hc' ho
    exact hstay.2.2 (h.ordered.inactive i c o hc ho hinactive)
  · intro i m c' d' o p him hc' hd' hid ho hp
    obtain ⟨c, hc, hstay⟩ := hback i c' o hc' ho
    obtain ⟨d, hd, hstay'⟩ := hback m d' p hd' hp
    exact h.ordered.behind i m c d o p him hc hd
      (hstay.1.1.symm.trans (hid.trans hstay'.1.1)) ho hp
  · intro i c' o hc' ho hactive
    obtain ⟨c, hc, hstay⟩ := hback i c' o hc' ho
    obtain hobs | ⟨-, -, m, -, hm, -⟩ := h.tracks.active i c o hc ho hactive
    · rw [hstay.1.1]
      exact Or.inl hobs
    · exact absurd hm (Nat.not_lt_zero m)
  · intro i c' o hc' ho hinactive
    obtain ⟨c, hc, hstay⟩ := hback i c' o hc' ho
    rw [hkey hstay]
    exact h.tracks.retired i c o hc ho hinactive
  · intro k o hobs
    obtain ⟨i, c, p, hc, hp, hactive, hk⟩ := h.tracks.source k o hobs
    obtain ⟨c', hc', hstay⟩ := hstays i c hc
    refine ⟨i, c', p, hc', hp, hactive, ?_⟩
    rw [hk, hstay.1.1, hkey hstay]

/-- Where the baselines did not change nothing is due. -/
theorem Baselines.due_eq_nil {channels : List ChannelRecord}
    {last seen : List ObservedChannel} {obs : StringMap ObservedChannel}
    (h : Baselines channels last obs) (h' : Baselines channels seen obs)
    (hseen : Ordered channels channels.length fun i => seen[i]?)
    (hclear : Clear channels last seen) : due channels last seen = [] := by
  have hchanges : ∀ (i : ℕ) (c : ChannelRecord) (old new : ObservedChannel),
      channels[i]? = some c → last[i]? = some old → seen[i]? = some new →
        changes old new = [] := by
    intro n c old new hc hold hnew
    cases hactive : old.active with
    | false =>
        have hinactive := h.ordered.inactive n c old hc hold hactive
        obtain ⟨o, ho, hoactive⟩ := hseen.observed n c (List.getElem?_eq_some_iff.mp hc).1 hc
        rw [hnew] at ho
        cases ho
        exact changes_of_inactive hactive (hoactive.trans hinactive)
    | true =>
        cases hnewactive : new.active with
        | true =>
            obtain hobs | ⟨-, -, m, -, hm, -⟩ := h.tracks.active n c old hc hold hactive
            · obtain hobs' | ⟨-, -, m, -, hm, -⟩ := h'.tracks.active n c new hc hnew hnewactive
              · rw [hobs] at hobs'
                cases hobs'
                exact changes_self old
              · exact absurd hm (Nat.not_lt_zero m)
            · exact absurd hm (Nat.not_lt_zero m)
        | false =>
            obtain ⟨o, ho, hoactive⟩ := h'.tracks.retired n c new hc hnew hnewactive
            obtain ⟨i, d, p, hd, hp, hpactive, hkey⟩ := h.tracks.source _ o ho
            rw [hoactive] at hpactive
            rw [hoactive, if_neg Bool.false_ne_true] at hkey
            have hid := id_of_retiredKey hkey
            obtain hin | rfl | hin := Nat.lt_trichotomy i n
            · exact hclear.2 i n d c old new hin hd hc hid.symm hold hnew hactive
            · rw [hold] at hp
              cases hp
              rw [hactive] at hpactive
              cases hpactive
            · have hbehind := h.ordered.behind n i c d old p hin hc hd hid hold hp
              rw [hactive] at hbehind
              cases hbehind
  exact due_eq_nil_of channels last seen hchanges

/-- The loop over all records. -/
theorem observe_all {channels : List ChannelRecord} {last : List ObservedChannel}
    {topics : StringMap String} {obs : StringMap ObservedChannel}
    (stamp : ℕ → String × ℕ) (answer : ℕ → Option String) (h : Baselines channels last obs)
    (hclear : Clear channels last (observations topics (sightings channels answer))) :
    (((sightings channels answer).foldl (Candidate.observe stamp)
        ⟨topics, obs, [], 0⟩).activity.map noteOf).rtake Hosted.maxActivity =
      (due channels last (observations topics (sightings channels answer))).rtake
        Hosted.maxActivity ∧
    Ordered channels channels.length (fun i =>
      (observations topics (sightings channels answer))[i]?) ∧
    Baselines channels (observations topics (sightings channels answer))
      ((sightings channels answer).foldl (Candidate.observe stamp)
        ⟨topics, obs, [], 0⟩).observedChannels := by
  have hchannels : (sightings channels answer).map Prod.fst = channels := by
    rw [sightings, List.map_map]
    exact List.zipIdx_map_fst 0 channels
  have hlength : (sightings channels answer).length = channels.length := by
    simp [sightings]
  obtain ⟨hactivity, L, hordered, htracks, -, hseen⟩ := observe_loop hclear.1 stamp
    (sightings channels answer) [] last ⟨topics, obs, [], 0⟩ (fun i => last[i]?)
    (by rw [hchannels, List.nil_append]) h.ordered h.tracks (by simp) (hlength ▸ h.short)
    (by
      intro i m c d old new hm hc hd hid hold hnew hactive
      simp only [List.length_nil, Nat.zero_add] at hm hd
      exact hclear.2 m i c d old new hm hc hd hid hold hnew hactive)
  have hL : L = fun i => (observations topics (sightings channels answer))[i]? := by
    funext i
    have hi := hseen i
    rwa [List.length_nil, Nat.zero_add] at hi
  rw [hL] at hordered htracks
  rw [hchannels] at hactivity
  refine ⟨hactivity, hordered, ?_, ?_, ?_⟩
  · rw [length_observations, hlength]
  · exact ⟨fun _ _ hi => absurd hi (Nat.not_lt_zero _), hordered.inactive, hordered.before,
      hordered.behind⟩
  · refine ⟨?_, htracks.retired, htracks.source⟩
    intro i c o hc ho hactive
    obtain hobs | ⟨hi, -⟩ := htracks.active i c o hc ho hactive
    · exact Or.inl hobs
    · exact absurd (List.getElem?_eq_some_iff.mp hc).1 (Nat.not_lt.mpr hi)

/-! ### Runs -/

/-- A profile, with the observations of the last refresh that was not refused and the activity
that is due up to now. -/
structure Observer where
  archive : ArchiveData
  watch : Watch
  last : List ObservedChannel
  history : List Note

inductive ObserverStep where
  | archive (op : Op)
  | refresh (answer : ℕ → Option String) (stamp : ℕ → String × ℕ) (metadataChanged : Bool)
      (saved : Except String Unit)
  | record (entry : Hosted.Activity)

def Observer.created (daemonSafetyNumber : String) : Observer :=
  ⟨.create daemonSafetyNumber, ⟨∅, ∅, []⟩, [], []⟩

/-- The observations of a refresh in this state. -/
def Observer.observations (o : Observer) (answer : ℕ → Option String) : List ObservedChannel :=
  Service.observations o.watch.topics (sightings o.archive.channels answer)

def Observer.act (o : Observer) : ObserverStep → Observer
  | .archive op => { o with archive := op.apply o.archive }
  | .refresh answer stamp metadataChanged saved =>
      match refreshChannelTopics stamp o.watch o.archive.channels answer metadataChanged saved with
      | (watch, .error _) => { o with watch := watch }
      | (watch, .ok ()) =>
          { o with
            watch := watch
            last := o.observations answer
            history := o.history ++ due o.archive.channels o.last (o.observations answer) }
  | .record entry =>
      { o with
        watch := { o.watch with activity := Hosted.trim (o.watch.activity ++ [entry]) }
        history := o.history ++ [noteOf entry] }

def observerMachine (daemonSafetyNumber : String) : Machine Observer ObserverStep :=
  .ofFun (.created daemonSafetyNumber) Observer.act

def Observer.Clear (o : Observer) : ObserverStep → Prop
  | .refresh answer _ _ _ => Service.Clear o.archive.channels o.last (o.observations answer)
  | _ => True

/-- What is retained is the newest activity that is due. -/
structure Observer.Exact (o : Observer) : Prop where
  baselines : Baselines o.archive.channels o.last o.watch.observedChannels
  activity : o.watch.activity.map noteOf = o.history.rtake Hosted.maxActivity

theorem refreshChannelTopics_cases (stamp : ℕ → String × ℕ) (watch : Watch)
    (channels : List ChannelRecord) (answer : ℕ → Option String) (metadataChanged : Bool)
    (saved : Except String Unit) :
    (∃ message, refreshChannelTopics stamp watch channels answer metadataChanged saved =
      (watch, .error message)) ∨
    (refreshChannelTopics stamp watch channels answer metadataChanged saved = (watch, .ok ()) ∧
      ((sightings channels answer).foldl (Candidate.observe stamp)
        ⟨watch.topics, watch.observedChannels, [], 0⟩).observedChannels =
          watch.observedChannels) ∨
    refreshChannelTopics stamp watch channels answer metadataChanged saved =
      (⟨((sightings channels answer).foldl (Candidate.observe stamp)
          ⟨watch.topics, watch.observedChannels, [], 0⟩).topics,
        ((sightings channels answer).foldl (Candidate.observe stamp)
          ⟨watch.topics, watch.observedChannels, [], 0⟩).observedChannels,
        Hosted.trim (watch.activity ++ ((sightings channels answer).foldl
          (Candidate.observe stamp) ⟨watch.topics, watch.observedChannels, [], 0⟩).activity)⟩,
        .ok ()) := by
  unfold refreshChannelTopics
  dsimp only
  split
  · cases saved with
    | error message => exact Or.inl ⟨message, rfl⟩
    | ok _ => exact Or.inr (Or.inr rfl)
  next h =>
    simp only [Bool.or_eq_true, bne_iff_ne, ne_eq, not_or, not_not] at h
    exact Or.inr (Or.inl ⟨rfl, h.2⟩)

theorem Observer.Exact.act {o : Observer} (h : o.Exact) {x : ObserverStep} (hclear : o.Clear x) :
    (o.act x).Exact := by
  cases x with
  | archive op => exact ⟨h.baselines.extends (stays_apply o.archive op), h.activity⟩
  | record entry =>
      have hbaselines := h.baselines
      simp only [Observer.act]
      refine ⟨hbaselines, ?_⟩
      dsimp only
      rw [trim_eq_rtake, map_rtake, List.map_append, h.activity, rtake_rtake_append,
        List.map_singleton]
  | refresh answer stamp metadataChanged saved =>
      obtain ⟨hactivity, hordered, hbaselines⟩ := observe_all stamp answer h.baselines hclear
      obtain ⟨message, hrefresh⟩ | ⟨hrefresh, hsame⟩ | hrefresh :=
        refreshChannelTopics_cases stamp o.watch o.archive.channels answer metadataChanged saved
      · simp only [Observer.act, hrefresh]
        exact h
      · rw [hsame] at hbaselines
        have hdue : due o.archive.channels o.last (o.observations answer) = [] :=
          h.baselines.due_eq_nil hbaselines hordered hclear
        simp only [Observer.act, hrefresh, hdue, List.append_nil]
        exact ⟨hbaselines, h.activity⟩
      · simp only [Observer.act, hrefresh]
        refine ⟨hbaselines, ?_⟩
        dsimp only
        rw [trim_eq_rtake, map_rtake, List.map_append, h.activity, rtake_rtake_append,
          ← rtake_append_rtake, hactivity, rtake_append_rtake, Observer.observations]

theorem reachable_exact {daemon : String} {o : Observer}
    (ho : ((observerMachine daemon).restrict Observer.Clear).Reachable o) : o.Exact := by
  refine ho.invariant ?_ ?_
  · rintro o rfl
    refine ⟨baselines_empty _, ?_⟩
    rw [Observer.created, List.map_nil, List.rtake_nil]
  · rintro o x o' - hexact ⟨hclear, rfl⟩
    exact hexact.act hclear

/-- The retained activity is the newest of what happened between the observations, where every
refresh finds the places of the records clear. -/
theorem activity_exact {daemon : String} {o : Observer}
    (ho : ((observerMachine daemon).restrict Observer.Clear).Reachable o) :
    o.watch.activity.map noteOf = o.history.rtake Hosted.maxActivity ∧
      ∀ old new : ObservedChannel, (changes old new).Nodup ∧
        ∀ x, x ∈ changes old new ↔ Happened old new x :=
  ⟨(reachable_exact ho).activity, fun old new => ⟨nodup_changes old new, mem_changes_iff old new⟩⟩

/-! ### A channel that was joined again -/

namespace Sample

theorem clear_of_le_one {channels : List ChannelRecord} (h : channels.length ≤ 1)
    (last seen : List ObservedChannel) : Service.Clear channels last seen := by
  have hplaces : ∀ (m n : ℕ) (d : ChannelRecord), m < n → channels[n]? = some d → False := by
    intro m n d hmn hd
    have hn := (List.getElem?_eq_some_iff.mp hd).1
    omega
  exact ⟨fun m n _ d hmn _ hd => (hplaces m n d hmn hd).elim,
    fun m n _ d _ _ hmn _ hd => (hplaces m n d hmn hd).elim⟩

def look : ObserverStep := .refresh (fun _ => none) (fun _ => ("", 0)) false (.ok ())

def joins (self : MemberId) : List ObserverStep :=
  (reconcileOps [(Archive.room, ownRoster self)] 1).map .archive

/-- Another member comes, and a refresh sees it. -/
def company (self : MemberId) : List ObserverStep :=
  [.archive (.rosterChanged "room" (ownRoster self ++ [⟨Bytes.fill 32 9, "peer", 1, none, false⟩])),
    look]

def watched : Observer :=
  (joins (Bytes.fill 32 1) ++ look :: company (Bytes.fill 32 1)).foldl Observer.act (.created "")

/-- The membership ends, and the channel is joined again and observed. -/
def rejoined : List ObserverStep :=
  [.archive (.event (.channelRemoved "room")), look] ++ joins (Bytes.fill 32 2) ++ [look]

def unnoticed : Observer := (rejoined ++ company (Bytes.fill 32 2)).foldl Observer.act watched

end Sample

open Sample in
/-- The member that comes after the channel was joined again is not recorded. -/
theorem rejoined_channel_unwatched :
    (observerMachine "").Reachable unnoticed ∧
      unnoticed.watch.activity.map noteOf ≠ unnoticed.history.rtake Hosted.maxActivity := by
  refine ⟨Machine.Reachable.foldl (Machine.Reachable.foldl (.start rfl) _) _, ?_⟩
  decide +kernel

open Sample in
theorem watched_activity : watched.watch.activity.map noteOf =
    watched.history.rtake Hosted.maxActivity := by
  have hmeets : Machine.Meets Observer.Clear Observer.act (.created "")
      (joins (Bytes.fill 32 1) ++ look :: company (Bytes.fill 32 1)) :=
    ⟨trivial, trivial, clear_of_le_one (by decide +kernel) _ _, trivial,
      clear_of_le_one (by decide +kernel) _ _, trivial⟩
  exact (activity_exact (Machine.Reachable.restrict_foldl (.start rfl) hmeets)).1

end Service

end GChat
