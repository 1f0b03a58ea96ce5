import GChat.Contacts.Exchange

/-!
# Faithful conversations

A conversation is faithful if it holds only messages that were queued, each once,
and shows a message as delivered only if the other side has it. The edits of a
conversation that the operations make keep it faithful.
-/

namespace GChat

namespace Contacts

open Foundation Api

section Definitions

variable (codec : Codec) (identity : Side → List UInt8)

/-- The party a message in a conversation of `x` comes from. -/
def origin (x : Side) (m : Message) : Side := if m.mine then x else x.other

/-- The message was queued by the party it comes from, for the other one. -/
def Traced (s : Exchange) (x : Side) (m : Message) : Prop :=
  ∃ q ∈ s.queued, q.source = origin x m ∧
    q.contact = sideKey codec identity (origin x m).other ∧
    m.id = hex q.id.toList ∧ Shows m q.content

/-- The message behind an identifier that `x` has from the other side. -/
def Heard (s : Exchange) (x : Side) (k : String) (q : Queued) : Prop :=
  q ∈ s.queued ∧ q.source = x.other ∧ q.contact = sideKey codec identity x ∧
    k = hex q.id.toList

/-- The conversation of `x` with the other side. -/
structure Faithful (s : Exchange) (x : Side) (c : Contact) : Prop where
  nodup : (c.messages.map (·.id)).Nodup
  traced : ∀ m ∈ c.messages, Traced codec identity s x m
  heard : ∀ m ∈ c.messages, m.mine = false → c.seen.contains m.id = true
  seen : ∀ (k : String) (hash : Bytes 32), c.seen[k]? = some hash →
    ∃ q, Heard codec identity s x k q ∧ Recorded c q.id q.content
  files : ∀ (k : String) (content : Content), c.files[k]? = some content →
    ∃ q, Heard codec identity s x k q ∧ q.content = content ∧ content.shown = none
  delivered : ∀ m ∈ c.messages, m.mine = true → m.delivery = some .delivered →
    ∃ c', (s.book x.other).contacts[sideKey codec identity x]? = some c' ∧
      c'.seen.contains m.id = true

end Definitions

variable {codec : Codec} {identity : Side → List UInt8} {s t : Exchange} {x : Side}
  {c c' : Contact}

/-! ### Growth -/

theorem contains_of_keeps (h : ∀ (k : String) (hash : Bytes 32), c.seen[k]? = some hash →
    c'.seen[k]? = some hash) {k : String} (hk : c.seen.contains k = true) :
    c'.seen.contains k = true := by
  obtain ⟨hash, hget⟩ := StringMap.get_of_contains hk
  exact StringMap.contains_of_get (h k hash hget)

theorem Faithful.mono (h : Faithful codec identity s x c) (hgrows : Grows s t) :
    Faithful codec identity t x c where
  nodup := h.nodup
  heard := h.heard
  traced m hm := by
    obtain ⟨q, hq, hrest⟩ := h.traced m hm
    exact ⟨q, hgrows.queued q hq, hrest⟩
  seen k hash hk := by
    obtain ⟨q, hq, hrec⟩ := h.seen k hash hk
    exact ⟨q, ⟨hgrows.queued q hq.1, hq.2⟩, hrec⟩
  files k content hk := by
    obtain ⟨q, hq, hcontent⟩ := h.files k content hk
    exact ⟨q, ⟨hgrows.queued q hq.1, hq.2⟩, hcontent⟩
  delivered m hm hmine hd := by
    obtain ⟨d, hd, hseen⟩ := h.delivered m hm hmine hd
    obtain ⟨d', hd', hkeep⟩ := hgrows.seen _ _ d hd
    exact ⟨d', hd', contains_of_keeps hkeep hseen⟩

/-! ### Edits of a conversation -/

theorem seen_record (c : Contact) (contact : String) (id : Bytes 32) (content : Content)
    (hash : Bytes 32) (receivedAt : ℕ) :
    (c.record contact id content hash receivedAt).seen =
      c.seen.insert (hex id.toList) hash := by
  unfold Contact.record
  dsimp only
  split <;> rfl

theorem seen_record_self (c : Contact) (contact : String) (id : Bytes 32) (content : Content)
    (hash : Bytes 32) (receivedAt : ℕ) :
    (c.record contact id content hash receivedAt).seen[hex id.toList]? = some hash := by
  rw [seen_record]
  exact StringMap.get_insert_self _ _ _

theorem seen_record_of_get (contact : String) {id : Bytes 32} (content : Content)
    (hash : Bytes 32) (receivedAt : ℕ) {k : String} {old : Bytes 32}
    (hnone : c.seen[hex id.toList]? = none) (hk : c.seen[k]? = some old) :
    (c.record contact id content hash receivedAt).seen[k]? = some old := by
  rw [seen_record, StringMap.get_insert_of_ne]
  · exact hk
  · intro heq
    rw [← heq, hnone] at hk
    cases hk

theorem Traced.same {m m' : Message} (h : Traced codec identity s x m)
    (hsame : SameEntry m m') : Traced codec identity s x m' := by
  obtain ⟨q, hq, hsource, hcontact, hid, hshows⟩ := h
  have horigin : origin x m' = origin x m := by rw [origin, origin, hsame.mine]
  exact ⟨q, hq, horigin ▸ hsource, horigin ▸ hcontact, hsame.id.trans hid, hshows.same hsame⟩

namespace Faithful

theorem empty (hmessages : c.messages = []) (hseen : c.seen = ∅) (hfiles : c.files = ∅) :
    Faithful codec identity s x c where
  nodup := by rw [hmessages]; exact List.nodup_nil
  traced m hm := by rw [hmessages] at hm; cases hm
  heard m hm := by rw [hmessages] at hm; cases hm
  seen k hash hk := by simp [hseen] at hk
  files k content hk := by simp [hfiles] at hk
  delivered m hm := by rw [hmessages] at hm; cases hm

/-- Rewritten messages, as far as the delivered ones among them were confirmed. -/
theorem rewrites {f : Message → Message} (h : Faithful codec identity s x c)
    (hf : Rewrites f c c')
    (hdelivered : ∀ m ∈ c.messages, m.mine = true → (f m).delivery = some .delivered →
      ∃ d, (s.book x.other).contacts[sideKey codec identity x]? = some d ∧
        d.seen.contains m.id = true) :
    Faithful codec identity s x c' where
  nodup := by rw [hf.ids]; exact h.nodup
  traced m' hm' := by
    obtain ⟨m, hm, rfl⟩ := hf.mem hm'
    exact (h.traced m hm).same (hf.same m)
  heard m' hm' hmine := by
    obtain ⟨m, hm, rfl⟩ := hf.mem hm'
    rw [hf.seen, (hf.same m).id]
    exact h.heard m hm ((hf.same m).mine ▸ hmine)
  seen k hash hk := by
    rw [hf.seen] at hk
    obtain ⟨q, hq, hrec⟩ := h.seen k hash hk
    refine ⟨q, hq, ?_⟩
    obtain ⟨m, hm, hmine, hid, hshows⟩ | ⟨hnone, hfile⟩ := hrec
    · exact Or.inl ⟨f m, hf.mem_of hm, (hf.same m).mine.trans hmine, (hf.same m).id.trans hid,
        hshows.same (hf.same m)⟩
    · exact Or.inr ⟨hnone, by rw [hf.files]; exact hfile⟩
  files k content hk := h.files k content (hf.files ▸ hk)
  delivered m' hm' hmine hd := by
    obtain ⟨m, hm, rfl⟩ := hf.mem hm'
    rw [(hf.same m).id]
    exact hdelivered m hm ((hf.same m).mine ▸ hmine) hd

theorem fades (h : Faithful codec identity s x c) (hf : Fades c c') :
    Faithful codec identity s x c' := by
  obtain ⟨f, hf, hfd⟩ := hf
  exact h.rewrites hf fun m hm hmine hd => h.delivered m hm hmine (hfd m hd)

/-- The own message of an identifier that the other side has is confirmed. -/
theorem promoted {id : String} (h : Faithful codec identity s x c)
    (hhas : ∃ d, (s.book x.other).contacts[sideKey codec identity x]? = some d ∧
      d.seen.contains id = true) :
    Faithful codec identity s x { c with messages := c.messages.map (promote id) } := by
  have hf : Rewrites (promote id) c { c with messages := c.messages.map (promote id) } :=
    ⟨rfl, rfl, rfl, SameEntry.promote id⟩
  apply h.rewrites hf
  intro m hm hmine hd
  by_cases hid : m.id = id
  · rw [hid]
    exact hhas
  · have hsame : promote id m = m := by
      unfold promote
      rw [if_neg]
      simp [hid]
    exact h.delivered m hm hmine (hsame ▸ hd)

/-- An own message under a new identifier. -/
theorem push {m : Message} (h : Faithful codec identity s x c) (hmine : m.mine = true)
    (hnew : m.id ∉ c.messages.map (·.id)) (htraced : Traced codec identity s x m)
    (hd : m.delivery ≠ some .delivered) : Faithful codec identity s x (c.push (some m)) where
  nodup := by
    rw [Contact.push, Option.toList_some, List.map_append, List.map_singleton]
    exact List.Nodup.append h.nodup (List.nodup_singleton _)
      (List.disjoint_singleton.mpr hnew)
  traced m' hm' := by
    obtain hold | hlast := List.mem_append.mp hm'
    · exact h.traced m' hold
    · rw [List.mem_singleton.mp hlast]
      exact htraced
  heard m' hm' hmine' := by
    obtain hold | hlast := List.mem_append.mp hm'
    · exact h.heard m' hold hmine'
    · rw [List.mem_singleton.mp hlast, hmine] at hmine'
      cases hmine'
  seen k hash hk := by
    obtain ⟨q, hq, hrec⟩ := h.seen k hash hk
    refine ⟨q, hq, ?_⟩
    obtain ⟨m', hm', hrest⟩ | hfile := hrec
    · exact Or.inl ⟨m', List.mem_append_left _ hm', hrest⟩
    · exact Or.inr hfile
  files := h.files
  delivered m' hm' hmine' hd' := by
    obtain hold | hlast := List.mem_append.mp hm'
    · exact h.delivered m' hold hmine' hd'
    · rw [List.mem_singleton.mp hlast] at hd'
      exact absurd hd' hd

/-- A message that was not seen before is recorded. -/
theorem record {q : Queued} (h : Faithful codec identity s x c)
    (hq : Heard codec identity s x (hex q.id.toList) q)
    (hunseen : c.seen[hex q.id.toList]? = none)
    (hnew : ∀ m ∈ c.messages, m.mine = true → m.id ≠ hex q.id.toList)
    (hash : Bytes 32) (receivedAt : ℕ) :
    Faithful codec identity s x
      (c.record (sideKey codec identity x.other) q.id q.content hash receivedAt) := by
  have hheard : ∀ m ∈ c.messages, m.mine = false →
      (c.seen.insert (hex q.id.toList) hash).contains m.id = true := by
    intro m hm hmine
    rw [Std.ExtTreeMap.contains_insert, h.heard m hm hmine, Bool.or_true]
  unfold Contact.record
  dsimp only
  split
  case h_1 m hm =>
    obtain ⟨hid, hmine, hshows, -⟩ := message_eq_some hm
    constructor
    · rw [List.map_append, List.map_singleton]
      refine List.Nodup.append h.nodup (List.nodup_singleton _) (List.disjoint_singleton.mpr ?_)
      intro hmem
      obtain ⟨m', hm', heq⟩ := List.mem_map.mp hmem
      rw [hid] at heq
      cases hmine' : m'.mine with
      | true => exact hnew m' hm' hmine' heq
      | false =>
          have hseen := h.heard m' hm' hmine'
          rw [heq, StringMap.contains_eq_isSome, hunseen] at hseen
          cases hseen
    · intro m' hm'
      obtain hold | hlast := List.mem_append.mp hm'
      · exact h.traced m' hold
      · rw [List.mem_singleton.mp hlast]
        have horigin : origin x m = x.other := by rw [origin, hmine]; rfl
        exact ⟨q, hq.1, by rw [horigin, hq.2.1], by rw [horigin, x.other_other, hq.2.2.1],
          hid, hshows⟩
    · intro m' hm' hmine'
      obtain hold | hlast := List.mem_append.mp hm'
      · exact hheard m' hold hmine'
      · rw [List.mem_singleton.mp hlast, hid]
        exact StringMap.contains_of_get (StringMap.get_insert_self _ _ _)
    · intro k old hk
      rw [StringMap.get_insert] at hk
      split at hk
      case isTrue heq =>
        exact ⟨q, heq ▸ hq, Or.inl ⟨m, List.mem_append_right _ (List.mem_singleton.mpr rfl),
          hmine, hid, hshows⟩⟩
      case isFalse =>
        obtain ⟨r, hr, hrec⟩ := h.seen k old hk
        refine ⟨r, hr, ?_⟩
        obtain ⟨m', hm', hrest⟩ | hfile := hrec
        · exact Or.inl ⟨m', List.mem_append_left _ hm', hrest⟩
        · exact Or.inr hfile
    · exact h.files
    · intro m' hm' hmine' hd
      obtain hold | hlast := List.mem_append.mp hm'
      · exact h.delivered m' hold hmine' hd
      · rw [List.mem_singleton.mp hlast, hmine] at hmine'
        cases hmine'
  case h_2 hnone =>
    have hshown := message_eq_none hnone
    constructor
    · exact h.nodup
    · exact h.traced
    · exact hheard
    · intro k old hk
      rw [StringMap.get_insert] at hk
      split at hk
      case isTrue heq =>
        exact ⟨q, heq ▸ hq, Or.inr ⟨hshown, StringMap.get_insert_self _ _ _⟩⟩
      case isFalse hne =>
        obtain ⟨r, hr, hrec⟩ := h.seen k old hk
        refine ⟨r, hr, ?_⟩
        obtain hmessage | ⟨hr', hfile⟩ := hrec
        · exact Or.inl hmessage
        · refine Or.inr ⟨hr', ?_⟩
          rw [StringMap.get_insert_of_ne _ _ (fun heq => hne (heq.trans hr.2.2.2.symm))]
          exact hfile
    · intro k content hk
      rw [StringMap.get_insert] at hk
      split at hk
      case isTrue heq =>
        cases hk
        exact ⟨q, heq ▸ hq, rfl, hshown⟩
      case isFalse => exact h.files k content hk
    · exact h.delivered

end Faithful

end Contacts

end GChat
