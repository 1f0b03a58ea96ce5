import GChat.Badges.Jobs

/-!
# The badges are exact

While the history does not change, a scan asks for each of its pages at most once. It ends with a
badge exactly if one of the newest incoming messages, as many as are unread, calls attention. A
reply sets no badge if the latest snapshot does not have the stamp it was requested for.
-/

namespace GChat

namespace Badges

open Foundation

section Model

variable {Transport : Type} (lowercase : List ℕ → List ℕ)

def incoming (l : List Message) : List Message := l.filter fun m => !m.mine

/-- Whether one of the unread messages of a conversation calls attention. -/
def attention (history : List Message) (c : Conversation) : Bool :=
  ((incoming history).rtake c.unread).any fun m => callsAttention lowercase m c

/-- What a scan has read while `serve` names the pages of its history. -/
structure Reading (serve : Option String → Page Message) (pages : ℕ) (history : List Message)
    (scan : Scan Transport) (n : ℕ) (rest read : List Message) : Prop where
  chained : Chained serve scan.before n rest
  history_eq : history = rest ++ read
  asked : scan.cursors.length + n = pages
  remaining : scan.remaining + (incoming read).length = scan.job.conversation.unread
  unread : 0 < scan.remaining
  quiet : ((incoming read).any fun m => callsAttention lowercase m scan.job.conversation) = false
  passed : ∀ c ∈ scan.cursors, ∃ m older, Chained serve (some c) m older ∧ n ≤ m

/-- A reply to the scan still counts: since it was started nothing was cleared, and the latest
snapshot has the stamp that the pages are requested for. -/
def Counts (t : Tracked Transport) (scan : Scan Transport) : Prop :=
  scan.generation = t.highlights.generation ∧
    (t.latest.bind fun snapshot => stampIn snapshot scan.id) = some scan.job.stamp

/-- The histories that are read do not change: every page is the one that `serve` names. -/
def Served (serve : Transport → String → Option String → Page Message) (t : Tracked Transport)
    (e : Event Transport) : Prop :=
  ∀ scan page, t.highlights.scan = some scan → e = .reply (.history page) →
    page = serve scan.job.transport scan.id scan.before

/-- The reply to the page that is waited for. -/
def answer (serve : Transport → String → Option String → Page Message) (t : Tracked Transport) :
    Tracked Transport :=
  match t.highlights.scan with
  | none => t
  | some scan =>
      follow lowercase t (.reply (.history (serve scan.job.transport scan.id scan.before)))

def Event.clears : Event Transport → Bool
  | .update snapshot _ => snapshot.instance'.locked
  | .clear => true
  | .reply _ => false

def Event.isReply : Event Transport → Bool
  | .reply _ => true
  | _ => false

end Model

variable {Transport : Type} {lowercase : List ℕ → List ℕ} {s : Highlights Transport}
  {t : Tracked Transport} {scan : Scan Transport} {id : String}
  {serve : Option String → Page Message} {pages n : ℕ} {history rest read : List Message}

theorem incoming_append (front back : List Message) :
    incoming (front ++ back) = incoming front ++ incoming back := List.filter_append front back

namespace Reading

/-- What is left to find is among the messages that are not read yet. -/
theorem attention_eq (h : Reading lowercase serve pages history scan n rest read) :
    attention lowercase history scan.job.conversation =
      ((incoming rest).rtake scan.remaining).any fun m =>
        callsAttention lowercase m scan.job.conversation := by
  have hle : (incoming read).length ≤ scan.job.conversation.unread :=
    Nat.le.intro ((Nat.add_comm _ _).trans h.remaining)
  have hleft : scan.job.conversation.unread - (incoming read).length = scan.remaining :=
    Nat.sub_eq_of_eq_add h.remaining.symm
  rw [attention, h.history_eq, incoming_append, rtake_append hle, hleft, List.any_append, h.quiet,
    Bool.or_false]

theorem of_fresh (hfresh : Highlights.Fresh scan) (hunread : 0 < scan.job.conversation.unread)
    (h : Chained serve none pages history) :
    Reading lowercase serve pages history scan pages history [] where
  chained := by rwa [hfresh.2.1]
  history_eq := (List.append_nil history).symm
  asked := by rw [hfresh.1, List.length_nil, Nat.zero_add]
  remaining := hfresh.2.2
  unread := hfresh.2.2.symm ▸ hunread
  quiet := rfl
  passed := by
    rw [hfresh.1]
    exact nofun

/-- The cursor of the next page is new. -/
theorem not_mem (h : Reading lowercase serve pages history scan n rest read) {before : String}
    {m : ℕ} {older : List Message} (hm : m < n) (hrest : Chained serve (some before) m older) :
    before ∉ scan.cursors := by
  intro hmem
  obtain ⟨k, newer, hk, hle⟩ := h.passed before hmem
  have hsame := hrest.length_unique hk
  omega

end Reading

namespace Highlights

/-! ### One page -/

section Read

variable {page : Page Message} {before : String}

theorem read_found (h : ((incoming page.entries).rtake scan.remaining).any
    (callsAttention lowercase · scan.job.conversation) = true) :
    s.read lowercase scan page = s.settle scan true := if_pos h

theorem read_last (h : ((incoming page.entries).rtake scan.remaining).any
    (callsAttention lowercase · scan.job.conversation) = false)
    (hend : page.before = none ∨ page.before = some "") :
    s.read lowercase scan page = s.settle scan false := by
  refine (if_neg (Bool.not_eq_true _ ▸ h)).trans ?_
  rcases hend with hend | hend
  · rw [hend]
  · rw [hend]
    exact if_pos (Or.inl rfl)

theorem read_before (h : ((incoming page.entries).rtake scan.remaining).any
    (callsAttention lowercase · scan.job.conversation) = false)
    (hbefore : page.before = some before) (hne : before ≠ "") (hnew : before ∉ scan.cursors)
    (hcurrent : s.current scan = true) : s.read lowercase scan page =
      if (incoming page.entries).length < scan.remaining then
        { s with scan := some { scan with
            remaining := scan.remaining - (incoming page.entries).length
            before := some before
            cursors := before :: scan.cursors } }
      else s.settle scan false := by
  refine (if_neg (Bool.not_eq_true _ ▸ h)).trans ?_
  rw [hbefore]
  refine (if_neg (not_or.mpr ⟨hne, hnew⟩)).trans ?_
  have hread : (((page.entries.filter fun m => !m.mine).rtake scan.remaining).length) =
      min scan.remaining (incoming page.entries).length := length_rtake _ _
  dsimp only
  rw [hread]
  by_cases hlt : (incoming page.entries).length < scan.remaining
  · rw [Nat.min_eq_right hlt.le, if_pos hlt]
    split
    · rfl
    next hstop => exact absurd ⟨Nat.sub_pos_of_lt hlt, hcurrent⟩ hstop
  · rw [Nat.min_eq_left (Nat.le_of_not_lt hlt), Nat.sub_self, if_neg hlt]
    exact if_neg fun hpos => Nat.lt_irrefl 0 hpos.1

end Read

/-- One page of a scan: it ends as it should, or the next page is asked for. -/
theorem read_spec (h : Reading lowercase serve pages history scan n rest read)
    (hcurrent : s.current scan = true) :
    s.read lowercase scan (serve scan.before) =
        s.settle scan (attention lowercase history scan.job.conversation) ∨
      ∃ (following : Scan Transport) (m : ℕ) (older newer : List Message),
        s.read lowercase scan (serve scan.before) = { s with scan := some following } ∧
          following.id = scan.id ∧ following.job = scan.job ∧
          following.generation = scan.generation ∧
          following.cursors.length = scan.cursors.length + 1 ∧
          Reading lowercase serve pages history following m older newer := by
  have hattention := h.attention_eq
  cases hfound : ((incoming (serve scan.before).entries).rtake scan.remaining).any
      (callsAttention lowercase · scan.job.conversation) with
  | true =>
      left
      rw [read_found hfound, hattention]
      cases h.chained with
      | last _ => rw [hfound]
      | more _ _ _ => rw [incoming_append, any_rtake_append hfound]
  | false =>
      cases hchained : h.chained with
      | last hend =>
          left
          rw [read_last hfound hend, hattention, hfound]
      | @more _ before m older hbefore hne hrest =>
          have hnew := h.not_mem (Nat.lt_succ_self m) hrest
          rw [read_before hfound hbefore hne hnew hcurrent]
          split
          next hlt =>
            have hpage : (incoming (serve scan.before).entries).rtake scan.remaining =
                incoming (serve scan.before).entries := rtake_of_length_le hlt.le
            rw [hpage] at hfound
            refine Or.inr ⟨_, m, older, (serve scan.before).entries ++ read, rfl, rfl, rfl, rfl,
              rfl, ?_⟩
            constructor
            · exact hrest
            · rw [h.history_eq, List.append_assoc]
            · rw [← h.asked, List.length_cons]
              omega
            · have hremaining := h.remaining
              rw [incoming_append, List.length_append]
              dsimp only
              omega
            · exact Nat.sub_pos_of_lt hlt
            · rw [incoming_append, List.any_append, hfound, h.quiet, Bool.or_false]
            · intro c hc
              rcases List.mem_cons.mp hc with rfl | hc
              · exact ⟨m, older, hrest, Nat.le_refl m⟩
              · obtain ⟨k, newer, hk, hle⟩ := h.passed c hc
                exact ⟨k, newer, hk, Nat.le_of_succ_le hle⟩
          next hge =>
            left
            have hle := Nat.le_of_not_lt hge
            rw [hattention, incoming_append, rtake_append_of_le hle, hfound]

theorem receive_history (hscan : s.scan = some scan) (hcurrent : s.current scan = true)
    (page : Page Message) : s.receive lowercase (.history page) =
      (Highlights.read lowercase { s with scan := none } scan page).drain := by
  rw [receive, hscan]
  exact congrArg drain (if_pos hcurrent)

/-- A reply to a scan: it ends and the next job starts, or it goes on with the next page. -/
theorem receive_spec (hwell : WellFormed s) (hscan : s.scan = some scan)
    (h : Reading lowercase serve pages history scan n rest read)
    (hcurrent : s.current scan = true) :
    ((s.receive lowercase (.history (serve scan.before))).badges = Function.update s.badges scan.id
        (attention lowercase history scan.job.conversation) ∧
      ∀ following, (s.receive lowercase (.history (serve scan.before))).scan = some following →
        Fresh following) ∨
    ∃ (following : Scan Transport) (m : ℕ) (older newer : List Message),
      s.receive lowercase (.history (serve scan.before)) = { s with scan := some following } ∧
        following.id = scan.id ∧ following.job = scan.job ∧
        following.generation = scan.generation ∧
        following.cursors.length = scan.cursors.length + 1 ∧
        Reading lowercase serve pages history following m older newer := by
  have hidle := wellFormed_idle hwell
  have hcurrent' : current { s with scan := none } scan = true := hcurrent
  rw [receive_history hscan hcurrent]
  rcases read_spec (s := { s with scan := none }) h hcurrent' with hend | hnext
  · left
    rw [hend]
    obtain ⟨hbadges, -, hfresh⟩ := drain_spec (wellFormed_settle hidle scan
      (attention lowercase history scan.job.conversation))
    refine ⟨hbadges.trans (badges_settle hcurrent' _), fun following hfollowing => ?_⟩
    rcases hfresh following hfollowing with hold | hold
    · rw [scan_settle] at hold
      cases hold
    · exact hold
  · right
    obtain ⟨following, m, older, newer, hread, hrest⟩ := hnext
    refine ⟨following, m, older, newer, ?_, hrest⟩
    rw [hread]
    rfl

theorem other_ne (page : Page Message) : Reply.other ≠ .history page := by
  intro h
  cases h

theorem failed_ne (page : Page Message) : Reply.failed ≠ .history page := by
  intro h
  cases h

/-- A reply that does not count leaves the badges alone. -/
theorem receive_of_not_current (hwell : WellFormed s) (hscan : s.scan = some scan)
    (reply : Reply) (h : s.current scan = false ∨ ∀ page, reply ≠ .history page) :
    (s.receive lowercase reply).badges = s.badges ∧
      ∀ following, (s.receive lowercase reply).scan = some following → Fresh following := by
  have hidle := wellFormed_idle hwell
  have hreceive : s.receive lowercase reply = drain { s with scan := none } := by
    rw [receive, hscan]
    cases reply with
    | history page =>
        rcases h with h | h
        · exact congrArg drain (if_neg (Bool.not_eq_true _ ▸ h))
        · exact absurd rfl (h page)
    | other => rfl
    | failed => rfl
  rw [hreceive]
  obtain ⟨hbadges, -, hfresh⟩ := drain_spec hidle
  refine ⟨hbadges, fun following hfollowing => (hfresh following hfollowing).resolve_left ?_⟩
  intro hold
  cases hold

/-- A reply sets no badge but the one of its scan. -/
theorem badges_receive (hwell : WellFormed s) (hscan : s.scan = some scan) (reply : Reply)
    (hne : id ≠ scan.id) : (s.receive lowercase reply).badges id = s.badges id := by
  have hidle := wellFormed_idle hwell
  have hsettle : ∀ found, (settle { s with scan := none } scan found).badges id = s.badges id := by
    intro found
    rw [settle]
    split
    · exact Function.update_of_ne hne _ _
    · rfl
  cases hcurrent : s.current scan with
  | false => rw [(receive_of_not_current hwell hscan reply (Or.inl hcurrent)).1]
  | true =>
      cases reply with
      | other => rw [(receive_of_not_current hwell hscan .other (Or.inr other_ne)).1]
      | failed => rw [(receive_of_not_current hwell hscan .failed (Or.inr failed_ne)).1]
      | history page =>
          have hread : WellFormed (Highlights.read lowercase { s with scan := none } scan page) :=
            wellFormed_read hidle (hwell.scanning scan hscan) (hwell.started scan hscan) page
          rw [receive_history hscan hcurrent, (drain_spec hread).1, Highlights.read]
          dsimp only
          split
          · exact hsettle true
          · split
            · exact hsettle false
            · split
              · exact hsettle false
              · split
                · rfl
                · exact hsettle false

/-- A scan that goes on stays with its conversation. -/
theorem job_receive (hwell : WellFormed s) (hscan : s.scan = some scan) (reply : Reply)
    {following : Scan Transport} (h : (s.receive lowercase reply).scan = some following) :
    Fresh following ∨ following.id = scan.id ∧ following.job = scan.job := by
  have hidle := wellFormed_idle hwell
  cases hcurrent : s.current scan with
  | false =>
      exact Or.inl ((receive_of_not_current hwell hscan reply (Or.inl hcurrent)).2 following h)
  | true =>
      cases reply with
      | other =>
          exact Or.inl ((receive_of_not_current hwell hscan .other (Or.inr other_ne)).2 following h)
      | failed =>
          exact Or.inl
            ((receive_of_not_current hwell hscan .failed (Or.inr failed_ne)).2 following h)
      | history page =>
          rw [receive_history hscan hcurrent] at h
          have hread : WellFormed (Highlights.read lowercase { s with scan := none } scan page) :=
            wellFormed_read hidle (hwell.scanning scan hscan) (hwell.started scan hscan) page
          rcases (drain_spec hread).2.2 following h with h | h
          · right
            rw [Highlights.read] at h
            dsimp only at h
            split at h
            · rw [scan_settle] at h
              cases h
            · split at h
              · rw [scan_settle] at h
                cases h
              · split at h
                · rw [scan_settle] at h
                  cases h
                · split at h
                  · cases h
                    exact ⟨rfl, rfl⟩
                  · rw [scan_settle] at h
                    cases h
          · exact Or.inl h

end Highlights

end Badges

end GChat
