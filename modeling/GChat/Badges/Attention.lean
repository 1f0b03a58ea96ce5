import GChat.Badges.Exact

/-!
# The badges over a whole run

Whatever snapshots, clears and replies come in, a reply sets the badge of its own conversation, and
only if it counts. While the pages of a scan are those of one history, the scan ends with the badge
that this history deserves.
-/

namespace GChat

namespace Badges

open Foundation

variable {Transport : Type} {lowercase : List ℕ → List ℕ} {t u : Tracked Transport}
  {scan : Scan Transport}
  {serve : Transport → String → Option String → Page Message}

theorem current_iff (h : (tracker lowercase).Reachable t) (scan : Scan Transport) :
    t.highlights.current scan = true ↔ Counts t scan := by
  rw [Highlights.current, Bool.and_eq_true_iff, beq_iff_eq, beq_iff_eq, stamps_of_reachable h]
  rfl

/-! ### Requests that wait -/

theorem scan_of_not_reply {e : Event Transport} (he : e.isReply = false)
    (hscan : t.highlights.scan = some scan) :
    (follow lowercase t e).highlights.scan = some scan := by
  cases e with
  | clear => exact hscan
  | update snapshot transport => exact Highlights.scan_update_of_some hscan snapshot transport
  | reply reply => cases he

theorem generation_of_not_reply {e : Event Transport} (he : e.isReply = false) :
    (follow lowercase t e).highlights.generation =
      t.highlights.generation + if e.clears then 1 else 0 := by
  cases e with
  | clear => rfl
  | update snapshot transport => exact Highlights.generation_update t.highlights snapshot transport
  | reply reply => cases he

/-- What happens while a request waits. -/
theorem foldl_waiting {events : List (Event Transport)}
    (hwaiting : ∀ e ∈ events, e.isReply = false) (hscan : t.highlights.scan = some scan) :
    (events.foldl (follow lowercase) t).highlights.scan = some scan ∧
      (events.foldl (follow lowercase) t).highlights.generation =
        t.highlights.generation + events.countP Event.clears := by
  induction events generalizing t with
  | nil => exact ⟨hscan, rfl⟩
  | cons e events ih =>
      have he := hwaiting e List.mem_cons_self
      have hrest : ∀ e' ∈ events, e'.isReply = false := fun e' he' =>
        hwaiting e' (List.mem_cons_of_mem e he')
      obtain ⟨hlast, hgeneration⟩ :=
        ih hrest (scan_of_not_reply he hscan)
      refine ⟨hlast, hgeneration.trans ?_⟩
      rw [generation_of_not_reply he, List.countP_cons]
      omega

/-- Only a reply that counts sets a badge, and only the one of its conversation. -/
theorem badge_set (h : (tracker lowercase).Reachable t) {e : Event Transport} {id : String}
    (hold : t.highlights.badges id = false)
    (hnew : (follow lowercase t e).highlights.badges id = true) :
    ∃ scan page, e = .reply (.history page) ∧ t.highlights.scan = some scan ∧ scan.id = id ∧
      Counts t scan := by
  have hwell := wellFormed_of_reachable h
  cases e with
  | clear => cases hnew
  | update snapshot transport =>
      have hset := Highlights.badges_update hwell snapshot transport hnew
      rw [hold] at hset
      cases hset
  | reply reply =>
      change (t.highlights.receive lowercase reply).badges id = true at hnew
      cases hscan : t.highlights.scan with
      | none =>
          rw [Highlights.receive, hscan] at hnew
          rw [hold] at hnew
          cases hnew
      | some scan =>
          have hid : scan.id = id := by
            by_contra hne
            rw [Highlights.badges_receive hwell hscan reply (Ne.symm hne), hold] at hnew
            cases hnew
          have hcounted : ¬ (t.highlights.current scan = false ∨
              ∀ page, reply ≠ .history page) := by
            intro hstale
            rw [(Highlights.receive_of_not_current hwell hscan reply hstale).1, hold] at hnew
            cases hnew
          rw [not_or, Bool.not_eq_false, not_forall] at hcounted
          obtain ⟨hcurrent, page, hpage⟩ := hcounted
          rw [not_not] at hpage
          exact ⟨scan, page, congrArg Event.reply hpage, rfl, hid, (current_iff h scan).mp hcurrent⟩

/-! ### Scans of one history -/

/-- The scan that runs has read the newest messages of its history. -/
def Kept (lowercase : List ℕ → List ℕ) (serve : Transport → String → Option String → Page Message)
    (t : Tracked Transport) : Prop :=
  ∀ scan pages history, t.highlights.scan = some scan →
    Chained (serve scan.job.transport scan.id) none pages history →
      ∃ n rest read, Reading lowercase (serve scan.job.transport scan.id) pages history scan
        n rest read

theorem kept_of_fresh (hwell : WellFormed t.highlights)
    (h : ∀ scan, t.highlights.scan = some scan → Highlights.Fresh scan) :
    Kept lowercase serve t := by
  intro scan pages history hscan hchained
  exact ⟨pages, history, [],
    Reading.of_fresh (h scan hscan) (hwell.scanning scan hscan).2.1 hchained⟩

theorem kept_step (h : (tracker lowercase).Reachable t) (hkept : Kept lowercase serve t)
    {e : Event Transport} (he : Served serve t e) :
    Kept lowercase serve (follow lowercase t e) := by
  have hwell := wellFormed_of_reachable h
  have hnext := wellFormed_of_reachable (h.step (i := e) rfl)
  intro following pages history hfollowing hchained
  have hfresh : Highlights.Fresh following → ∃ n rest read,
      Reading lowercase (serve following.job.transport following.id) pages history following
        n rest read := fun hfresh =>
    ⟨pages, history, [],
      Reading.of_fresh hfresh (hnext.scanning following hfollowing).2.1 hchained⟩
  cases e with
  | clear => exact hkept following pages history hfollowing hchained
  | update snapshot transport =>
      rcases Highlights.scan_update hwell snapshot transport hfollowing with hsame | hnew
      · exact hkept following pages history hsame hchained
      · exact hfresh hnew
  | reply reply =>
      change (t.highlights.receive lowercase reply).scan = some following at hfollowing
      cases hscan : t.highlights.scan with
      | none =>
          rw [Highlights.receive, hscan] at hfollowing
          rw [hscan] at hfollowing
          cases hfollowing
      | some scan =>
          rcases Highlights.job_receive hwell hscan reply hfollowing with hnew | ⟨hid, hjob⟩
          · exact hfresh hnew
          · rw [hid, hjob] at hchained ⊢
            obtain ⟨n, rest, read, hreading⟩ := hkept scan pages history hscan hchained
            by_cases hcounted : t.highlights.current scan = false ∨ ∀ page, reply ≠ .history page
            · have hnew := (Highlights.receive_of_not_current hwell hscan reply hcounted).2
                following hfollowing
              rw [← hid, ← hjob]
              exact hfresh hnew
            · rw [not_or, Bool.not_eq_false, not_forall] at hcounted
              obtain ⟨hcurrent, page, hpage⟩ := hcounted
              rw [not_not] at hpage
              rw [hpage, he scan page hscan (congrArg Event.reply hpage)] at hfollowing
              rcases Highlights.receive_spec hwell hscan hreading hcurrent with hend | hgoes
              · rw [← hid, ← hjob]
                exact hfresh (hend.2 following hfollowing)
              · obtain ⟨next, m, older, newer, hnext, -, -, -, -, hreads⟩ := hgoes
                rw [hnext] at hfollowing
                cases hfollowing
                exact ⟨m, older, newer, hreads⟩

/-- What the reply to a page does: it brings the scan to its end, or to the next page. -/
def Advances (t u : Tracked Transport) (scan : Scan Transport) (found : Bool) : Prop :=
  (u.highlights.badges = Function.update t.highlights.badges scan.id found ∧
      ∀ following, u.highlights.scan = some following → Highlights.Fresh following) ∨
    ∃ following, u.highlights = { t.highlights with scan := some following } ∧
      following.id = scan.id ∧ following.job = scan.job ∧
      following.generation = scan.generation ∧
      following.cursors.length = scan.cursors.length + 1

theorem answer_spec (h : (tracker lowercase).Reachable t) (hkept : Kept lowercase serve t)
    (hscan : t.highlights.scan = some scan) (hcurrent : t.highlights.current scan = true)
    {pages : ℕ} {history : List Message}
    (hchained : Chained (serve scan.job.transport scan.id) none pages history) :
    scan.cursors.length < pages ∧ Advances t (answer lowercase serve t) scan
      (attention lowercase history scan.job.conversation) := by
  obtain ⟨n, rest, read, hreading⟩ := hkept scan pages history hscan hchained
  have hanswer : (answer lowercase serve t).highlights = t.highlights.receive lowercase
      (.history (serve scan.job.transport scan.id scan.before)) := by
    rw [answer, hscan]
    rfl
  have hpos := hreading.chained.pos
  have hasked := hreading.asked
  refine ⟨by omega, ?_⟩
  rw [Advances, hanswer]
  rcases Highlights.receive_spec (wellFormed_of_reachable h) hscan hreading hcurrent with
    hend | ⟨following, m, older, newer, hnext, hid, hjob, hgeneration, hlength, -⟩
  · exact Or.inl hend
  · exact Or.inr ⟨following, hnext, hid, hjob, hgeneration, hlength⟩

theorem answer_eq (hscan : t.highlights.scan = some scan) : answer lowercase serve t =
    follow lowercase t (.reply (.history (serve scan.job.transport scan.id scan.before))) := by
  rw [answer, hscan]

/-- As many replies as there are pages bring a scan to its end. -/
theorem answers_end (h : (tracker lowercase).Reachable t) (hkept : Kept lowercase serve t)
    (hscan : t.highlights.scan = some scan) (hcurrent : t.highlights.current scan = true)
    {pages : ℕ} {history : List Message}
    (hchained : Chained (serve scan.job.transport scan.id) none pages history) :
    ∃ k ≤ pages - scan.cursors.length,
      ((answer lowercase serve)^[k] t).highlights.badges = Function.update t.highlights.badges
        scan.id (attention lowercase history scan.job.conversation) := by
  induction hleft : pages - scan.cursors.length generalizing t scan with
  | zero =>
      have hlt := (answer_spec h hkept hscan hcurrent hchained).1
      omega
  | succ left ih =>
      rcases (answer_spec h hkept hscan hcurrent hchained).2 with
        hend | ⟨following, hnext, hid, hjob, hgeneration, hlength⟩
      · exact ⟨1, Nat.succ_le_succ (Nat.zero_le left), hend.1⟩
      · have hserved : Served serve t
            (.reply (.history (serve scan.job.transport scan.id scan.before))) := by
          intro other page hother hpage
          rw [hscan] at hother
          cases hother
          cases hpage
          rfl
        have hreach := h.step (i := Event.reply (.history
          (serve scan.job.transport scan.id scan.before))) rfl
        have hkept' := kept_step h hkept hserved
        rw [← answer_eq hscan] at hreach hkept'
        have hscan' : (answer lowercase serve t).highlights.scan = some following := by rw [hnext]
        have hcurrent' : (answer lowercase serve t).highlights.current following = true := by
          rw [hnext, Highlights.current, hid, hjob, hgeneration]
          exact hcurrent
        have hchained' : Chained (serve following.job.transport following.id) none pages
            history := by
          rw [hid, hjob]
          exact hchained
        obtain ⟨k, hk, hbadges⟩ := ih hreach hkept' hscan' hcurrent' hchained' (by omega)
        refine ⟨k + 1, Nat.succ_le_succ hk, ?_⟩
        rw [Function.iterate_succ_apply, hbadges, hnext, hid, hjob]

theorem kept_foldl (h : (tracker lowercase).Reachable t) (hkept : Kept lowercase serve t)
    {events : List (Event Transport)}
    (hserved : Machine.Meets (Served serve) (follow lowercase) t events) :
    Kept lowercase serve (events.foldl (follow lowercase) t) := by
  induction events generalizing t with
  | nil => exact hkept
  | cons e events ih => exact ih (h.step rfl) (kept_step h hkept hserved.1) hserved.2

/-- Only the reply to a request that is neither superseded nor cleared sets a badge, and the badges
are those of the histories: while the pages are those of one history, every reply brings the scan
to its end or to a page it has not asked for, and at the end the badge says whether one of the
newest incoming messages calls attention. -/
theorem badges_exact (h : (tracker lowercase).Reachable t) :
    (∀ e id, t.highlights.badges id = false →
      (follow lowercase t e).highlights.badges id = true →
        ∃ scan page, e = .reply (.history page) ∧ t.highlights.scan = some scan ∧ scan.id = id ∧
          Counts t scan) ∧
    (∀ scan (events : List (Event Transport)) reply id, t.highlights.scan = some scan →
      (∀ e ∈ events, e.isReply = false) → (∃ e ∈ events, e.clears = true) →
        (events.foldl (follow lowercase) t).highlights.badges id = false →
          (follow lowercase (events.foldl (follow lowercase) t) (.reply reply)).highlights.badges id
            = false) ∧
    ∀ (serve : Transport → String → Option String → Page Message) (events : List (Event Transport)),
      (∀ scan, t.highlights.scan = some scan → Highlights.Fresh scan) →
      Machine.Meets (Served serve) (follow lowercase) t events →
      ∀ u, u = events.foldl (follow lowercase) t →
      ∀ scan pages history, u.highlights.scan = some scan → Counts u scan →
      Chained (serve scan.job.transport scan.id) none pages history →
        Described scan.id scan.job ∧ scan.cursors.length < pages ∧
        Advances u (answer lowercase serve u) scan
          (attention lowercase history scan.job.conversation) ∧
        ∃ k ≤ pages, ((answer lowercase serve)^[k] u).highlights.badges = Function.update
          u.highlights.badges scan.id (attention lowercase history scan.job.conversation) := by
  refine ⟨fun e id hold hnew => badge_set h hold hnew, ?_, ?_⟩
  · intro scan events reply id hscan hwaiting hclears hold
    have hu := h.foldl events
    obtain ⟨hlast, hgeneration⟩ := foldl_waiting hwaiting hscan
    have hstarted := (wellFormed_of_reachable h).started scan hscan
    have hcount : 0 < events.countP Event.clears := List.countP_pos_iff.mpr hclears
    by_contra hset
    rw [Bool.not_eq_false] at hset
    obtain ⟨other, page, -, hother, -, hcounts⟩ := badge_set hu hold hset
    rw [hlast] at hother
    cases hother
    have hsame := hcounts.1
    omega
  · rintro serve events hfresh hserved u rfl scan pages history hscan hcounts hchained
    have hu := h.foldl events
    have hkept := kept_foldl h (kept_of_fresh (wellFormed_of_reachable h) hfresh) hserved
    have hcurrent := (current_iff hu scan).mpr hcounts
    obtain ⟨hlt, hadvances⟩ := answer_spec hu hkept hscan hcurrent hchained
    obtain ⟨k, hk, hbadges⟩ := answers_end hu hkept hscan hcurrent hchained
    exact ⟨(wellFormed_of_reachable hu).scanning scan hscan, hlt, hadvances, k,
      hk.trans (Nat.sub_le _ _), hbadges⟩

/-- A room with two unread messages. -/
def unreadRoom : Snapshot :=
  ⟨⟨"home", "boot", false⟩, [⟨"room", 2, some "m3", false, [⟨[97], true⟩]⟩]⟩

/-- Two messages of others, the older one highlighted, behind a page of only own messages. -/
def unreadPages : Unit → String → Option String → Page Message
  | _, _, none => ⟨[⟨true, false, []⟩], some "m3"⟩
  | _, _, some _ => ⟨[⟨false, true, []⟩, ⟨false, false, []⟩], none⟩

theorem unread_room_highlighted : ∃ k ≤ 2,
    ((answer id unreadPages)^[k]
      (follow id ⟨.empty, none⟩ (.update unreadRoom ()))).highlights.badges "room" = true := by
  have hstart : (tracker id : Machine (Tracked Unit) (Event Unit)).Reachable ⟨.empty, none⟩ := .start rfl
  have hnext := hstart.step (i := .update unreadRoom ()) rfl
  have hchained : Chained (unreadPages () "room") none 2
      [⟨false, true, []⟩, ⟨false, false, []⟩, ⟨true, false, []⟩] :=
    Chained.more rfl (by decide) (Chained.last (Or.inl rfl))
  have hfresh : ∀ scan, (follow id ⟨.empty, none⟩ (.update unreadRoom ())).highlights.scan =
      some scan → Highlights.Fresh scan := by
    intro scan hscan
    cases hscan
    exact ⟨rfl, rfl, rfl⟩
  obtain ⟨-, -, -, k, hk, hbadges⟩ := (badges_exact hnext).2.2 unreadPages []
    hfresh trivial _ rfl _ 2 _ rfl ⟨rfl, rfl⟩ hchained
  exact ⟨k, hk, (congrFun hbadges "room").trans rfl⟩

end Badges

end GChat
