import GChat.Terminal.Recognition

/-!
# What protects an invitation

A recognised draft has the limit of invitations. It is sent in no request for completions, no key
of the history replaces what was typed, and no draft of another conversation holds it.
-/

namespace GChat

namespace Terminal

open Foundation

variable {s : Surroundings} {v w : View} {text : String}

/-! ### Requests -/

theorem send_ne_complete (conversation other : Option String) (text written : String) :
    send conversation text ≠ .complete other written := by
  unfold send submit
  split
  · exact nofun
  · split
    · split
      · split
        · exact nofun
        · exact nofun
      · exact nofun
    · exact nofun

/-- Completions are asked for a draft that is not recognised. -/
theorem draft_of_complete {event : Event} {conversation : Option String} {written : String}
    (h : step s v event = some (w, some (.complete conversation written))) :
    written = v.draft.value ∧ isNetworkInvitation v.draft.value = false := by
  cases event with
  | key key =>
      cases key with
      | enter =>
          rw [step, press, pressEnter] at h
          split at h
          · obtain ⟨candidate, -, hcandidate⟩ := Option.map_eq_some_iff.mp h
            cases hcandidate
          · split at h
            · have hrequest := Option.some.inj (Prod.mk.inj (Option.some.inj h)).2
              split at hrequest
              · cases hrequest
              · exact absurd hrequest (send_ne_complete _ _ _ _)
            · cases h
      | char c =>
          rw [step, press] at h
          split at h
          · obtain ⟨draft, -, hdraft⟩ := Option.map_eq_some_iff.mp h
            cases hdraft
          · cases h
      | delete =>
          obtain ⟨draft, -, hdraft⟩ := Option.map_eq_some_iff.mp h
          cases hdraft
      | backspace =>
          obtain ⟨draft, -, hdraft⟩ := Option.map_eq_some_iff.mp h
          cases hdraft
      | tab =>
          rw [step, press, pressTab] at h
          split at h
          · cases h
          · split at h
            next hopen =>
              simp only [Bool.and_eq_true, Bool.not_eq_true'] at hopen
              cases h
              exact ⟨rfl, hopen.2⟩
            · cases h
      | up =>
          obtain ⟨view, -, hview⟩ := Option.map_eq_some_iff.mp h
          cases hview
      | esc =>
          rw [step, press] at h
          split at h
          · cases h
          · cases h
      | left => cases h
      | right => cases h
      | home => cases h
      | toEnd => cases h
      | backTab => cases h
      | down => cases h
  | paste text =>
      obtain ⟨view, -, hview⟩ := Option.map_eq_some_iff.mp h
      cases hview
  | completed other written' items =>
      rw [step] at h
      split at h
      · cases h
      · cases h
  | select target => cases h
  | resume target text => cases h
  | snapshot => cases h
  | lock => cases h

/-! ### The history -/

/-- The events that type. -/
def Event.types : Event → Bool
  | .key (.char _) | .key .delete | .key .backspace | .paste _ => true
  | _ => false

/-- The keys of the history, of the completions and of the cursor. -/
def Key.recalls : Key → Bool
  | .up | .down | .tab | .backTab | .left | .right | .home | .toEnd => true
  | _ => false

/-- A text that was just typed belongs to no recall. -/
theorem historyPosition_of_types {event : Event} {request : Option Request}
    (htypes : event.types = true) (h : step s v event = some (w, request))
    (hdraft : w.draft.value ≠ v.draft.value) : w.historyPosition = none := by
  cases event with
  | key key =>
      cases key with
      | char c =>
          rw [step, press] at h
          split at h
          · obtain ⟨draft, -, hview⟩ := Option.map_eq_some_iff.mp h
            cases hview
            rfl
          · cases h
            exact absurd rfl hdraft
      | delete =>
          obtain ⟨draft, -, hview⟩ := Option.map_eq_some_iff.mp h
          cases hview
          rfl
      | backspace =>
          obtain ⟨draft, -, hview⟩ := Option.map_eq_some_iff.mp h
          cases hview
          rfl
      | enter => cases htypes
      | left => cases htypes
      | right => cases htypes
      | home => cases htypes
      | toEnd => cases htypes
      | tab => cases htypes
      | backTab => cases htypes
      | up => cases htypes
      | down => cases htypes
      | esc => cases htypes
  | paste text =>
      obtain ⟨view, hpaste, hview⟩ := Option.map_eq_some_iff.mp h
      cases hview
      rw [paste] at hpaste
      generalize hlimit : (if v.draft.value = "" then inputLimit text
        else inputLimit v.draft.value) = limit at hpaste
      by_cases hroom : v.draft.value.utf8ByteSize + text.utf8ByteSize ≤ limit
      · rw [if_pos hroom] at hpaste
        obtain ⟨draft, -, rfl⟩ := Option.map_eq_some_iff.mp hpaste
        rfl
      · rw [if_neg hroom] at hpaste
        cases hpaste
        exact absurd rfl hdraft
  | select target => cases htypes
  | resume target text => cases htypes
  | completed conversation text items => cases htypes
  | snapshot => cases htypes
  | lock => cases htypes

/-- A recognised draft under no recall. -/
def Kept (text : String) (v : View) : Prop := v.draft.value = text ∧ v.historyPosition = none

theorem press_recalls (hinvitation : isNetworkInvitation text = true) (h : Kept text v) {key : Key}
    (hkey : key.recalls = true) : ∃ w request, press s v key = some (w, request) ∧ Kept text w := by
  obtain ⟨hdraft, hposition⟩ := h
  have hclosed : (!isNetworkInvitation v.draft.value) = false := by
    rw [hdraft, hinvitation]
    rfl
  cases key with
  | up =>
      refine ⟨v, none, ?_, hdraft, hposition⟩
      rw [press, pressUp, hclosed, Bool.and_false, if_neg Bool.false_ne_true]
      rfl
  | down =>
      refine ⟨v, none, ?_, hdraft, hposition⟩
      rw [press, pressDown, hposition]
      dsimp only
      rw [ite_self]
  | tab =>
      rw [press, pressTab, hclosed]
      split
      · exact ⟨_, _, rfl, hdraft, hposition⟩
      · rw [Bool.and_false, if_neg Bool.false_ne_true]
        exact ⟨_, _, rfl, hdraft, hposition⟩
  | backTab => exact ⟨_, _, rfl, hdraft, hposition⟩
  | left => exact ⟨_, _, rfl, hdraft, hposition⟩
  | right => exact ⟨_, _, rfl, hdraft, hposition⟩
  | home => exact ⟨_, _, rfl, hdraft, hposition⟩
  | toEnd => exact ⟨_, _, rfl, hdraft, hposition⟩
  | enter => cases hkey
  | char c => cases hkey
  | delete => cases hkey
  | backspace => cases hkey
  | esc => cases hkey

/-- The keys pressed one after another, each in surroundings of its own. -/
def pressAll (v : View) (keys : List (Surroundings × Key)) : Option View :=
  keys.foldlM (fun v entry => (press entry.1 v entry.2).map Prod.fst) v

/-- No keys of the history take a recognised draft away. -/
theorem pressAll_recalls (hinvitation : isNetworkInvitation text = true) (h : Kept text v)
    {keys : List (Surroundings × Key)} (hkeys : ∀ entry ∈ keys, entry.2.recalls = true) :
    ∃ w, pressAll v keys = some w ∧ w.draft.value = text := by
  induction keys generalizing v with
  | nil => exact ⟨v, rfl, h.1⟩
  | cons entry keys ih =>
      obtain ⟨u, request, hpress, hu⟩ :=
        press_recalls (s := entry.1) hinvitation h (hkeys entry List.mem_cons_self)
      obtain ⟨w, hrun, hw⟩ := ih hu fun e he => hkeys e (List.mem_cons_of_mem entry he)
      refine ⟨w, ?_, hw⟩
      rw [pressAll, List.foldlM_cons, hpress]
      exact hrun

/-! ### Stored drafts -/

/-- No stored draft is recognised. -/
def Wiped (v : View) : Prop :=
  ∀ id draft, v.drafts id = some draft → isNetworkInvitation draft.value = false

theorem wiped_select (h : Wiped v) (target : Option String) : Wiped (select s v target) := by
  rw [select]
  split
  · exact h
  · intro id draft hdraft
    dsimp only at hdraft
    split at hdraft
    · cases hdraft
    · by_cases hid : id = v.selected
      · rw [hid, Function.update_self] at hdraft
        cases hdraft
        split
        · exact (by decide : isNetworkInvitation "" = false)
        next hplain => exact Bool.eq_false_iff.mpr hplain
      · rw [Function.update_of_ne hid] at hdraft
        exact h id draft hdraft

theorem drafts_press {key : Key} {request : Option Request}
    (h : press s v key = some (w, request)) : w.drafts = v.drafts := by
  cases key with
  | enter =>
      rw [press, pressEnter] at h
      split at h
      · obtain ⟨candidate, -, hcandidate⟩ := Option.map_eq_some_iff.mp h
        cases hcandidate
        rfl
      · split at h
        · cases h
          rfl
        · cases h
          rfl
  | char c =>
      rw [press] at h
      split at h
      · obtain ⟨draft, -, hdraft⟩ := Option.map_eq_some_iff.mp h
        cases hdraft
        rfl
      · cases h
        rfl
  | delete =>
      obtain ⟨draft, -, hdraft⟩ := Option.map_eq_some_iff.mp h
      cases hdraft
      rfl
  | backspace =>
      obtain ⟨draft, -, hdraft⟩ := Option.map_eq_some_iff.mp h
      cases hdraft
      rfl
  | tab =>
      rw [press, pressTab] at h
      split at h
      · cases h
        rfl
      · split at h
        · cases h
          rfl
        · cases h
          rfl
  | up =>
      obtain ⟨view, hup, hview⟩ := Option.map_eq_some_iff.mp h
      cases hview
      rw [pressUp] at hup
      split at hup
      · split at hup
        · cases hup
          rfl
        · obtain ⟨entry, -, rfl⟩ := Option.map_eq_some_iff.mp hup
          rfl
      · cases hup
        rfl
  | down =>
      cases h
      rw [pressDown]
      split
      · rfl
      · split
        · rfl
        · split
          · rfl
          · rfl
  | esc =>
      rw [press] at h
      split at h
      · cases h
        rfl
      · cases h
        rfl
  | left =>
      cases h
      rfl
  | right =>
      cases h
      rfl
  | home =>
      cases h
      rfl
  | toEnd =>
      cases h
      rfl
  | backTab =>
      cases h
      rfl

theorem wiped_step (h : Wiped v) {event : Event} {request : Option Request}
    (hstep : step s v event = some (w, request)) : Wiped w := by
  cases event with
  | key key =>
      intro id draft hdraft
      rw [drafts_press hstep] at hdraft
      exact h id draft hdraft
  | paste text =>
      obtain ⟨view, hpaste, hview⟩ := Option.map_eq_some_iff.mp hstep
      cases hview
      rw [paste] at hpaste
      generalize (if v.draft.value = "" then inputLimit text
        else inputLimit v.draft.value) = limit at hpaste
      by_cases hroom : v.draft.value.utf8ByteSize + text.utf8ByteSize ≤ limit
      · rw [if_pos hroom] at hpaste
        obtain ⟨draft, -, rfl⟩ := Option.map_eq_some_iff.mp hpaste
        exact h
      · rw [if_neg hroom] at hpaste
        cases hpaste
        exact h
  | select target =>
      cases hstep
      exact wiped_select h target
  | resume target text =>
      cases hstep
      exact wiped_select h target
  | completed conversation text items =>
      rw [step] at hstep
      split at hstep
      · cases hstep
        exact h
      · cases hstep
        exact h
  | snapshot =>
      cases hstep
      intro id draft hdraft
      dsimp only at hdraft
      split at hdraft
      · exact h id draft hdraft
      · cases hdraft
  | lock =>
      cases hstep
      exact nofun

/-- In every view of a terminal, no stored draft is recognised. -/
theorem wiped_of_reachable {selected : Option String} (h : (views selected).Reachable v) :
    Wiped v := by
  refine h.invariant (I := Wiped) ?_ ?_
  · rintro v rfl
    exact nofun
  · rintro v label w - hv ⟨request, hstep⟩
    exact wiped_step hv hstep

/-! ### All protections -/

/-- What is done for a text while it is an invitation that is typed. -/
structure Protected (text : String) : Prop where
  recognised : isNetworkInvitation text = true
  limit : inputLimit text = maxNetworkInvitationBytes + "/network join ".utf8ByteSize
  /-- No request for completions holds it. -/
  completion : ∀ (s : Surroundings) (v w : View) (event : Event) (conversation : Option String),
    step s v event ≠ some (w, some (.complete conversation text))
  /-- Once typed, it is in the draft whatever keys of the history are pressed. -/
  kept : ∀ (s : Surroundings) (v w : View) (event : Event) (request : Option Request),
    event.types = true → step s v event = some (w, request) → v.draft.value ≠ text →
    w.draft.value = text → ∀ keys : List (Surroundings × Key),
    (∀ entry ∈ keys, entry.2.recalls = true) →
    ∃ u, pressAll w keys = some u ∧ u.draft.value = text
  /-- No run of the terminal stores it as the draft of a conversation. -/
  stored : ∀ (selected : Option String) (v : View), (views selected).Reachable v →
    ∀ id draft, v.drafts id = some draft → draft.value ≠ text

theorem protected_of_recognised (h : isNetworkInvitation text = true) : Protected text where
  recognised := h
  limit := if_pos h
  completion := by
    intro s v w event conversation hstep
    obtain ⟨rfl, hplain⟩ := draft_of_complete hstep
    rw [h] at hplain
    cases hplain
  kept := by
    intro s v w event request htypes hstep hbefore hafter keys hkeys
    have hposition := historyPosition_of_types htypes hstep (by rw [hafter]; exact hbefore.symm)
    exact pressAll_recalls h ⟨hafter, hposition⟩ hkeys
  stored := by
    rintro selected v hv id draft hdraft rfl
    have hplain := wiped_of_reachable hv id draft hdraft
    rw [h] at hplain
    cases hplain

/-- A text that is imported when it is sent is protected while it is typed, exactly if the white
space of a command to join is a plain space between its words and begins with one behind them. -/
theorem imported_texts_protected (text : String) :
    (Imports text → Protected text) ↔ Spaced text := by
  rw [← recognised_iff]
  constructor
  · intro h himports
    exact (h himports).recognised
  · intro h himports
    exact protected_of_recognised (h himports)

namespace Sample

/-- A command to join with two spaces between its words. -/
def invitation : String := "/network  join GCNI1-fixture"

def surroundings : Surroundings := ⟨false, false, false, false, [], fun _ => true⟩

def view : View := { View.initial none with draft := ⟨invitation, 28, false⟩ }

end Sample

/-- A second space lets an invitation out, although it is imported when it is sent. -/
theorem second_space_leaks :
    send none Sample.invitation = .importNetworkInvitation "GCNI1-fixture" ∧
    isNetworkInvitation Sample.invitation = false ∧
    inputLimit Sample.invitation = 12000 ∧
    (step Sample.surroundings Sample.view (.key .tab)).map Prod.snd =
      some (some (.complete none Sample.invitation)) ∧
    (step Sample.surroundings Sample.view (.select (some "channel"))).bind
      (fun result => (result.1.drafts none).map LineEdit.value) = some Sample.invitation := by
  decide

end Terminal

end GChat
