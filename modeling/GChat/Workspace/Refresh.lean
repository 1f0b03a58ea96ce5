import GChat.Foundation.Machine
import GChat.Workspace.Model

/-!
# A refresh and a lock

A refresh waits for the service, for the list of the networks and for each network in turn, and
the workspace can be locked at any of these points. The first two are guarded: a refresh that
was begun before is given up. Behind a network the guard is caught together with the errors of
the network, and the refresh goes on with what it has gathered. So nothing is shown after a lock
in runs where no refresh has gathered anything at that point when the workspace is locked.
-/

namespace GChat

namespace Workspace

open Foundation Dialect

/-! ### Refreshes under way -/

/-- Where a request stands. The last two are its ends; `returning` is the snapshot of all
networks on its way to the caller. -/
inductive Stage where
  | base (unlocking : Bool)
  | listing (snapshot : Snapshot)
  | child (next : Snapshot) (network : JoinedNetwork) (sent : Sent) (rest : List JoinedNetwork)
  | returning (snapshot : Snapshot)
  | resolved (response : Response)
  | rejected (e : Failure)

def Stage.isFinished : Stage → Bool
  | .resolved _ => true
  | .rejected _ => true
  | _ => false

/-- A request for a snapshot or to unlock. `interrupted` is that the workspace was locked or
disconnected before the request was finished. -/
structure Task where
  stage : Stage
  lifecycle : ℕ
  presenceRevision : ℕ
  interrupted : Bool

def workspaceChanged : Failure := chatError "locked" "Workspace changed during refresh"

/-- Ask the networks in turn, up to one whose answer has to be awaited. -/
def State.askNext (w : State) : Snapshot → List JoinedNetwork → Stage
  | next, [] => .returning next
  | next, network :: rest =>
      match w.scoped (some network.id) .snapshot with
      | .error e => w.askNext (failed network next e) rest
      | .ok sent => .child next network sent rest

section Answers

variable (w : State) (t : Task)

/-- The service answered the request. -/
def State.baseAnswered (unlocking : Bool) : Except Failure Response → State × Stage
  | .error e => (w, .rejected e)
  | .ok response =>
      if t.lifecycle ≠ w.lifecycle then (w, .rejected workspaceChanged)
      else if unlocking then (w, .resolved response)
      else
        match response with
        | .snapshot snapshot =>
            match w.enter t.presenceRevision snapshot with
            | (w, false) => (w, .returning snapshot)
            | (w, true) => (w, .listing snapshot)
        | response => (w, .resolved response)

/-- The service answered with the list of the networks. -/
def State.listAnswered (snapshot : Snapshot) : Except Failure Response → State × Stage
  | .error e => (w, .rejected e)
  | .ok response =>
      if t.lifecycle ≠ w.lifecycle then (w, .rejected workspaceChanged)
      else
        match response with
        | .networks (.list networks) =>
            let w := w.publish t.presenceRevision snapshot networks
            (w, w.askNext (opened snapshot) (networks.filter fun n => !n.primary))
        | _ => (w, .rejected (chatError "protocol" "Invalid network list"))

/-- A network answered. What is thrown here is caught and noted for the network. -/
def State.childAnswered (next : Snapshot) (network : JoinedNetwork) (sent : Sent)
    (rest : List JoinedNetwork) (result : Except Failure Response) : State × Stage :=
  match result.bind (w.received sent) with
  | .error e => (w, w.askNext (failed network next e) rest)
  | .ok response =>
      if t.lifecycle ≠ w.lifecycle then
        (w, w.askNext (failed network next workspaceChanged) rest)
      else
        match response with
        | .snapshot child =>
            let w := w.arrived t.presenceRevision network child
            (w, w.askNext (w.absorb network next child) rest)
        | _ => (w, w.askNext (failed network next (plainError "Invalid network snapshot")) rest)

def State.answered (result : Except Failure Response) : State × Stage :=
  match t.stage with
  | .base unlocking => w.baseAnswered t unlocking result
  | .listing snapshot => w.listAnswered t snapshot result
  | .child next network sent rest => w.childAnswered t next network sent rest result
  | stage => (w, stage)

end Answers

/-! ### The page -/

/-- The workspace of a page and its requests. `quiet` is that the workspace was locked or
disconnected, and that no snapshot requested later was applied since, nor a setting confirmed. -/
structure Page where
  workspace : State
  tasks : List Task
  quiet : Bool

inductive Event where
  | refresh
  | unlock
  | close
  | answered (task : ℕ) (result : Except Failure Response)
  | returned (task : ℕ)
  | select (network : Option String)
  | confirmPresence (network : Option String) (enabled : Bool)

def Page.created : Page := ⟨.created, [], false⟩

def Page.begin (s : Page) (unlocking : Bool) : Page :=
  { s with
    tasks := s.tasks ++
      [⟨.base unlocking, s.workspace.lifecycle, s.workspace.presenceRevision, false⟩] }

def Task.interrupt (t : Task) : Task :=
  if t.stage.isFinished then t else { t with interrupted := true }

/-- The answer is a snapshot, requested after the workspace was last locked. -/
def Task.applies (t : Task) (result : Except Failure Response) : Bool :=
  match t.stage, result with
  | .base false, .ok (.snapshot _) => !t.interrupted
  | _, _ => false

def Task.return (t : Task) : Task :=
  match t.stage with
  | .returning snapshot => { t with stage := .resolved (.snapshot snapshot) }
  | _ => t

def Page.act (s : Page) : Event → Page
  | .refresh => s.begin false
  | .unlock => s.begin true
  | .close => ⟨s.workspace.close, s.tasks.map Task.interrupt, true⟩
  | .answered i result =>
      match s.tasks[i]? with
      | none => s
      | some t =>
          let (w, stage) := s.workspace.answered t result
          ⟨w, s.tasks.set i { t with stage := stage }, s.quiet && !t.applies result⟩
  | .returned i =>
      match s.tasks[i]? with
      | none => s
      | some t => { s with tasks := s.tasks.set i t.return }
  | .select network => { s with workspace := { s.workspace with active := network } }
  | .confirmPresence network enabled =>
      { s with workspace := s.workspace.confirmPresence network enabled, quiet := false }

def pageMachine : Machine Page Event := .ofFun .created Page.act

/-! ### What is shown -/

/-- A snapshot without a conversation, a message, an activity or a history. -/
structure Bare (s : Snapshot) : Prop where
  conversations : s.conversations = []
  operations : s.operations.getD [] = []
  activity : s.activity.getD [] = []
  commandHistory : s.commandHistory = []
  inputHistory : s.inputHistory = []

/-- Nothing of the profile has been gathered, or was shown. -/
def Stage.Bare : Stage → Prop
  | .child next _ _ _ => Workspace.Bare next
  | .returning snapshot => Workspace.Bare snapshot
  | .resolved response => ∃ snapshot, response = .snapshot snapshot ∧ Workspace.Bare snapshot
  | _ => True

/-- When the workspace is locked no unfinished request has gathered anything behind the list of
the networks. -/
def Page.Clear (s : Page) : Event → Prop
  | .close => ∀ t ∈ s.tasks, t.stage.isFinished = false → t.stage.Bare
  | _ => True

theorem Bare.failed {next : Snapshot} (h : Bare next) (network : JoinedNetwork) (e : Failure) :
    Bare (failed network next e) :=
  ⟨h.conversations, h.operations, h.activity, h.commandHistory, h.inputHistory⟩

theorem askNext_bare {w : State} {next : Snapshot} (h : Bare next)
    (rest : List JoinedNetwork) : (w.askNext next rest).Bare := by
  induction rest generalizing next with
  | nil => exact h
  | cons network rest ih =>
      unfold State.askNext
      cases w.scoped (some network.id) .snapshot with
      | error e => exact ih (h.failed network e)
      | ok sent => exact h

/-! ### What a step does -/

theorem setPresence_lifecycle (w : State) (revision : ℕ) (network : String)
    (snapshot : Snapshot) :
    (w.setPresence revision network snapshot).lifecycle = w.lifecycle := by
  unfold State.setPresence
  split
  · rfl
  · rfl

theorem enter_lifecycle (w : State) (revision : ℕ) (snapshot : Snapshot) :
    (w.enter revision snapshot).1.lifecycle = w.lifecycle := by
  unfold State.enter
  dsimp only
  split
  · rfl
  · split
    · exact setPresence_lifecycle _ _ _ _
    · rfl

theorem publish_lifecycle (w : State) (revision : ℕ) (snapshot : Snapshot)
    (networks : List JoinedNetwork) :
    (w.publish revision snapshot networks).lifecycle = w.lifecycle :=
  setPresence_lifecycle _ _ _ _

theorem arrived_lifecycle (w : State) (revision : ℕ) (network : JoinedNetwork)
    (child : Snapshot) : (w.arrived revision network child).lifecycle = w.lifecycle :=
  setPresence_lifecycle _ _ _ _

/-- Of a request of an earlier time no answer changes the workspace, and nothing is gathered. -/
theorem answered_stale {w : State} {t : Task} (h : t.lifecycle ≠ w.lifecycle)
    (hbare : t.stage.Bare) (result : Except Failure Response) :
    (w.answered t result).1 = w ∧ (w.answered t result).2.Bare := by
  unfold State.answered
  cases hstage : t.stage with
  | base unlocking =>
      cases result with
      | error e => exact ⟨rfl, trivial⟩
      | ok response =>
          simp only [State.baseAnswered, if_pos h]
          exact ⟨trivial, trivial⟩
  | listing snapshot =>
      cases result with
      | error e => exact ⟨rfl, trivial⟩
      | ok response =>
          simp only [State.listAnswered, if_pos h]
          exact ⟨trivial, trivial⟩
  | child next network sent rest =>
      rw [hstage] at hbare
      simp only [State.childAnswered]
      cases result.bind (w.received sent) with
      | error e => exact ⟨rfl, askNext_bare (hbare.failed network e) rest⟩
      | ok response =>
          simp only [if_pos h]
          exact ⟨trivial, askNext_bare (hbare.failed network _) rest⟩
  | returning snapshot =>
      rw [hstage] at hbare
      exact ⟨rfl, hbare⟩
  | resolved response =>
      rw [hstage] at hbare
      exact ⟨rfl, hbare⟩
  | rejected e => exact ⟨rfl, trivial⟩

theorem answered_lifecycle (w : State) (t : Task) (result : Except Failure Response) :
    (w.answered t result).1.lifecycle = w.lifecycle := by
  unfold State.answered
  cases t.stage with
  | base unlocking =>
      cases result with
      | error e => rfl
      | ok response =>
          simp only [State.baseAnswered]
          split
          · rfl
          · split
            · rfl
            · cases response with
              | snapshot snapshot =>
                  have h := enter_lifecycle w t.presenceRevision snapshot
                  dsimp only
                  split
                  next henter => rw [henter] at h; exact h
                  next henter => rw [henter] at h; exact h
              | _ => rfl
  | listing snapshot =>
      cases result with
      | error e => rfl
      | ok response =>
          simp only [State.listAnswered]
          split
          · rfl
          · split
            · exact publish_lifecycle w t.presenceRevision snapshot _
            · rfl
  | child next network sent rest =>
      simp only [State.childAnswered]
      cases result.bind (w.received sent) with
      | error e => rfl
      | ok response =>
          dsimp only
          split
          · rfl
          · split
            · exact arrived_lifecycle w t.presenceRevision network _
            · rfl
  | returning snapshot => rfl
  | resolved response => rfl
  | rejected e => rfl

/-- The request waits for the list or for a network. -/
def Stage.isGathering : Stage → Bool
  | .listing _ => true
  | .child _ _ _ _ => true
  | _ => false

/-- A request that does not gather yet changes the workspace only by a snapshot of the service,
and only so begins to gather. -/
theorem answered_base {w : State} {t : Task} {result : Except Failure Response}
    (hstage : t.stage.isGathering = false) (hfresh : t.interrupted = false)
    (happlies : t.applies result = false) :
    (w.answered t result).1 = w ∧ (w.answered t result).2.isGathering = false := by
  unfold State.answered
  unfold Task.applies at happlies
  cases h : t.stage with
  | base unlocking =>
      cases result with
      | error e => exact ⟨rfl, rfl⟩
      | ok response =>
          simp only [State.baseAnswered]
          split
          · exact ⟨rfl, rfl⟩
          · cases unlocking with
            | true => exact ⟨rfl, rfl⟩
            | false =>
                cases response with
                | snapshot snapshot =>
                    rw [h] at happlies
                    simp only [hfresh, Bool.not_false, Bool.true_eq_false] at happlies
                | _ => exact ⟨rfl, rfl⟩
  | listing snapshot =>
      rw [h] at hstage
      cases hstage
  | child next network sent rest =>
      rw [h] at hstage
      cases hstage
  | returning snapshot => exact ⟨rfl, rfl⟩
  | resolved response => exact ⟨rfl, rfl⟩
  | rejected e => exact ⟨rfl, rfl⟩

/-! ### The invariant -/

/-- What holds of a request in a workspace that was locked `lifecycle` times. -/
structure Task.Ok (t : Task) (lifecycle : ℕ) (quiet : Bool) : Prop where
  le : t.lifecycle ≤ lifecycle
  stale : t.interrupted = true → t.lifecycle < lifecycle ∧ t.stage.Bare
  fresh : t.interrupted = false → t.stage.isGathering = true → quiet = false

structure Page.Inv (s : Page) : Prop where
  quiet : s.quiet = true →
    s.workspace.networks = [] ∧ s.workspace.instances = ∅ ∧ s.workspace.presence = ∅
  tasks : ∀ t ∈ s.tasks, t.Ok s.workspace.lifecycle s.quiet

theorem Page.Inv.begin {s : Page} (h : s.Inv) (unlocking : Bool) : (s.begin unlocking).Inv := by
  refine ⟨h.quiet, ?_⟩
  intro t ht
  obtain ht | ht := List.mem_append.mp ht
  · exact h.tasks t ht
  · rw [List.mem_singleton.mp ht]
    exact ⟨Nat.le_refl _, nofun, fun _ => nofun⟩

theorem Page.Inv.close {s : Page} (h : s.Inv) (hclear : s.Clear .close) :
    (s.act .close).Inv := by
  refine ⟨fun _ => ⟨rfl, rfl, rfl⟩, ?_⟩
  intro t ht
  obtain ⟨u, hu, rfl⟩ := List.mem_map.mp ht
  have hok := h.tasks u hu
  have hlt : u.lifecycle < s.workspace.lifecycle + 1 := Nat.lt_succ_of_le hok.le
  unfold Task.interrupt
  cases hfinished : u.stage.isFinished with
  | true =>
      refine ⟨Nat.le_of_lt hlt, fun hi => ⟨hlt, (hok.stale hi).2⟩, ?_⟩
      intro _ hgathering
      cases hstage : u.stage with
      | listing snapshot =>
          rw [hstage] at hfinished
          cases hfinished
      | child next network sent rest =>
          rw [hstage] at hfinished
          cases hfinished
      | _ =>
          simp only [if_pos, hstage, Stage.isGathering, Bool.false_eq_true] at hgathering
  | false => exact ⟨Nat.le_of_lt hlt, fun _ => ⟨hlt, hclear u hu hfinished⟩, nofun⟩

theorem Page.Inv.answered {s : Page} (h : s.Inv) (i : ℕ) (result : Except Failure Response) :
    (s.act (.answered i result)).Inv := by
  simp only [Page.act]
  cases hi : s.tasks[i]? with
  | none => exact h
  | some t =>
      have hok := h.tasks t (List.mem_of_getElem? hi)
      have hlifecycle := answered_lifecycle s.workspace t result
      dsimp only
      constructor
      · intro hquiet
        rw [Bool.and_eq_true, Bool.not_eq_true'] at hquiet
        obtain ⟨hquiet, happlies⟩ := hquiet
        cases hinterrupted : t.interrupted with
        | true =>
            obtain ⟨hlt, hbare⟩ := hok.stale hinterrupted
            rw [(answered_stale (Nat.ne_of_lt hlt) hbare result).1]
            exact h.quiet hquiet
        | false =>
            have hstage : t.stage.isGathering = false := by
              rw [← Bool.not_eq_true]
              intro hgathering
              have hloud := hok.fresh hinterrupted hgathering
              rw [hquiet] at hloud
              cases hloud
            rw [(answered_base hstage hinterrupted happlies).1]
            exact h.quiet hquiet
      · intro u hu
        rw [hlifecycle]
        obtain hu | rfl := List.mem_or_eq_of_mem_set hu
        · have huok := h.tasks u hu
          refine ⟨huok.le, huok.stale, fun hfresh hgathering => ?_⟩
          rw [huok.fresh hfresh hgathering, Bool.false_and]
        · refine ⟨hok.le, fun hinterrupted => ?_, fun hfresh hgathering => ?_⟩
          · obtain ⟨hlt, hbare⟩ := hok.stale hinterrupted
            exact ⟨hlt, (answered_stale (Nat.ne_of_lt hlt) hbare result).2⟩
          · cases hbefore : t.stage.isGathering with
            | true => rw [hok.fresh hfresh hbefore, Bool.false_and]
            | false =>
                cases happlies : t.applies result with
                | true => rw [Bool.not_true, Bool.and_false]
                | false =>
                    have hafter := (answered_base (w := s.workspace) hbefore hfresh happlies).2
                    rw [hafter] at hgathering
                    cases hgathering

theorem Page.Inv.returned {s : Page} (h : s.Inv) (i : ℕ) : (s.act (.returned i)).Inv := by
  simp only [Page.act]
  cases hi : s.tasks[i]? with
  | none => exact h
  | some t =>
      refine ⟨h.quiet, ?_⟩
      intro u hu
      obtain hu | rfl := List.mem_or_eq_of_mem_set hu
      · exact h.tasks u hu
      · have hok := h.tasks t (List.mem_of_getElem? hi)
        unfold Task.return
        cases hstage : t.stage with
        | returning snapshot =>
            have hstale := hok.stale
            rw [hstage] at hstale
            exact ⟨hok.le, fun hi => ⟨(hstale hi).1, snapshot, rfl, (hstale hi).2⟩, fun _ => nofun⟩
        | _ => exact hok

theorem Page.Inv.act {s : Page} (h : s.Inv) {x : Event} (hclear : s.Clear x) : (s.act x).Inv := by
  cases x with
  | refresh => exact h.begin false
  | unlock => exact h.begin true
  | close => exact h.close hclear
  | answered i result => exact h.answered i result
  | returned i => exact h.returned i
  | select network => exact ⟨h.quiet, h.tasks⟩
  | confirmPresence network enabled =>
      refine ⟨nofun, fun t ht => ?_⟩
      have hok := h.tasks t ht
      exact ⟨hok.le, hok.stale, fun _ _ => rfl⟩

theorem created_inv : Page.created.Inv :=
  ⟨fun h => absurd h Bool.false_ne_true, fun _ h => absurd h List.not_mem_nil⟩

theorem reachable_inv {s : Page} (hs : (pageMachine.restrict Page.Clear).Reachable s) :
    s.Inv := by
  refine hs.invariant ?_ ?_
  · rintro s rfl
    exact created_inv
  · rintro s x s' - h ⟨hclear, rfl⟩
    exact h.act hclear

/-- What is shown after a lock: a request that was not finished is rejected or shows nothing of
the profile, and nothing is published until a snapshot requested later is applied. -/
structure Page.Hides (s : Page) : Prop where
  requests : ∀ t ∈ s.tasks, t.interrupted = true →
    ∀ response, t.stage = .resolved response → ∃ snapshot, response = .snapshot snapshot ∧ Bare snapshot
  published : s.quiet = true →
    s.workspace.networks = [] ∧ s.workspace.instances = ∅ ∧ s.workspace.presence = ∅

theorem page_hides {s : Page} (hs : (pageMachine.restrict Page.Clear).Reachable s) :
    s.Hides := by
  have h := reachable_inv hs
  refine ⟨?_, h.quiet⟩
  intro t ht hinterrupted response hstage
  have hbare := ((h.tasks t ht).stale hinterrupted).2
  rwa [hstage] at hbare

/-! ### A lock while a network is asked -/

namespace Sample

def info : InstanceInfo :=
  ⟨none, "instance", "", "", false, false, true, true, "", ["networks.v1"]⟩

def room : Conversation :=
  ⟨none, none, none, none, "channel/same", "same", .channel, "#same", "", true, false, none, none,
    [], 0, none, 12000, []⟩

def profile : Snapshot := ⟨info, "1", [room], [], [], [], none, none, none⟩

def joined (id : String) (primary : Bool) : JoinedNetwork :=
  ⟨id, id, id, primary, ⟨.connected, ""⟩⟩

/-- A refresh that waits for the second network. -/
def asked : List Event :=
  [.refresh, .answered 0 (.ok (.snapshot profile)),
    .answered 0 (.ok (.networks (.list [joined "a" true, joined "b" false])))]

/-- The workspace is locked, and then the network answers. -/
def refused : List Event :=
  [.close, .answered 0 (.error (chatError "locked" "")), .returned 0]

def shown : Page := (asked ++ refused).foldl Page.act .created

/-- The workspace is locked before the networks are listed. -/
def unlisted : List Event :=
  [.refresh, .answered 0 (.ok (.snapshot profile)), .close,
    .answered 0 (.ok (.networks (.list [])))]

end Sample

open Sample in
/-- The refresh shows the conversation of the profile after the lock. -/
theorem locked_refresh_shows : pageMachine.Reachable shown ∧ ¬ shown.Hides := by
  refine ⟨Machine.Reachable.foldl (.start rfl) _, ?_⟩
  have hshown : shown.tasks.any (fun t => t.interrupted &&
      match t.stage with
      | .resolved (.snapshot snapshot) => !snapshot.conversations.isEmpty
      | _ => false) = true := by
    decide +kernel
  intro h
  obtain ⟨t, ht, hbad⟩ := List.any_eq_true.mp hshown
  rw [Bool.and_eq_true] at hbad
  obtain ⟨hinterrupted, hresolved⟩ := hbad
  cases hstage : t.stage with
  | resolved response =>
      obtain ⟨snapshot, rfl, hbare⟩ := h.requests t ht hinterrupted response hstage
      rw [hstage] at hresolved
      simp only [hbare.conversations, List.isEmpty_nil, Bool.not_true, Bool.false_eq_true]
        at hresolved
  | _ =>
      rw [hstage] at hresolved
      cases hresolved

open Sample in
theorem unlisted_hides : (unlisted.foldl Page.act .created).Hides := by
  have hmeets : Machine.Meets Page.Clear Page.act .created unlisted := by
    refine ⟨trivial, trivial, ?_, trivial, trivial⟩
    have hlisting : ((Page.act Page.created .refresh).act
        (.answered 0 (.ok (.snapshot profile)))).tasks.all (fun t =>
          match t.stage with
          | .listing _ => true
          | _ => false) = true := by
      decide +kernel
    intro t ht _
    have ht' := List.all_eq_true.mp hlisting t ht
    cases hstage : t.stage with
    | listing snapshot => trivial
    | _ =>
        rw [hstage] at ht'
        cases ht'
  exact page_hides (Machine.Reachable.restrict_foldl (.start rfl) hmeets)

end Workspace

end GChat
