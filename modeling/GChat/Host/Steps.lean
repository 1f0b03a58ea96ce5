import GChat.Host.Model

/-!
# What a step of an update call can do

One list of the moves of a call that holds the lock of the maintenance state, with
what they need. Later modules reason from it and do not unfold the calls.
-/

namespace GChat

namespace Host

open Foundation

namespace InstanceHost

/-- The call has changed nothing yet. -/
def Reads (s : InstanceHost) : Prop :=
  (∃ request, s.task = some (.handling request)) ∨
    ∃ view release, s.task = some (.exiting view release)

/-- The call is about to end a preparation. -/
def endsNow (s : InstanceHost) : Bool :=
  match s.task with
  | some (.handling (.detach view)) => s.prepared.any (·.1 == view)
  | some (.handling (.abort view release)) => s.prepared == some (view, release)
  | _ => false

theorem endsNow_reads {s : InstanceHost} (h : s.endsNow = true) : s.Reads := by
  unfold endsNow at h
  split at h
  case h_1 view htask => exact Or.inl ⟨_, htask⟩
  case h_2 view release htask => exact Or.inl ⟨_, htask⟩
  case h_3 => cases h

/-- The next state of the call that holds the lock of the maintenance state. -/
inductive Advance (s : InstanceHost) : InstanceHost → Prop
  | answered {views : StringMap ℕ} : s.Reads →
      Advance s { s with views := views, task := none }
  | ends {after : After} : s.endsNow = true →
      Advance s { s with task := some (.ending after) }
  | exits {view release : String} : s.task = some (.handling (.exit view release)) →
      s.prepared = some (view, release) →
      Advance s { s with task := some (.exiting view release) }
  | prepares {view release : String} : s.prepared = none → s.lifecycle = .free →
      s.running = none →
      Advance s { s with prepared := some (view, release), task := none }
  | pauses {view release : String} {svc : Service} {g : Gate} : s.prepared = none →
      s.lifecycle = .free → s.running = some svc → svc.gate.pause = .ok g →
      Advance s { s with
        running := some { svc with gate := g }
        lifecycle := .updating
        task := some (.collecting view release) }
  | ended {after : After} : s.task = some (.ending after) → s.lifecycle = .free →
      s.running = none → Advance s (s.ended after).1
  | resumes {after : After} {svc : Service} : s.task = some (.ending after) →
      s.lifecycle = .free → s.running = some svc →
      Advance s { s with
        lifecycle := .updating
        task := some (.resuming after svc.networks.keys) }
  | resumesChild {after : After} {name : String} {names : List String} {svc : Service} :
      s.task = some (.resuming after (name :: names)) → s.running = some svc →
      Advance s { s with
        running := some (svc.childResumed name)
        task := some (.resuming after names) }
  | resumed {after : After} {svc : Service} : s.task = some (.resuming after []) →
      s.running = some svc →
      Advance s (InstanceHost.ended { s with
        running := some { svc with gate := svc.gate.resume }
        lifecycle := .free } after).1
  | collects {view release : String} {svc : Service} :
      s.task = some (.collecting view release) → s.running = some svc →
      Advance s { s with task := some (.pausing view release svc.networks.keys) }
  | fails {view release reason : String} {names : List String} {svc : Service} :
      s.task = some (.pausing view release names) → s.running = some svc →
      Advance s { s with task := some (.undoing svc.networks.keys reason) }
  | pausesChild {view release name : String} {names : List String} {svc svc' : Service} :
      s.task = some (.pausing view release (name :: names)) → s.running = some svc →
      svc.childPaused name = .ok svc' →
      Advance s { s with
        running := some svc'
        task := some (.pausing view release names) }
  | paused {view release : String} {svc : Service} :
      s.task = some (.pausing view release []) → s.running = some svc →
      Advance s { s with
        prepared := some (view, release)
        lifecycle := .free
        task := none }
  | undoesChild {name reason : String} {names : List String} {svc : Service} :
      s.task = some (.undoing (name :: names) reason) → s.running = some svc →
      Advance s { s with
        running := some (svc.childResumed name)
        task := some (.undoing names reason) }
  | undone {reason : String} {svc : Service} : s.task = some (.undoing [] reason) →
      s.running = some svc →
      Advance s { s with
        running := some { svc with gate := svc.gate.resume }
        lifecycle := .free
        task := none }
  | grants {view release : String} : s.task = some (.exiting view release) →
      s.lifecycle = .free → s.running = none →
      Advance s { s with exits := (view, release) :: s.exits, task := none }

variable {config : Config} {s t : InstanceHost} {outside : Outside}

theorem prepare_cases {view release : String} {managed : Bool} (hreads : s.Reads) :
    s.Advance (s.prepare config view release managed).1 := by
  unfold InstanceHost.prepare
  split
  · exact .answered hreads
  split
  · exact .answered hreads
  split
  · exact .answered hreads
  split
  · split
    · exact .answered hreads
    · exact .answered hreads
  case h_2 hprepared =>
    split
    case h_1 hfree =>
      split
      case h_1 hrunning => exact .prepares hprepared hfree hrunning
      case h_2 svc hrunning =>
        split
        · exact .answered hreads
        case h_2 g hpause => exact .pauses hprepared hfree hrunning hpause
    case h_2 => exact .answered hreads

theorem handle_cases {request : UpdateRequest} (htask : s.task = some (.handling request)) :
    s.Advance (s.handle config outside request).1 := by
  have hreads : s.Reads := Or.inl ⟨request, htask⟩
  cases request with
  | heartbeat view =>
      simp only [InstanceHost.handle]
      split
      · exact .answered hreads
      split
      · exact .answered hreads
      · exact .answered hreads
  | detach view =>
      simp only [InstanceHost.handle]
      split
      case isTrue howner => exact .ends (by simp [endsNow, htask, howner])
      case isFalse => exact .answered hreads
  | prepare view release => exact prepare_cases hreads
  | exit view release =>
      simp only [InstanceHost.handle]
      split
      · exact .answered hreads
      case isFalse howner => exact .exits htask (by simpa using howner)
  | abort view release =>
      simp only [InstanceHost.handle]
      split
      case isTrue howner => exact .ends (by simp [endsNow, htask, howner])
      case isFalse => exact .answered hreads

/-- Every step of an update call is one of the moves. -/
theorem advance_cases {r : Option Reply} (h : s.advance config outside = some (t, r)) :
    s.Advance t := by
  have ht : ∀ {p : InstanceHost × Option Reply}, some p = some (t, r) → s.Advance p.1 →
      s.Advance t := by
    intro p hp hadvance
    cases hp
    exact hadvance
  unfold InstanceHost.advance at h
  split at h
  case h_1 => cases h
  case h_2 request htask => exact ht h (handle_cases htask)
  case h_3 _ after htask =>
    split at h
    case h_1 hfree hrunning => exact ht h (.ended htask hfree hrunning)
    case h_2 svc hfree hrunning => exact ht h (.resumes htask hfree hrunning)
    case h_3 => cases h
  case h_4 after name names svc htask hrunning => exact ht h (.resumesChild htask hrunning)
  case h_5 after svc htask hrunning => exact ht h (.resumed htask hrunning)
  case h_6 view release svc htask hrunning => exact ht h (.collects htask hrunning)
  case h_7 view release name names svc htask hrunning =>
    split at h
    case h_1 => exact ht h (.fails htask hrunning)
    case h_2 => exact ht h (.fails htask hrunning)
    case h_3 svc' hpause _ => exact ht h (.pausesChild htask hrunning hpause)
  case h_8 view release svc htask hrunning =>
    split at h
    case h_1 => exact ht h (.fails htask hrunning)
    case h_2 => exact ht h (.paused htask hrunning)
  case h_9 name names reason svc htask hrunning => exact ht h (.undoesChild htask hrunning)
  case h_10 reason svc htask hrunning => exact ht h (.undone htask hrunning)
  case h_11 _ view release htask =>
    split at h
    case h_1 hfree hrunning => exact ht h (.grants htask hfree hrunning)
    case h_2 => exact ht h (.answered (Or.inr ⟨view, release, htask⟩))
    case h_3 => cases h
  case h_12 => cases h

end InstanceHost

end Host

end GChat
