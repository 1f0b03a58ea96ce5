import GChat.FileView.Model
import GChat.Foundation.Superseding

/-!
# Actions on a file take turns

The tasks of a file are workers that supersede each other: they wait for each other, and only the
newest has an effect on the entry of the transfer.
-/

namespace GChat

namespace FileView

open Foundation Dialect
open Superseding (Phase Worker Board Move Orderly)

def Stage.phase : Stage → Phase
  | .queued => .queued
  | .sent _ _ => .running
  | .resting _ _ => .running
  | .checking _ _ _ => .running
  | .closing _ => .closing
  | .done => .finished

def Task.worker (task : Task) : Worker String := ⟨task.id, task.previous, task.stage.phase⟩

def isPending (s : Controller) (id : String) : Bool :=
  (s.value.transfers[id]?).any (·.pending)

/-- The tasks of a controller as workers; a file is marked while its transfer is pending. -/
def Controller.board (s : Controller) : Board String where
  live := s.alive
  count := s.revision
  newest := fun id => (s.actions[id]?).map (·.generation)
  workers := fun n => (s.tasks n).map Task.worker
  marked := isPending s

/-! ### Changed entries -/

theorem workers_update (tasks : ℕ → Option Task) (n : ℕ) (task : Task) :
    (fun m => (Function.update tasks n (some task) m).map Task.worker) =
      Function.update (fun m => (tasks m).map Task.worker) n (some task.worker) :=
  funext fun m => Function.apply_update (fun _ => Option.map Task.worker) tasks n (some task) m

/-! ### What lists, mutations and refreshes leave alone -/

/-- The actions are the same, and the entries of transfers stay. -/
structure Same (s t : Controller) : Prop where
  alive : t.alive = s.alive
  actions : t.actions = s.actions
  revision : t.revision = s.revision
  tasks : t.tasks = s.tasks
  pending : ∀ id, isPending t id = isPending s id
  entries : ∀ {id : String} {transfer : TransferView}, s.value.transfers[id]? = some transfer →
    t.value.transfers[id]? = some transfer

theorem Same.refl (s : Controller) : Same s s := ⟨rfl, rfl, rfl, rfl, fun _ => rfl, fun h => h⟩

theorem Same.trans {s t u : Controller} (h : Same s t) (h' : Same t u) : Same s u where
  alive := h'.alive.trans h.alive
  actions := h'.actions.trans h.actions
  revision := h'.revision.trans h.revision
  tasks := h'.tasks.trans h.tasks
  pending id := (h'.pending id).trans (h.pending id)
  entries hid := h'.entries (h.entries hid)

theorem Same.board {s t : Controller} (h : Same s t) : t.board = s.board := by
  have hpending : isPending t = isPending s := funext h.pending
  simp only [Controller.board, h.alive, h.actions, h.revision, h.tasks, hpending]

theorem Same.isCurrent {s t : Controller} (h : Same s t) (n : ℕ) (id : String) :
    isCurrent t n id = isCurrent s n id := by
  rw [FileView.isCurrent, FileView.isCurrent, h.alive, h.actions]

section

variable {s : Controller} {n : ℕ} {task : Task}

theorem board_setStage (s : Controller) (n : ℕ) (task : Task) (stage : Stage) :
    (setStage s n task stage).board = s.board.setPhase n task.worker stage.phase := by
  simp only [setStage, Controller.board, Board.setPhase, workers_update]
  rfl

theorem worker_of_task (hn : s.tasks n = some task) :
    s.board.workers n = some task.worker := by
  simp only [Controller.board, hn, Option.map_some]

/-- A task that stays in its phase. -/
theorem board_setStage_same (hn : s.tasks n = some task) {stage : Stage}
    (h : stage.phase = task.stage.phase) : (setStage s n task stage).board = s.board := by
  have hworker : Function.update s.board.workers n (some task.worker) = s.board.workers := by
    rw [← worker_of_task hn, Function.update_eq_self]
  rw [board_setStage, h]
  exact congrArg (fun workers => { s.board with workers := workers }) hworker

/-- A task has gone on: the board has made at most one move, and only the newest task of a file
has changed the entry of its transfer. -/
structure Went (s : Controller) (n : ℕ) (task : Task) (t : Controller) : Prop where
  board : t.board = s.board ∨ Move s.board t.board
  entries : ∀ {id : String} {transfer : TransferView}, s.value.transfers[id]? = some transfer →
    t.value.transfers[id]? = some transfer ∨ id = task.id ∧ isCurrent s n id = true

theorem Same.went {t u : Controller} (h : Same s t) (hwent : Went t n task u) :
    Went s n task u where
  board := by
    rw [← h.board]
    exact hwent.board
  entries hid := by
    rw [← h.isCurrent]
    exact hwent.entries (h.entries hid)

theorem Same.setStage {t : Controller} (h : Same s t) (hn : s.tasks n = some task) {stage : Stage}
    (hphase : stage.phase = task.stage.phase) : Went s n task (setStage t n task stage) := by
  refine h.went ⟨Or.inl (board_setStage_same ?_ hphase), fun hid => Or.inl hid⟩
  rw [h.tasks, hn]

end

/-! ### Steps -/

end FileView

end GChat
