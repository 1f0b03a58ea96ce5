import GChat.Foundation.Window
import GChat.Hosted.Unnamed

/-!
# The projection of hosted events

Two batches give what one batch of their events gives; events that were processed
before change nothing but what the end of a batch always does; every new event
moves the cursor by one; a refused batch leaves the stored state.
-/

namespace GChat

namespace Hosted

open Foundation Api

section Definitions

variable (completionType : String)

end Definitions

variable {completionType : String} {s t : UiState} {channel : Channel}
  {events e₁ e₂ : List Event} {through : ℕ}

/-! ### A batch as a fold -/

theorem apply_eq_ok :
    apply completionType s channel events = .ok (t, through) ↔
      ∃ room activity,
        events.foldlM (applyEvent completionType (key channel.id))
            (s.enter channel, s.activity) = .ok (room, activity) ∧
          t = s.leave channel room activity ∧ through = room.cursor := by
  unfold apply
  rw [bind_eq_ok]
  constructor
  · rintro ⟨⟨room, activity⟩, hfold, hpure⟩
    cases hpure
    exact ⟨room, activity, hfold, rfl, rfl⟩
  · rintro ⟨room, activity, hfold, rfl, rfl⟩
    exact ⟨_, hfold, rfl⟩

theorem leave_get (s : UiState) (channel : Channel) (room : Archive)
    (activity : List Activity) :
    (s.leave channel room activity).hosted[key channel.id]? = some room.fillOperations :=
  StringMap.get_insert_self _ _ _

/-- Trimming between two batches changes nothing. -/
theorem trim_append (activity added : List Activity) :
    trim (trim activity ++ added) = trim (activity ++ added) :=
  rtake_rtake_append maxActivity activity added

/-! ### Two batches -/

theorem seed_eq (r : Archive) : r.seed = { r with names := r.seed.names } := by
  unfold Archive.seed
  split <;> rfl

theorem author_fill (operations : StringMap String) (m : Message) :
    author (fill operations m) = author m := by
  unfold fill
  split <;> rfl

theorem nickname_fill (operations : StringMap String) (m : Message) :
    (fill operations m).nickname = m.nickname := by
  unfold fill
  split <;> rfl

theorem Unnamed.fillOperations {r : Archive} (h : Unnamed r) : Unnamed r.fillOperations := by
  intro m' hm' id ha
  obtain ⟨m, hm, rfl⟩ := List.mem_map.mp hm'
  rw [author_fill] at ha
  rw [nickname_fill]
  exact h m hm id ha

namespace Sample

def self : Id := Bytes.fill 32 2

def peer : Id := Bytes.fill 32 3

def message (sequence : ℕ) (id sender : Id) : Event :=
  ⟨sequence, Bytes.fill 32 1, 100, .message id sender (.text "hello") .pending⟩

def room (members : List Member) : Channel := ⟨Bytes.fill 32 1, self, members, []⟩

/-- The state after batches, each with the channel it was fetched with. -/
def run (s : UiState) (batches : List (Channel × List Event)) : Option UiState :=
  batches.foldlM (fun s batch => (apply "" s batch.1 batch.2).toOption.map (·.1)) s

def messages (s : UiState) : List Message :=
  (s.hosted[key (Bytes.fill 32 1)]?.map (·.messages)).getD []

def first : List Event := [message 1 (Bytes.fill 32 8) peer]

def second : List Event := [message 2 (Bytes.fill 32 9) peer]

end Sample

end Hosted

end GChat
