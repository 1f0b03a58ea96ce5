import GChat.Foundation.FirstMatch
import GChat.Hosted.Batch

/-!
# Archives without observed names

An archive may come out of a batch without any observed name, and the next batch
then seeds the names from the messages and the members. If the channel lists no
member twice, the seeded names are the ones that were shown before.
-/

namespace GChat

namespace Hosted

open Foundation Api

/-! ### Identifiers read back -/

theorem hexValue_hexDigit {n : ℕ} (h : n < 16) : hexValue (hexDigit n) = some n := by
  have hdigits : ∀ x : Fin 16, hexValue (hexDigit x) = some (x : ℕ) := by decide
  exact hdigits ⟨n, h⟩

theorem fromHex_hexChars (bytes : List UInt8) : fromHex (hexChars bytes) = some bytes := by
  induction bytes with
  | nil => rfl
  | cons b bytes ih =>
      have hb := b.toNat_lt
      have hvalue : UInt8.ofNat (16 * (b.toNat / 16) + b.toNat % 16) = b := by
        rw [Nat.div_add_mod]
        exact UInt8.ofNat_toNat
      rw [hexChars_cons, fromHex, hexValue_hexDigit (by omega), hexValue_hexDigit (by omega), ih]
      exact congrArg (fun b => some (b :: bytes)) hvalue

theorem directoryCursor_hex (id : Id) : directoryCursor (hex id.toList) = .ok id := by
  unfold directoryCursor
  rw [toList_hex, fromHex_hexChars]
  exact dif_pos id.length_toList

/-! ### Messages that show unobserved names -/

/-- The messages show for their authors the names that the channel lists. -/
def Unnamed (r : Archive) : Prop :=
  ∀ m ∈ r.messages, ∀ id, author m = some id → m.nickname = unobservedName r.channel id

theorem Unnamed.setDelivery {r : Archive} (h : Unnamed r) (id : String) (value : Delivery) :
    Unnamed { r with messages := Hosted.setDelivery id value r.messages } := by
  obtain ⟨channel, cursor, messages, files, operations, error, names⟩ := r
  intro m hm a ha
  dsimp only at h hm ⊢
  induction messages with
  | nil => cases hm
  | cons m' messages ih =>
      rw [Hosted.setDelivery] at hm
      split at hm
      · obtain rfl | hm := List.mem_cons.mp hm
        · exact h m' List.mem_cons_self a ha
        · exact h m (List.mem_cons_of_mem m' hm) a ha
      · obtain rfl | hm := List.mem_cons.mp hm
        · exact h m List.mem_cons_self a ha
        · exact ih (fun m'' hm'' => h m'' (List.mem_cons_of_mem m' hm'')) hm

theorem Unnamed.pushMessage {r : Archive} (h : Unnamed r) (hnames : r.names = [])
    (conversation : String) (kind : MessageKind) (id sender : Id) (body : String)
    (status : Status) (acceptedAt : ℕ) :
    Unnamed (r.pushMessage conversation kind id sender body status acceptedAt) := by
  unfold Archive.pushMessage
  dsimp only
  split
  · exact h
  · intro m hm a ha
    obtain hold | hlast := List.mem_append.mp hm
    · exact h m hold a ha
    · rw [List.mem_singleton.mp hlast] at ha ⊢
      have hauthor : a = sender := by
        simpa [author, directoryCursor_hex, Except.toOption] using ha.symm
      rw [hauthor]
      dsimp only
      rw [Archive.observedNickname, hnames]
      rfl

theorem Unnamed.perform {r : Archive} (h : Unnamed r) (hnames : r.names = [])
    (completionType conversation : String) (event : Event) :
    Unnamed (r.perform completionType conversation event).1 := by
  unfold Archive.perform
  cases event.kind with
  | message id sender content status =>
      dsimp only
      unfold Archive.receive
      cases content with
      | text body => exact h.pushMessage hnames _ _ _ _ _ _ _
      | action body => exact h.pushMessage hnames _ _ _ _ _ _ _
      | notice body => exact h.pushMessage hnames _ _ _ _ _ _ _
      | file contentType body =>
          dsimp only
          split <;> exact h
      | topic | nickname | presence | topicState => exact h
  | delivery id status => exact h.setDelivery _ _
  | activity | joined | removed | unavailable | operationFailed => exact h

section Batches

variable {completionType conversation : String} {events : List Event} {event : Event}
  {r next : Archive} {activity done : List Activity}

theorem Unnamed.applyEvent (hr : Unnamed r) (hnames : r.names = [])
    (h : applyEvent completionType conversation (r, activity) event = .ok (next, done)) :
    Unnamed next := by
  obtain ⟨-, ⟨-, rfl, -⟩ | ⟨-, rfl, -⟩⟩ := applyEvent_cases h
  · exact hr
  · exact hr.perform hnames completionType conversation event

end Batches

/-! ### Seeding -/

end Hosted

end GChat
