import GChat.Dialect.Types
import GChat.Files.Codec

/-!
# Files piece by piece

A file goes into the cache of the service and comes out of it one piece after the other. The
native client imports and saves, the page uploads, and the mobile application stages an export:
four loops, two of which count what remains and two of which count an offset.
-/

namespace GChat

namespace Files

open Foundation Dialect

/-- A service as its clients use it. -/
structure Client (σ : Type) where
  instanceId : String
  files : σ → FileRequest → Except String FileSnapshot × σ
  fileIo : σ → List UInt8 → Except String (List UInt8) × σ

section

variable {σ : Type} (client : Client σ)

/-- Go on with the answer of the service; what failed is not gone on with. -/
def andThen {α β : Type} (answer : Except String α × σ)
    (next : α → σ → Except String β × σ) : Except String β × σ :=
  match answer with
  | (.error message, s) => (.error message, s)
  | (.ok a, s) => next a s

@[simp] theorem andThen_ok {α β : Type} (a : α) (s : σ) (next : α → σ → Except String β × σ) :
    andThen (.ok a, s) next = next a s := rfl

@[simp] theorem andThen_error {α β : Type} (message : String) (s : σ)
    (next : α → σ → Except String β × σ) : andThen (.error message, s) next = (.error message, s) :=
  rfl

/-- One frame to the service; a frame that cannot be written is not sent. -/
def exchange (frame : Except String (List UInt8)) (s : σ) : Except String (List UInt8) × σ :=
  andThen (frame, s) fun frame s => client.fileIo s frame

/-! ### Into the cache -/

/-- What is left of the source behind its declared length. -/
def importPieces (id : String) (remaining : ℕ) (source : List UInt8) (piece : UInt32) (s : σ) :
    Except String (List UInt8) × σ :=
  if _h : remaining = 0 then (.ok source, s)
  else if source.length < min remaining pieceBytes then (.error "early eof", s)
  else
    andThen (exchange client (encodeIo ⟨client.instanceId, id, piece, true⟩
      (source.take (min remaining pieceBytes))) s) fun _ s =>
        importPieces id (remaining - min remaining pieceBytes)
          (source.drop (min remaining pieceBytes)) (piece + 1) s
termination_by remaining
decreasing_by
  have hpos : 0 < pieceBytes := by decide
  omega

/-- The loop of the page over the slices of a file. -/
def uploadPieces (id : String) (file : List UInt8) (offset piece : ℕ) (s : σ) :
    Except String Unit × σ :=
  if _h : offset < file.length then
    andThen (exchange client (encodeFileIo ⟨client.instanceId, id, piece, true⟩
      ((file.drop offset).take 262144)) s) fun _ s =>
        uploadPieces id file (offset + 262144) (piece + 1) s
  else (.ok (), s)
termination_by file.length - offset
decreasing_by omega

/-! ### Out of the cache -/

def savePieces (id : String) (remaining : ℕ) (piece : UInt32) (output : List UInt8) (s : σ) :
    Except String (List UInt8) × σ :=
  if _h : remaining = 0 then (.ok output, s)
  else
    andThen (exchange client (encodeIo ⟨client.instanceId, id, piece, false⟩ []) s) fun data s =>
      if data.length ≠ min remaining pieceBytes then (.error "Invalid exported piece length", s)
      else savePieces id (remaining - min remaining pieceBytes) (piece + 1) (output ++ data) s
termination_by remaining
decreasing_by
  have hpos : 0 < pieceBytes := by decide
  omega

def pieceSize (total offset : ℕ) : Except String (UInt32 × ℕ) := do
  refuse (offset ≥ total || offset % pieceBytes ≠ 0) "Invalid export piece offset"
  refuse (offset / pieceBytes ≥ 2 ^ 32) "Export piece index overflow"
  .ok (UInt32.ofNat (offset / pieceBytes), min (total - offset) pieceBytes)

theorem pieceSize_eq_ok {total offset : ℕ} {piece : UInt32} {expected : ℕ} :
    pieceSize total offset = .ok (piece, expected) ↔
      offset < total ∧ offset % pieceBytes = 0 ∧ offset / pieceBytes < 2 ^ 32 ∧
        piece = UInt32.ofNat (offset / pieceBytes) ∧ expected = min (total - offset) pieceBytes := by
  unfold pieceSize
  constructor
  · intro h
    obtain ⟨_, hoffset, h⟩ := bind_eq_ok.mp h
    obtain ⟨_, hindex, h⟩ := bind_eq_ok.mp h
    rw [refuse_eq_ok] at hoffset hindex
    injection h with h
    injection h with hpiece hexpected
    simp only [Bool.or_eq_false_iff, decide_eq_false_iff_not, not_le, not_not, ge_iff_le] at *
    exact ⟨hoffset.1, hoffset.2, hindex, hpiece.symm, hexpected.symm⟩
  · rintro ⟨hoffset, haligned, hindex, rfl, rfl⟩
    refine bind_eq_ok.mpr ⟨(), refuse_eq_ok.mpr ?_, bind_eq_ok.mpr ⟨(), refuse_eq_ok.mpr ?_, rfl⟩⟩
    · simp only [Bool.or_eq_false_iff, decide_eq_false_iff_not, not_le, not_not, ge_iff_le]
      exact ⟨hoffset, haligned⟩
    · simp only [decide_eq_false_iff_not, not_le, ge_iff_le]
      exact hindex

def stagePieces (id : String) (size offset : ℕ) (output : List UInt8) (s : σ) :
    Except String (List UInt8) × σ :=
  if offset < size then
    match _h : pieceSize size offset with
    | .error message => (.error message, s)
    | .ok (piece, expected) =>
        andThen (exchange client (encodeIo ⟨client.instanceId, id, piece, false⟩ []) s)
          fun bytes s =>
            if _hlength : bytes.length ≠ expected then (.error "Invalid exported piece length", s)
            else stagePieces id size (offset + bytes.length) (output ++ bytes) s
  else (.ok output, s)
termination_by size - offset
decreasing_by
  have hpos : 0 < pieceBytes := by decide
  have hexpected := (pieceSize_eq_ok.mp _h).2.2.2.2
  omega

end

end Files

end GChat
