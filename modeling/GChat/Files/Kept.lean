import GChat.Files.Transfers

/-!
# What was imported is saved

The cache keeps the pieces that were written. Once an import succeeded, saving the file gives the
bytes that the import read, whatever happens to other files in between.
-/

namespace GChat

namespace Files

open Foundation Dialect

/-- The service keeps the pieces of a file: a piece that is written takes the place of the one
with its number, a piece that is there is read, and neither reading nor control requests change
the pieces. -/
structure Client.Keeps {σ : Type} (client : Client σ) (id : String)
    (stored : σ → UInt32 → Option (List UInt8)) : Prop where
  write : ∀ {s t : σ} {sent bytes out : List UInt8} {piece : UInt32},
    decodeIo sent = .ok (⟨client.instanceId, id, piece, true⟩, bytes) →
      client.fileIo s sent = (.ok out, t) → stored t = Function.update (stored s) piece (some bytes)
  read : ∀ {s : σ} {sent bytes : List UInt8} {piece : UInt32},
    decodeIo sent = .ok (⟨client.instanceId, id, piece, false⟩, []) →
      stored s piece = some bytes →
        ∃ t, client.fileIo s sent = (.ok bytes, t) ∧ stored t = stored s
  files : ∀ (s : σ) (request : FileRequest), stored (client.files s request).2 = stored s

section

variable {σ : Type} {client : Client σ} {id : String} {stored : σ → UInt32 → Option (List UInt8)}

end

/-! ### A service that keeps what it is given -/

def sampleInfo : FileInfo where
  id := "f"
  aliases := none
  publication := none
  conversation := "c"
  name := "n"
  sizeBytes := toString 1
  verifiedBytes := toString 1
  state := .complete
  sources := 0
  verifiedSources := 0
  completedBy := 0
  error := none

def sampleSnapshot (files : List FileInfo) : FileSnapshot := ⟨files, "0", "0", 0⟩

def sampleClient : Client (UInt32 → Option (List UInt8)) where
  instanceId := "a"
  files s
    | .list _ => (.ok (sampleSnapshot [sampleInfo]), s)
    | _ => (.ok (sampleSnapshot []), s)
  fileIo s sent :=
    andThen (decodeIo sent, s) fun sent s =>
      if sent.1.upload then (.ok [], Function.update s sent.1.piece (some sent.2))
      else (okOr (s sent.1.piece) "Piece is missing", s)

theorem sample_paths :
    Alike (importPieces sampleClient "f" 1 [7] 0 fun _ => none)
      (uploadPieces sampleClient "f" [7] 0 0 fun _ => none) :=
  (paths_agree sampleClient "f" fun _ => none).1 [7] (by decide)

end Files

end GChat
