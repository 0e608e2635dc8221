import PipelineArchive.Archiver

/-!
# Streaming archives

An archive is written to a stream piece by piece, so that it is never needed as a whole. What
is sent is the bytes of the archive, or as many of them as the stream takes.
-/

set_option autoImplicit false

namespace PipelineArchive

/-- Writes the pieces of an archive one after another, flushes the stream, and tells how many
bytes these are. -/
def Image.writeTo {m : Type → Type} [Monad m] (image : Image) (writePiece : Bytes → m Unit)
    (flush : m Unit) : m Nat := do
  image.pieces.forM writePiece
  flush
  return image.size

/-- Why an archive is not written to a stream. -/
inductive WriteError where
  | archive (error : ArchiveError)
  | stream (message : String)
  deriving DecidableEq, Repr

/-- The text of an error. -/
def WriteError.message : WriteError → String
  | .archive error => error.message
  | .stream message => s!"failed to write archive: {message}"

/-- Writes the archive of everything that was added to a stream, piece by piece; an archive
that cannot be made leaves the stream untouched. A stream that holds nothing back need not be
flushed. -/
def Archiver.writeTo {σ : Type} {m : Type → Type} [Monad m] (a : Archiver σ)
    (writePiece : Bytes → m (Except String Unit))
    (flush : m (Except String Unit) := pure (.ok ())) : m (Except WriteError Nat) :=
  match a.image with
  | .error e => return .error (.archive e)
  | .ok image =>
      ExceptT.run (image.writeTo
        (fun piece => ExceptT.mk do return (← writePiece piece).mapError .stream)
        (ExceptT.mk do return (← flush).mapError .stream))

/-- A stream of limited size: what it has taken, and how many bytes it can still take. -/
structure BoundedStream where
  taken : Bytes
  room : Nat
  deriving DecidableEq, Repr

/-- Writes a piece, or as much of it as there is room for. -/
def BoundedStream.write (piece : Bytes) : StateM BoundedStream (Except String Unit) :=
  fun stream =>
    (if piece.length ≤ stream.room then .ok () else .error "stream is full",
      ⟨stream.taken ++ piece.take stream.room, stream.room - piece.length⟩)

end PipelineArchive
