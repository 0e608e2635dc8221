import PipelineArchive.Backend
import PipelineArchive.Chunk
import PipelineArchive.Decoding
import PipelineArchive.Text.Hex

/-!
# Reasons for refusing an archive

What can be wrong with the bytes of an archive. Every cause keeps the values that its text
speaks about.
-/

set_option autoImplicit false

namespace PipelineArchive.Container

/-- The part of an archive that does not lie where it must. -/
inductive Part where
  | chunk (kind : ChunkKind)
  | record (kind : ChunkKind) (name : String)
  | data (backend : Backend) (name : String)
  | shader (backend : Backend) (index : Nat)
  | shaderTable (backend : Backend)
  deriving DecidableEq, Repr

/-- The text of a part. -/
def Part.message : Part → String
  | .chunk kind => s!"{kind.display} chunk"
  | .record kind name => s!"{kind.display} '{name}'"
  | .data backend name => s!"{backend.display} data of '{name}'"
  | .shader backend index => s!"{backend.display} shader {index}"
  | .shaderTable backend => s!"{backend.display} shader table"

/-- The bytes that a part must lie in. -/
inductive Bounds where
  | available (size : Nat)
  | region (backend : Backend) (start stop : Nat)
  | common (start stop : Nat)
  deriving DecidableEq, Repr

/-- The text of the bytes that a part must lie in. -/
def Bounds.message : Bounds → String
  | .available size => s!"the {size} bytes available"
  | .region backend start stop => s!"the {backend.display} region {start}..{stop}"
  | .common start stop => s!"the common region {start}..{stop}"

/-- A contradiction between parts of an archive. -/
inductive Contradiction where
  | unterminatedName (kind : ChunkKind)
  | badName (kind : ChunkKind) (error : Utf8.Error)
  | otherKind (kind : ChunkKind) (name : String) (found : UInt32)
  | dataWithoutRegion (name : String) (backend : Backend)
  | shadersWithoutRegion (backend : Backend)
  | unknownLayoutBackend (pipeline : String) (number : UInt32)
  | badStage (backend : Backend) (index : Nat)
  | commonAfterRegion (common region : Nat)
  | signatureOutOfRange (kind : ChunkKind) (name : String) (index : UInt32) (count : Nat)
  | renderPassOutOfRange (kind : ChunkKind) (name : String) (index : UInt32) (count : Nat)
  | shaderOutOfRange (kind : ChunkKind) (name : String) (backend : Backend) (index : UInt32)
      (count : Nat)
  deriving DecidableEq, Repr

/-- The text of a contradiction. -/
def Contradiction.message : Contradiction → String
  | .unterminatedName kind => s!"unterminated name in the {kind.display} chunk"
  | .badName kind error => s!"name in the {kind.display} chunk is not UTF-8: {error.message}"
  | .otherKind kind name found =>
      s!"{kind.display} '{name}' has a record of kind {found.toNat}"
  | .dataWithoutRegion name backend =>
      s!"'{name}' has {backend.display} data, but the archive has no {backend.display} region"
  | .shadersWithoutRegion backend =>
      s!"the archive has {backend.display} shaders, but no {backend.display} region"
  | .unknownLayoutBackend pipeline number =>
      s!"pipeline '{pipeline}' has a layout for unknown backend {number.toNat}"
  | .badStage backend index => s!"{backend.display} shader {index} has an invalid stage"
  | .commonAfterRegion common region =>
      s!"common region starts at {common}, after the first backend region at {region}"
  | .signatureOutOfRange kind name index count =>
      s!"{kind.display} '{name}' uses signature {index.toNat} of {count}"
  | .renderPassOutOfRange kind name index count =>
      s!"{kind.display} '{name}' uses render pass {index.toNat} of {count}"
  | .shaderOutOfRange kind name backend index count =>
      s!"{kind.display} '{name}' uses {backend.display} shader {index.toNat} of {count}"

/-- Why an archive, or a part of one, cannot be read. -/
inductive ReadError where
  | badMagic (found : UInt32)
  | versionMismatch (found expected : UInt32)
  | malformed (error : DecodeError)
  | outOfBounds (part : Part) (start stop : Nat) (bounds : Bounds)
  | unknownChunk (number : UInt32)
  | duplicateChunk (kind : ChunkKind)
  | notFound (kind : ChunkKind) (name : String)
  | inconsistent (contradiction : Contradiction)
  /-- A slice that does not lie in the bytes it is taken from. -/
  | badSlice (start stop size : Nat)
  /-- A sum of offsets that does not fit 64 bits. -/
  | wideSum (sum : Nat)
  deriving DecidableEq, Repr

/-- The text of an error. -/
def ReadError.message : ReadError → String
  | .badMagic found => s!"not an archive: bad magic 0x{Text.hex 8 found.toNat}"
  | .versionMismatch found expected =>
      s!"archive version {found.toNat} is not supported, expected {expected.toNat}"
  | .malformed error => error.message
  | .outOfBounds part start stop bounds =>
      s!"{part.message} at {start}..{stop} is outside {bounds.message}"
  | .unknownChunk number => s!"unknown chunk kind {number.toNat}"
  | .duplicateChunk kind => s!"the archive has more than one {kind.display} chunk"
  | .notFound kind name => s!"{kind.display} '{name}' is not in the archive"
  | .inconsistent contradiction => s!"inconsistent archive: {contradiction.message}"
  | .badSlice start stop size => s!"slice {start}..{stop} does not lie in {size} bytes"
  | .wideSum sum => s!"offset {sum} does not fit in 64 bits"

end PipelineArchive.Container
