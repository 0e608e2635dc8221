import PipelineArchive.Backend
import PipelineArchive.Chunk

/-!
# The binary format

An archive is a header, a directory of chunks, the chunks, the common region and a region for
every backend that has data:

* the header holds where each region starts;
* the directory holds the kind, size and place of every chunk;
* the common region holds the records, each a `DataHeader` and a payload;
* the region of a backend holds the data of the records and, last, a table of shaders.

A record names its data by offset and size within each region.
-/

set_option autoImplicit false

namespace PipelineArchive.Container

/-- The first word of every archive: the bytes `DLAR`. -/
def magic : UInt32 := 1380011076

/-- The version of the format. -/
def version : UInt32 := 3

/-- The offset that leads nowhere. -/
def invalidOffset : UInt32 := 0xFFFFFFFF

/-- The bytes that records, chunks and shaders are aligned to. -/
def alignment : Nat := 4

/-- The start of every region; a backend without region has the invalid offset. -/
structure Header where
  magic : UInt32
  version : UInt32
  chunkCount : UInt32
  regions : PerBackend UInt64
  common : UInt64
  deriving DecidableEq, Repr

namespace Header

/-- The number of bytes of a header. -/
def size : Nat := 12 + 8 * (Backend.all.length + 1)

instance : Encode Header where
  encode h := encode h.magic ++ encode h.version ++ encode h.chunkCount
    ++ h.regions.toList.flatMap encode ++ encode h.common

/-- Where the region of a backend starts, if it has one. -/
def region? (h : Header) (b : Backend) : Option Nat :=
  let offset := (h.regions.get b).toNat
  if offset = invalidOffset.toNat then none else some offset

end Header

/-- The kind, size and place of a chunk. -/
structure ChunkHeader where
  kind : ChunkKind
  size : UInt32
  offset : UInt32
  deriving DecidableEq, Repr

namespace ChunkHeader

/-- The number of bytes of an entry of the directory. -/
def byteSize : Nat := 12

instance : Encode ChunkHeader := ⟨fun c => encode c.kind ++ encode c.size ++ encode c.offset⟩

end ChunkHeader

/-- The head of a record: its kind, given by its number, and the place of its data in the
region of each backend. -/
structure DataHeader where
  kind : UInt32
  offsets : PerBackend UInt32
  sizes : PerBackend UInt32
  deriving DecidableEq, Repr

namespace DataHeader

/-- The number of bytes of the head of a record. -/
def size : Nat := 4 + 8 * Backend.all.length

instance : Encode DataHeader where
  encode h := encode h.kind ++ h.offsets.toList.flatMap encode ++ h.sizes.toList.flatMap encode

end DataHeader

/-- The number of bytes of an entry of a chunk of names: the places of a name and a record,
and the size of the record. -/
def namedEntrySize : Nat := 12

/-- The number of bytes of an entry of a table of shaders: a place and a size. -/
def shaderEntrySize : Nat := 8

end PipelineArchive.Container
