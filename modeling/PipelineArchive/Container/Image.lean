import PipelineArchive.Container.Format
import PipelineArchive.Contents.Basic

/-!
# Writing archives

An archive is measured before it is written: `measure` predicts its size, and an archive that
is larger than allowed is refused. `write` then makes the pieces of the archive: the
directory, the common region, and the regions of the backends. Records stand in the order of
signatures, render passes and pipelines.
-/

set_option autoImplicit false

namespace PipelineArchive

/-- A finished archive, as the pieces that follow one another and the number of their bytes. -/
structure Image where
  pieces : List Bytes
  size : Nat
  deriving DecidableEq, Repr

/-- The bytes of an archive: its only piece, or all of them joined. -/
def Image.bytes (i : Image) : Bytes :=
  match i.pieces with
  | [piece] => piece
  | pieces => pieces.flatten

theorem Image.bytes_eq (i : Image) : i.bytes = i.pieces.flatten := by
  unfold bytes
  split
  · rename_i piece hpieces
    rw [hpieces, List.flatten_singleton]
  · rfl

namespace Container

/-- An item of the common region, with its data on each backend. -/
structure Record where
  kind : ChunkKind
  name : String
  payload : Bytes
  device : PerBackend (Option Bytes)
  deriving DecidableEq, Repr

/-- A number as a 32-bit word, which it must fit. -/
def word (n : Nat) : Except ArchiveError UInt32 :=
  if n < UInt32.size then .ok (UInt32.ofNat n) else .error (.inconsistent (.wideOffset n))

/-! ## Records -/

/-- The position of a signature that a pipeline refers to. -/
def signatureIndex (c : Contents) (pipeline name : String) : Except ArchiveError UInt32 :=
  match c.signatures.position? name with
  | some index => .ok (UInt32.ofNat index)
  | none => .error (.inconsistent (.missingSignature pipeline name))

/-- The position of the render pass that a pipeline refers to, or the invalid offset. -/
def renderPassIndex (c : Contents) (pipeline : String) :
    Option String → Except ArchiveError UInt32
  | none => .ok invalidOffset
  | some name =>
      match c.renderPasses.position? name with
      | some index => .ok (UInt32.ofNat index)
      | none => .error (.inconsistent (.missingRenderPass pipeline name))

/-- The data of a pipeline on one backend. -/
def deviceData (c : Contents) (pipeline : String) (b : Backend) (d : DevicePipeline) :
    Except ArchiveError Bytes :=
  let store := c.shaders.get b
  match d.shaders.find? fun index => store.size ≤ index with
  | some missing =>
      .error (.inconsistent (.missingShader pipeline b (UInt32.ofNat missing) store.size))
  | none => .ok (Encode.list (d.shaders.map UInt32.ofNat) ++ Encode.sized d.header)

/-- The record of a pipeline. -/
def pipelineRecord (c : Contents) (key : PipelineKey) (p : PipelineRecord) :
    Except ArchiveError Record := do
  let (kind, name) := key
  let signatures ← p.signatures.mapM (signatureIndex c name)
  let renderPass ← renderPassIndex c name p.renderPass
  let device ← PerBackend.ofFnM fun b => (p.device.get b).mapM (deviceData c name b)
  return {
    kind
    name
    payload := Encode.sized p.desc ++ Encode.list signatures ++ encode renderPass
      ++ Encode.count p.layoutIds.length ++ p.layoutIds.flatMap fun (b, id) => encode b ++ encode id
    device }

/-- All records in archive order. -/
def records (c : Contents) : Except ArchiveError (List Record) := do
  let signatures := c.signatures.entries.map fun (name, r) =>
    (⟨.signatures, name, r.common, r.device⟩ : Record)
  let renderPasses := c.renderPasses.entries.map fun (name, desc) =>
    (⟨.renderPasses, name, desc, .replicate none⟩ : Record)
  let pipelines ← c.pipelines.entries.mapM fun (key, p) => pipelineRecord c key p
  return signatures ++ renderPasses ++ pipelines

/-! ## Measuring -/

/-- The number of bytes that a byte string takes with its padding. -/
def paddedSize (size : Nat) : Nat := Bytes.alignedSize alignment size

/-- The number of bytes of data that follow one another, given the size of each. -/
def totalSize : List Nat → Nat
  | [] => 0
  | size :: rest => size + totalSize rest

/-- The size of the chunk that lists records by name. -/
def namedChunkSize (entries : List Record) : Nat :=
  let names := totalSize (entries.map fun r => (Bytes.ofText r.name).length + 1)
  paddedSize (4 + namedEntrySize * entries.length + names)

/-- The kinds of named records. -/
def namedKinds : List ChunkKind := ChunkKind.all.filter ChunkKind.isNamed

/-- The records of one kind. -/
def recordsOf (records : List Record) (kind : ChunkKind) : List Record :=
  records.filter fun r => r.kind == kind

/-- Whether any backend has shaders. -/
def hasShaders (c : Contents) : Bool := Backend.all.any fun b => 0 < (c.shaders.get b).size

/-- The sizes of the chunks. -/
def chunkSizes (c : Contents) (records : List Record) (builder : Option String) : List Nat :=
  builder.toList.map (fun id => paddedSize (8 + (Bytes.ofText id).length))
    ++ ((namedKinds.map (recordsOf records)).filter fun entries => !entries.isEmpty).map
      namedChunkSize
    ++ (if hasShaders c then [shaderEntrySize * Backend.all.length] else [])

/-- The size of the region of a backend. -/
def regionSize (c : Contents) (records : List Record) (b : Backend) : Nat :=
  let data := (records.filterMap fun r => r.device.get b).map fun d => paddedSize d.length
  let store := c.shaders.get b
  let shaders :=
    if store.size = 0 then 0
    else
      4 + shaderEntrySize * store.size
        + totalSize (store.shaders.map fun s => paddedSize s.length)
  totalSize data + shaders

/-- The size of the whole archive. -/
def measure (c : Contents) (records : List Record) (builder : Option String) : Nat :=
  let chunks := chunkSizes c records builder
  let directory := Header.size + ChunkHeader.byteSize * chunks.length + totalSize chunks
  let common := totalSize (records.map fun r => paddedSize (DataHeader.size + r.payload.length))
  directory + common + totalSize (Backend.all.map (regionSize c records))

/-! ## Writing -/

/-- The places of data that follow one another from an offset, each with its padding. -/
def placesFrom : Nat → List (Option Bytes) → List (Option (Nat × Nat))
  | _, [] => []
  | offset, none :: rest => none :: placesFrom offset rest
  | offset, some data :: rest =>
      some (offset, data.length) :: placesFrom (offset + paddedSize data.length) rest

/-- Data that follow one another, each with its padding. -/
def packed (data : List (Option Bytes)) : Bytes :=
  data.flatMap fun d => (d.map (Bytes.padTo alignment)).getD []

/-- The entries of a table of shaders that follow one another from an offset. -/
def shaderEntries : Nat → List Bytes → Except ArchiveError Bytes
  | _, [] => .ok []
  | offset, shader :: rest => do
      let entry := encode (← word offset) ++ encode (← word shader.length)
      return entry ++ (← shaderEntries (offset + paddedSize shader.length) rest)

/-- The region of a backend: its pieces, and the place of its table of shaders. -/
structure Region where
  pieces : List Bytes
  table : UInt32 × UInt32
  deriving DecidableEq, Repr

/-- The number of bytes of a region. -/
def Region.size (r : Region) : Nat := r.pieces.flatten.length

/-- The region of a backend. -/
def region (c : Contents) (records : List Record) (b : Backend) : Except ArchiveError Region := do
  let head := packed (records.map fun r => r.device.get b)
  let shaders := (c.shaders.get b).shaders
  if shaders.isEmpty then return ⟨[head], (invalidOffset, 0)⟩
  let first := head.length + 4 + shaderEntrySize * shaders.length
  let entries ← shaderEntries first shaders
  let size := first - head.length + totalSize (shaders.map fun s => paddedSize s.length)
  let table := (← word head.length, ← word size)
  let pieces := shaders.flatMap fun s =>
    [s, List.replicate (Bytes.padding alignment s.length) 0]
  return ⟨(head ++ Encode.count shaders.length ++ entries) :: pieces, table⟩

/-- The place of the data of a record as it is written. -/
def placeWords : Option (Nat × Nat) → Except ArchiveError (UInt32 × UInt32)
  | none => .ok (invalidOffset, 0)
  | some (offset, size) => return (← word offset, ← word size)

/-- A record with its head, given the places of its data. -/
def recordBytes (r : Record) (places : PerBackend (Option (Nat × Nat))) :
    Except ArchiveError Bytes := do
  let words ← PerBackend.ofFnM fun b => placeWords (places.get b)
  let header : DataHeader :=
    ⟨UInt32.ofNat r.kind.ordinal, words.map (·.1), words.map (·.2)⟩
  return encode header ++ r.payload

/-- The records of the common region, without padding. -/
def commonRecords (records : List Record) : Except ArchiveError (List Bytes) :=
  let places := PerBackend.ofFn fun b => placesFrom 0 (records.map fun r => r.device.get b)
  records.zipIdx.mapM fun (r, i) => recordBytes r (places.map fun p => (p[i]?).join)

/-- The entries of a chunk of names: the place of each name and of each record. -/
def namedEntries : Nat → List (Record × Nat × Nat) → Except ArchiveError Bytes
  | _, [] => .ok []
  | nameOffset, (r, offset, size) :: rest => do
      let entry := encode (← word nameOffset) ++ encode (← word offset) ++ encode (← word size)
      return entry ++ (← namedEntries (nameOffset + (Bytes.ofText r.name).length + 1) rest)

/-- The chunk that lists records, given with their places, by name. -/
def namedChunk (entries : List (Record × Nat × Nat)) : Except ArchiveError Bytes := do
  let table ← namedEntries (4 + namedEntrySize * entries.length) entries
  let names := entries.flatMap fun (r, _) => Bytes.ofText r.name ++ [0]
  return Bytes.padTo alignment (Encode.count entries.length ++ table ++ names)

/-- The chunk that says who built an archive. -/
def debugChunk (builder : String) : Bytes :=
  Bytes.padTo alignment (encode version ++ encode builder)

/-- The chunk that holds the place of every table of shaders. -/
def shadersChunk (regions : PerBackend Region) : Bytes :=
  regions.toList.flatMap fun r => encode r.table.1 ++ encode r.table.2

/-- Whether any region has a table of shaders. -/
def hasTables (regions : PerBackend Region) : Bool :=
  regions.toList.any fun r => r.table.1 != invalidOffset

/-- The chunks of an archive, given the records with their places. -/
def chunks (builder : Option String) (placed : List (Record × Nat × Nat))
    (regions : PerBackend Region) : Except ArchiveError (List (ChunkKind × Bytes)) := do
  let debug := builder.toList.map fun id => (ChunkKind.debugInfo, debugChunk id)
  let present := (namedKinds.map fun kind =>
    (kind, placed.filter fun (r, _) => r.kind == kind)).filter fun (_, entries) => !entries.isEmpty
  let named ← present.mapM fun (kind, entries) => return (kind, ← namedChunk entries)
  let shaders := if hasTables regions then [(ChunkKind.shaders, shadersChunk regions)] else []
  return debug ++ named ++ shaders

/-- The directory entries of chunks that follow one another from an offset. -/
def chunkHeaders : Nat → List (ChunkKind × Bytes) → Except ArchiveError Bytes
  | _, [] => .ok []
  | offset, (kind, body) :: rest => do
      let header : ChunkHeader := ⟨kind, ← word body.length, ← word offset⟩
      return encode header ++ (← chunkHeaders (offset + body.length) rest)

/-- The starts of regions that follow one another from an offset; empty ones have none. -/
def regionStarts : Nat → List Nat → List Nat
  | _, [] => []
  | offset, size :: rest =>
      (if size = 0 then invalidOffset.toNat else offset) :: regionStarts (offset + size) rest

/-- The pieces of an archive. -/
def write (c : Contents) (records : List Record) (builder : Option String) :
    Except ArchiveError Image := do
  let bodies ← commonRecords records
  let sizes := bodies.map List.length
  let offsets := (placesFrom 0 (bodies.map some)).map fun p => (p.map (·.1)).getD 0
  let common := packed (bodies.map some)
  let regions ← PerBackend.ofFnM (region c records)
  let chunks ← chunks builder (records.zip (offsets.zip sizes)) regions
  let chunksStart := Header.size + ChunkHeader.byteSize * chunks.length
  let directorySize := chunksStart + totalSize (chunks.map fun (_, body) => body.length)
  let starts := regionStarts (directorySize + common.length) (regions.toList.map Region.size)
  let header : Header := {
    magic
    version
    chunkCount := ← word chunks.length
    regions := .ofFn fun b => UInt64.ofNat (starts.getD b.ordinal 0)
    common := UInt64.ofNat directorySize }
  let directory := encode header ++ (← chunkHeaders chunksStart chunks)
    ++ chunks.flatMap fun (_, body) => body
  let pieces := ([directory, common] ++ regions.toList.flatMap Region.pieces).filter fun piece =>
    !piece.isEmpty
  return ⟨pieces, totalSize (pieces.map List.length)⟩

/-- The archive of some contents, which must not be larger than a limit. -/
def build (c : Contents) (builder : Option String) (sizeLimit : Nat) :
    Except ArchiveError Image := do
  let records ← records c
  let predicted := measure c records builder
  if sizeLimit < predicted then throw (.tooLarge predicted)
  let image ← write c records builder
  let written := totalSize (image.pieces.map List.length)
  if written ≠ predicted then throw (.inconsistent (.sizeMismatch predicted written))
  return image

end Container

end PipelineArchive
