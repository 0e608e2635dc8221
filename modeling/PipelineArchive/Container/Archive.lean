import PipelineArchive.Container.Format
import PipelineArchive.Container.ReadError
import PipelineArchive.Description.Stage

/-!
# Reading archives

`Archive.ofBytes` reads the header and the chunks of an archive; the records and shaders are
read when they are asked for. Every offset is checked before it is followed. An offset plus a
size that does not fit 64 bits counts as the largest number that does.
-/

set_option autoImplicit false

namespace PipelineArchive.Container

/-- A reader that gives up at the first error. -/
abbrev Read (α : Type) : Type := StateT Cursor (Except ReadError) α

namespace Read

variable {α : Type}

/-- The reader that decodes a value. -/
def ofDecoder (d : Decoder α) : Read α := fun c =>
  match d c with
  | (.ok value, c) => .ok (value, c)
  | (.error e, _) => .error (.malformed e)

/-- What a reader reads from the start of a byte string. -/
def value? (r : Read α) (bytes : Bytes) : Except ReadError α :=
  (r (.start bytes)).map (·.1)

/-- A word of 32 bits. -/
def u32 : Read UInt32 := ofDecoder .u32

/-- A word of 64 bits. -/
def u64 : Read UInt64 := ofDecoder .u64

end Read

/-! ## Offsets -/

/-- The largest offset. -/
def maxOffset : Nat := UInt64.size - 1

/-- The sum of an offset and a size, or the largest offset. -/
def saturatingAdd (offset size : Nat) : Nat := min (offset + size) maxOffset

/-- The bytes from `start` to `stop`, which must lie in the byte string. -/
def sliceBetween (bytes : Bytes) (start stop : Nat) : Except ReadError Bytes :=
  if start ≤ stop ∧ stop ≤ bytes.length then .ok (bytes.slice start (stop - start))
  else .error (.badSlice start stop bytes.length)

/-- A part of a byte string, which must lie in it. -/
def slicePart (bytes : Bytes) (offset size : Nat) (part : Part) : Except ReadError Bytes :=
  let stop := saturatingAdd offset size
  if bytes.length < stop then
    .error (.outOfBounds part offset stop (.available bytes.length))
  else sliceBetween bytes offset stop

/-! ## The directory -/

/-- The name and place of a record in the common region. -/
structure NamedEntry where
  name : String
  offset : UInt32
  size : UInt32
  deriving DecidableEq, Repr

/-- Who built an archive. -/
structure DebugInfo where
  version : UInt32
  builder : String
  deriving DecidableEq, Repr

/-- What a chunk holds. -/
inductive ChunkBody where
  | debugInfo (info : DebugInfo)
  | shaders (tables : PerBackend (Option (UInt32 × UInt32)))
  | named (entries : List NamedEntry)
  deriving DecidableEq, Repr

/-- An archive whose header and chunks have been read. -/
structure Archive where
  data : Bytes
  header : Header
  chunks : List (ChunkHeader × ChunkBody)
  deriving DecidableEq, Repr

namespace Header

/-- Reads a header. -/
def read : Read Header := do
  let magic ← Read.u32
  let version ← Read.u32
  let chunkCount ← Read.u32
  let regions ← PerBackend.ofFnM fun _ => Read.u64
  let common ← Read.u64
  return ⟨magic, version, chunkCount, regions, common⟩

end Header

namespace ChunkHeader

/-- Reads as many entries of a directory as asked for; a kind must not occur twice. -/
def readAll : Nat → List ChunkHeader → Read (List ChunkHeader)
  | 0, _ => return []
  | count + 1, seen => do
      let number ← Read.u32
      let size ← Read.u32
      let offset ← Read.u32
      match ChunkKind.ofOrdinal? number.toNat with
      | none => throw (.unknownChunk number)
      | some kind =>
          if seen.any fun other => other.kind == kind then throw (.duplicateChunk kind)
          let header : ChunkHeader := ⟨kind, size, offset⟩
          let rest ← readAll count (header :: seen)
          return header :: rest

end ChunkHeader

namespace ChunkBody

/-- The name that stands at an offset of a chunk. -/
def nameAt (kind : ChunkKind) (body : Bytes) (offset : Nat) : Except ReadError String :=
  let bytes := body.drop offset
  if bytes.contains 0 then
    (Utf8.decode? (bytes.takeWhile (· ≠ 0))).mapError fun e => .inconsistent (.badName kind e)
  else .error (.inconsistent (.unterminatedName kind))

/-- Reads as many entries of a chunk of names as asked for. -/
def readEntries (kind : ChunkKind) (body : Bytes) : Nat → Read (List NamedEntry)
  | 0 => return []
  | count + 1 => do
      let nameOffset ← Read.u32
      let offset ← Read.u32
      let size ← Read.u32
      let name ← (nameAt kind body nameOffset.toNat : Except ReadError String)
      let rest ← readEntries kind body count
      return ⟨name, offset, size⟩ :: rest

/-- Reads the place of a table of shaders, if there is one. -/
def readTable : Read (Option (UInt32 × UInt32)) := do
  let offset ← Read.u32
  let size ← Read.u32
  return if offset = invalidOffset then none else some (offset, size)

/-- Reads a chunk of a kind. -/
def read (kind : ChunkKind) (body : Bytes) : Read ChunkBody :=
  match kind with
  | .debugInfo => do
      let version ← Read.u32
      let builder ← Read.ofDecoder .text
      return .debugInfo ⟨version, builder⟩
  | .shaders => do return .shaders (← PerBackend.ofFnM fun _ => readTable)
  | kind => do
      let count ← Read.ofDecoder (.count namedEntrySize)
      return .named (← readEntries kind body count)

end ChunkBody

namespace Archive

/-- Reads the chunk that a directory entry leads to. -/
def readChunk (data : Bytes) (header : ChunkHeader) :
    Except ReadError (ChunkHeader × ChunkBody) := do
  let body ← slicePart data header.offset.toNat header.size.toNat (.chunk header.kind)
  return (header, ← (ChunkBody.read header.kind body).value? body)

/-- Reads an archive, which must have the given version. -/
def ofBytesOfVersion (data : Bytes) (expected : UInt32) : Except ReadError Archive := do
  let (header, cursor) ← Header.read (.start data)
  if header.magic ≠ magic then throw (.badMagic header.magic)
  if header.version ≠ expected then throw (.versionMismatch header.version expected)
  let (directory, _) ← ChunkHeader.readAll header.chunkCount.toNat [] cursor
  return ⟨data, header, ← directory.mapM (readChunk data)⟩

/-- Reads an archive of the current version. -/
def ofBytes (data : Bytes) : Except ReadError Archive := ofBytesOfVersion data Container.version

/-- The chunk of a kind. -/
def chunk? (a : Archive) (kind : ChunkKind) : Option ChunkBody :=
  (a.chunks.find? fun (header, _) => header.kind == kind).map (·.2)

/-- Who built the archive, if it says so. -/
def debugInfo? (a : Archive) : Option DebugInfo :=
  match a.chunk? .debugInfo with
  | some (.debugInfo info) => some info
  | _ => none

/-- The entries of a chunk of names, in archive order. -/
def entries (a : Archive) (kind : ChunkKind) : List NamedEntry :=
  match a.chunk? kind with
  | some (.named entries) => entries
  | _ => []

/-- The place of the table of shaders of a backend. -/
def shaderTable? (a : Archive) (b : Backend) : Option (UInt32 × UInt32) :=
  match a.chunk? .shaders with
  | some (.shaders tables) => tables.get b
  | _ => none

/-- The entry of a name. -/
def find? (a : Archive) (kind : ChunkKind) (name : String) : Option NamedEntry :=
  (a.entries kind).find? fun e => e.name == name

/-- The entry of a name, which must exist. -/
def lookup (a : Archive) (kind : ChunkKind) (name : String) : Except ReadError NamedEntry :=
  match a.find? kind name with
  | some entry => .ok entry
  | none => .error (.notFound kind name)

/-! ## Records -/

/-- A record of the common region. -/
structure RecordView where
  header : DataHeader
  payload : Bytes
  deriving DecidableEq, Repr

/-- Reads the head of a record. -/
def readDataHeader : Read DataHeader := do
  let kind ← Read.u32
  let offsets ← PerBackend.ofFnM fun _ => Read.u32
  let sizes ← PerBackend.ofFnM fun _ => Read.u32
  return ⟨kind, offsets, sizes⟩

/-- The record that an entry leads to. -/
def record (a : Archive) (kind : ChunkKind) (entry : NamedEntry) : Except ReadError RecordView := do
  let start := saturatingAdd a.header.common.toNat entry.offset.toNat
  let bytes ← slicePart a.data start entry.size.toNat (.record kind entry.name)
  let header ← readDataHeader.value? bytes
  if header.kind ≠ UInt32.ofNat kind.ordinal then
    throw (.inconsistent (.otherKind kind entry.name header.kind))
  return ⟨header, ← sliceBetween bytes DataHeader.size bytes.length⟩

/-- Where a region that starts at `start` ends: at the least start of a region of the backends
that follow, or at the end of the archive. -/
def regionEnd (a : Archive) (b : Backend) : Nat :=
  (((Backend.all.drop (b.ordinal + 1)).filterMap a.header.region?).min?).getD a.data.length

/-- The data of a record on one backend. -/
def deviceData? (a : Archive) (b : Backend) (r : RecordView) (name : String) :
    Except ReadError (Option Bytes) :=
  if r.header.offsets.get b = invalidOffset then .ok none
  else
    match a.header.region? b with
    | none => .error (.inconsistent (.dataWithoutRegion name b))
    | some start =>
        let stop := a.regionEnd b
        let first := saturatingAdd start (r.header.offsets.get b).toNat
        let last := saturatingAdd first (r.header.sizes.get b).toNat
        if stop < last then
          .error (.outOfBounds (.data b name) first last (.region b start stop))
        else (sliceBetween a.data first last).map some

/-- An archived signature. -/
structure SignatureView where
  common : Bytes
  device : PerBackend (Option Bytes)
  deriving DecidableEq, Repr

/-- The signature of a name. -/
def signature (a : Archive) (name : String) : Except ReadError SignatureView := do
  let entry ← a.lookup .signatures name
  let record ← a.record .signatures entry
  let device ← PerBackend.ofFnM fun b => a.deviceData? b record name
  return ⟨record.payload, device⟩

/-- The description of the render pass of a name. -/
def renderPass (a : Archive) (name : String) : Except ReadError Bytes := do
  let entry ← a.lookup .renderPasses name
  return (← a.record .renderPasses entry).payload

/-! ## Pipelines -/

/-- What a pipeline is on one backend: the positions of its shaders, and its header. -/
structure DeviceView where
  shaders : List UInt32
  header : Bytes
  deriving DecidableEq, Repr

/-- An archived pipeline. Signatures and the render pass are positions in their chunks. -/
structure PipelineView where
  desc : Bytes
  signatures : List UInt32
  renderPass : Option UInt32
  layoutIds : List (Backend × UInt64)
  device : PerBackend (Option DeviceView)
  deriving DecidableEq, Repr

/-- Reads a list of words after its length. -/
def readIndices : Read (List UInt32) := Read.ofDecoder .words

/-- Reads as many layout identities as asked for. -/
def readLayoutIds (pipeline : String) : Nat → Read (List (Backend × UInt64))
  | 0 => return []
  | count + 1 => do
      let number ← Read.u32
      match Backend.ofOrdinal? number.toNat with
      | none => throw (.inconsistent (.unknownLayoutBackend pipeline number))
      | some b =>
          let id ← Read.u64
          let rest ← readLayoutIds pipeline count
          return (b, id) :: rest

/-- Reads the payload of a pipeline: all of it but its data on backends. -/
def readPipeline (name : String) : Read PipelineView := do
  let desc ← Read.ofDecoder .sized
  let signatures ← readIndices
  let renderPass ← Read.u32
  let count ← Read.ofDecoder (.count 12)
  let layoutIds ← readLayoutIds name count
  return {
    desc
    signatures
    renderPass := if renderPass = invalidOffset then none else some renderPass
    layoutIds
    device := .replicate none }

/-- Reads the data of a pipeline on one backend. -/
def readDevice : Read DeviceView := do
  let shaders ← readIndices
  let header ← Read.ofDecoder .sized
  return ⟨shaders, header⟩

/-- The pipeline of a chunk and name. -/
def pipeline (a : Archive) (kind : ChunkKind) (name : String) : Except ReadError PipelineView := do
  let entry ← a.lookup kind name
  let record ← a.record kind entry
  let view ← (readPipeline name).value? record.payload
  let device ← PerBackend.ofFnM fun b => do
    match ← a.deviceData? b record name with
    | none => return none
    | some data => return some (← readDevice.value? data)
  return { view with device }

/-! ## Shaders -/

/-- An archived shader. -/
structure ShaderView where
  stage : ShaderStage
  entryPoint : String
  /-- The number of the language it was compiled from. -/
  language : UInt32
  code : Bytes
  deriving DecidableEq, Repr

/-- Reads a shader record. -/
def readShader (b : Backend) (index : Nat) : Read ShaderView := do
  let bits ← Read.u32
  match ShaderStage.all.find? fun stage => (StageSet.singleton stage).bits == bits with
  | none => throw (.inconsistent (.badStage b index))
  | some stage =>
      let entryPoint ← Read.ofDecoder .text
      let language ← Read.u32
      let code ← Read.ofDecoder .sized
      return ⟨stage, entryPoint, language, code⟩

/-- Reads the shaders that a table of a region lists, from the `index`-th on. -/
def readShaders (b : Backend) (region : Bytes) : Nat → Nat → Read (List ShaderView)
  | _, 0 => return []
  | index, count + 1 => do
      let offset ← Read.u32
      let size ← Read.u32
      let bytes ← (slicePart region offset.toNat size.toNat (.shader b index) :
        Except ReadError Bytes)
      let shader ← ((readShader b index).value? bytes : Except ReadError ShaderView)
      let rest ← readShaders b region (index + 1) count
      return shader :: rest

/-- The shaders of a backend, in archive order. -/
def shaders (a : Archive) (b : Backend) : Except ReadError (List ShaderView) := do
  match a.shaderTable? b with
  | none => return []
  | some (offset, size) =>
      match a.header.region? b with
      | none => throw (.inconsistent (.shadersWithoutRegion b))
      | some start =>
          let stop := a.regionEnd b
          let first := saturatingAdd start offset.toNat
          let last := saturatingAdd first size.toNat
          if stop < last then
            throw (.outOfBounds (.shaderTable b) first last (.region b start stop))
          let region ← sliceBetween a.data start stop
          let table ← sliceBetween region offset.toNat region.length
          let read : Read (List ShaderView) := do
            let count ← Read.ofDecoder (.count shaderEntrySize)
            readShaders b region 0 count
          read.value? table

end Archive

end PipelineArchive.Container
