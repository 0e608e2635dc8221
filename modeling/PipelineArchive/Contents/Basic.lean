import PipelineArchive.Contents.ShaderStore
import PipelineArchive.Contents.Table
import PipelineArchive.Patch.Pipeline

/-!
# Contents of an archive

Signatures and render passes are kept by name, pipelines by chunk and name, and shaders once
for each backend. What an item adds is gathered in a `Staging` first and enters the contents
in one step that cannot fail.
-/

set_option autoImplicit false

namespace PipelineArchive

/-- An archived signature: its description, and its data on each backend. -/
structure SignatureRecord where
  common : Bytes
  device : PerBackend (Option Bytes)
  deriving DecidableEq, Repr

namespace SignatureRecord

/-- A record without data. -/
def ofCommon (common : Bytes) : SignatureRecord := ⟨common, .replicate none⟩

/-- The backends that a record has data for. -/
def backends (r : SignatureRecord) : BackendSet := r.device.present

/-- A record with the data of another one where it has none. -/
def merge (r other : SignatureRecord) : SignatureRecord :=
  { r with device := .ofFn fun b => (r.device.get b).or (other.device.get b) }

end SignatureRecord

/-- What an archived pipeline is on one backend: the positions of its shaders, in pipeline
order, and its header. -/
structure DevicePipeline where
  shaders : List Nat
  header : Bytes
  deriving DecidableEq, Repr

/-- What a pipeline is on one backend after its shaders have moved. -/
def DevicePipeline.moved (moves : ShaderStore.Moves) (d : DevicePipeline) : DevicePipeline :=
  { d with shaders := d.shaders.map moves.follow }

/-- A pipeline with its data on each backend, of type `δ` where there is any. -/
structure ArchivedPipeline (δ : Type) where
  /-- Everything that the pipeline was described by. -/
  source : Bytes
  /-- The description that is archived. -/
  desc : Bytes
  signatures : List String
  renderPass : Option String
  layoutIds : List (Backend × UInt64)
  device : PerBackend (Option δ)
  deriving DecidableEq, Repr

/-- An archived pipeline. -/
abbrev PipelineRecord : Type := ArchivedPipeline DevicePipeline

/-- The backends that a pipeline has data for. -/
def ArchivedPipeline.backends {δ : Type} (p : ArchivedPipeline δ) : BackendSet := p.device.present

/-- The chunk and name that a pipeline is archived under. -/
abbrev PipelineKey : Type := ChunkKind × String

/-- Everything that one item adds. -/
structure Staging where
  signatures : List (String × SignatureRecord) := []
  /-- A signature made for the pipeline, which takes the place of any of its name. -/
  defaultSignature : Option (String × SignatureRecord) := none
  renderPass : Option (String × Bytes) := none
  pipeline : Option (PipelineKey × ArchivedPipeline PatchedPipeline) := none
  deriving DecidableEq, Repr

/-- Signatures with another one, merged with the one of its name if there is one. -/
def Staging.addTo (name : String) (record : SignatureRecord) :
    List (String × SignatureRecord) → List (String × SignatureRecord)
  | [] => [(name, record)]
  | (other, staged) :: rest =>
      if other = name then (other, staged.merge record) :: rest
      else (other, staged) :: addTo name record rest

/-- A staging with another signature. -/
def Staging.addSignature (s : Staging) (name : String) (record : SignatureRecord) : Staging :=
  { s with signatures := addTo name record s.signatures }

/-- The contents of an archive. -/
structure Contents where
  shaders : PerBackend ShaderStore
  signatures : Table String SignatureRecord
  renderPasses : Table String Bytes
  pipelines : Table PipelineKey PipelineRecord
  deriving DecidableEq, Repr

namespace Contents

/-- The contents of a new archive. -/
def empty : Contents := ⟨.replicate .empty, .empty, .empty, .empty⟩

/-- The signature of a name. -/
def signature? (c : Contents) (name : String) : Option SignatureRecord := c.signatures.get? name

/-- The pipeline of a chunk and name. -/
def pipeline? (c : Contents) (kind : ChunkKind) (name : String) : Option PipelineRecord :=
  c.pipelines.get? (kind, name)

/-- The archived signature of a name, which must have the given description if it exists. -/
def checkSignature (c : Contents) (name : String) (common : Bytes) :
    Except ArchiveError (Option SignatureRecord) :=
  match c.signatures.get? name with
  | none => .ok none
  | some record =>
      if record.common = common then .ok (some record)
      else .error (.duplicateName .signatures name)

/-- Whether a render pass of a name is archived, which must then have the given
description. -/
def checkRenderPass (c : Contents) (name : String) (desc : Bytes) : Except ArchiveError Bool :=
  match c.renderPasses.get? name with
  | none => .ok false
  | some archived =>
      if archived = desc then .ok true else .error (.duplicateName .renderPasses name)

/-! ## Committing -/

/-- Contents with a signature, merged with the one of its name. -/
def addSignature (c : Contents) (name : String) (record : SignatureRecord) : Contents :=
  let merged := match c.signatures.get? name with
    | some archived => archived.merge record
    | none => record
  { c with signatures := c.signatures.insert name merged }

/-- Contents with several signatures, each merged with the one of its name. -/
def addSignatures (c : Contents) (staged : List (String × SignatureRecord)) : Contents :=
  staged.foldl (fun c (name, record) => c.addSignature name record) c

/-- Contents with a signature in place of any of its name. -/
def replaceSignature (c : Contents) (name : String) (record : SignatureRecord) : Contents :=
  { c with signatures := c.signatures.insert name record }

/-- Contents with a render pass, unless there is one of its name. -/
def addRenderPass (c : Contents) (name : String) (desc : Bytes) : Contents :=
  match c.renderPasses.get? name with
  | some _ => c
  | none => { c with renderPasses := c.renderPasses.insert name desc }

/-- Whether a pipeline refers to the shader at a position of a backend. -/
def isReferenced (c : Contents) (b : Backend) (index : Nat) : Bool :=
  c.pipelines.values.any fun p => (p.device.get b).any fun d => d.shaders.contains index

/-- The shaders of a backend that pipelines refer to, and where each position has gone. A store
whose shaders are all referred to stays as it is. -/
def releasedStore (c : Contents) (b : Backend) : ShaderStore.Moves × ShaderStore :=
  let store := c.shaders.get b
  if (List.range store.size).all (c.isReferenced b) then ([], store)
  else store.compact (c.isReferenced b)

/-- A pipeline after the shaders of every backend have moved. -/
def renumbered (moves : PerBackend ShaderStore.Moves) (p : PipelineRecord) : PipelineRecord :=
  { p with device := .ofFn fun b => (p.device.get b).map (DevicePipeline.moved (moves.get b)) }

/-- Contents without the shaders that no pipeline refers to. -/
def releaseShaders (c : Contents) : Contents :=
  let released := PerBackend.ofFn c.releasedStore
  { c with
    shaders := released.map (·.2)
    pipelines := c.pipelines.mapValues (renumbered (released.map (·.1))) }

/-- The stores after the shaders of a pipeline are interned, and the pipeline as it refers to
them. -/
def internShaders (stores : PerBackend ShaderStore) (p : ArchivedPipeline PatchedPipeline) :
    PipelineRecord × PerBackend ShaderStore :=
  let interned (b : Backend) : Option DevicePipeline × ShaderStore :=
    match p.device.get b with
    | none => (none, stores.get b)
    | some patched =>
        let (indices, store) := (stores.get b).internAll patched.shaders
        (some ⟨indices, patched.header⟩, store)
  ({ p with device := .ofFn fun b => (interned b).1 }, .ofFn fun b => (interned b).2)

/-- Contents with a pipeline in place of any of its key, whose shaders are then released. -/
def addPipeline (c : Contents) (key : PipelineKey) (p : ArchivedPipeline PatchedPipeline) :
    Contents :=
  let (record, shaders) := internShaders c.shaders p
  let added := { c with shaders, pipelines := c.pipelines.insert key record }
  match c.pipelines.get? key with
  | some _ => added.releaseShaders
  | none => added

/-- Contents with everything that an item adds. -/
def commit (c : Contents) (s : Staging) : Contents :=
  let c := c.addSignatures s.signatures
  let c := match s.defaultSignature with
    | some (name, record) => c.replaceSignature name record
    | none => c
  let c := match s.renderPass with
    | some (name, desc) => c.addRenderPass name desc
    | none => c
  match s.pipeline with
  | some (key, p) => c.addPipeline key p
  | none => c

end Contents

end PipelineArchive
