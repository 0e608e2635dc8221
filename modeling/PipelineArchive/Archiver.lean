import PipelineArchive.Container.Image
import PipelineArchive.Contents.Cache
import PipelineArchive.Layout.Matching
import PipelineArchive.Layout.Synthesis
import PipelineArchive.Transcoder.Compile

/-!
# The archiver

Pipelines, signatures and render passes are added one by one. An item is checked, its shaders
are compiled for all its backends, and everything it adds is staged; the contents change only
if all of this succeeds. Adding an item again changes nothing, and adding it for more backends
extends it. The state of the transcoders is handed on by every call, also by one that fails.
-/

set_option autoImplicit false

namespace PipelineArchive

/-- The text that says who built an archive. -/
def builderId : String := "pso-archiver 1.0.0"

/-- The largest archive that 32-bit offsets can address. -/
def maxArchiveSize : Nat := UInt32.size - 1

/-- What has been added so far, with what is needed to add more. -/
structure Archiver (σ : Type) where
  registry : Registry σ
  config : Config
  contents : Contents
  cache : TranscodeCache

/-- The shaders of a pipeline compiled for one backend. -/
structure BackendShaders where
  backend : Backend
  shaders : List CompiledShader
  deriving DecidableEq, Repr

namespace Archiver

variable {σ : Type}

/-- An archiver to which nothing has been added. -/
def new (registry : Registry σ) (config : Config) : Archiver σ := ⟨registry, config, .empty, .empty⟩

/-! ## Compiling -/

/-- Compiles a shader, unless it is in the cache or among the `fresh` ones that the current
item has compiled; a shader compiled here joins these. -/
def transcode (a : Archiver σ) (b : Backend) (shader : Shader) (fresh : TranscodeCache)
    (state : σ) : Except ArchiveError (CompiledShader × TranscodeCache) × σ :=
  match (a.cache.get? b shader.key).or (fresh.get? b shader.key) with
  | some compiled => (.ok (compiled, fresh), state)
  | none =>
      match a.registry.compile a.config b shader state with
      | (.error e, state) => (.error e, state)
      | (.ok compiled, state) => (.ok (compiled, fresh.insert b shader.key compiled), state)

/-- Compiles shaders for one backend. -/
def transcodeShaders (a : Archiver σ) (b : Backend) :
    List Shader → TranscodeCache → σ →
      Except ArchiveError (List CompiledShader × TranscodeCache) × σ
  | [], fresh, state => (.ok ([], fresh), state)
  | shader :: rest, fresh, state =>
      match a.transcode b shader fresh state with
      | (.error e, state) => (.error e, state)
      | (.ok (compiled, fresh), state) =>
          match a.transcodeShaders b rest fresh state with
          | (.error e, state) => (.error e, state)
          | (.ok (others, fresh), state) => (.ok (compiled :: others, fresh), state)

/-- Compiles shaders for several backends. -/
def transcodeAll (a : Archiver σ) (shaders : List Shader) :
    List Backend → TranscodeCache → σ →
      Except ArchiveError (List BackendShaders × TranscodeCache) × σ
  | [], fresh, state => (.ok ([], fresh), state)
  | b :: rest, fresh, state =>
      match a.transcodeShaders b shaders fresh state with
      | (.error e, state) => (.error e, state)
      | (.ok (compiled, fresh), state) =>
          match a.transcodeAll shaders rest fresh state with
          | (.error e, state) => (.error e, state)
          | (.ok (others, fresh), state) => (.ok (⟨b, compiled⟩ :: others, fresh), state)

/-! ## Signatures -/

/-- The data of a signature on one backend; data that is archived is used again. -/
def dataFor (signature : Signature) (archived : Option SignatureRecord) (b : Backend) :
    Except ArchiveError Bytes :=
  match archived.bind fun r => r.device.get b with
  | some data => .ok data
  | none => Patch.signatureData b signature

/-- The record of a signature with data for some backends. -/
def signatureRecord (signature : Signature) (archived : Option SignatureRecord)
    (backends : List Backend) : Except ArchiveError SignatureRecord :=
  backends.foldlM
    (fun record b => do
      let data ← dataFor signature archived b
      return { record with device := record.device.set b (some data) })
    (SignatureRecord.ofCommon (encode signature))

/-- Stages one of the signatures given for a pipeline. -/
def stageSignature (c : Contents) (backends : List Backend) (staging : Staging)
    (signature : Signature) : Except ArchiveError Staging := do
  let common := encode signature
  if let some staged := staging.signatures.lookup signature.name then
    if staged.common ≠ common then throw (.duplicateName .signatures signature.name)
  let archived ← c.checkSignature signature.name common
  let record ← signatureRecord signature archived backends
  return staging.addSignature signature.name record

/-- Stages the signatures given for a pipeline, which must fit its shaders. -/
def stageSignatures (c : Contents) (signatures : List Signature)
    (compiled : List BackendShaders) : Except ArchiveError Staging := do
  Signature.checkIndices signatures
  compiled.forM fun s => s.shaders.forM fun shader =>
    Signature.checkReflection signatures shader.reflection
  signatures.foldlM (stageSignature c (compiled.map (·.backend))) {}

/-- The archived record of a signature that is made for a pipeline. One of its name with another
description gives way if the pipeline is archived already. -/
def archivedDefault (c : Contents) (signature : Signature) (isExtension : Bool) :
    Except ArchiveError (Option SignatureRecord) :=
  match c.signature? signature.name with
  | none => .ok none
  | some record =>
      if record.common = encode signature then .ok (some record)
      else if isExtension then .ok none
      else .error (.duplicateName .signatures signature.name)

/-- The signature made for a pipeline from its shaders on all backends but those of OpenGL,
with what it adds; a pipeline for OpenGL alone has none. -/
def stageDefaultSignature (c : Contents) (p : Pipeline) (isExtension : Bool)
    (compiled : List BackendShaders) : Except ArchiveError (Option Signature × Staging) := do
  let others := compiled.filter fun s => !s.backend.isGl
  if others.isEmpty then return (none, {})
  let reflections := others.flatMap fun s => s.shaders.map (·.reflection)
  let signature ← Signature.synthesize p.name reflections p.common.layout
  let archived ← archivedDefault c signature isExtension
  let record ← signatureRecord signature archived (others.map (·.backend))
  return (some signature, { defaultSignature := some (signature.name, record) })

/-- The signatures that a pipeline is bound by, in binding order, with what they add. -/
def resolveSignatures (c : Contents) (p : Pipeline) (isExtension : Bool)
    (compiled : List BackendShaders) : Except ArchiveError (List Signature × Staging) :=
  if p.common.signatures.isEmpty then
    (stageDefaultSignature c p isExtension compiled).map fun (signature, staging) =>
      (signature.toList, staging)
  else
    (stageSignatures c p.common.signatures compiled).map fun staging =>
      (Signature.inBindingOrder p.common.signatures, staging)

/-! ## Pipelines -/

/-- The signatures that a pipeline is laid out with on one backend. OpenGL has a signature of
its own, made from its own shaders, where none are given. -/
def layoutSignatures (p : Pipeline) (signatures : List Signature) (s : BackendShaders) :
    Except ArchiveError (List Signature) :=
  if s.backend.isGl ∧ p.common.signatures.isEmpty then
    (Signature.synthesize p.name (s.shaders.map (·.reflection)) p.common.layout).map ([·])
  else .ok signatures

/-- A pipeline on one backend, with the identity of its layout. -/
def patchFor (p : Pipeline) (signatures : List Signature) (s : BackendShaders) :
    Except ArchiveError (Backend × UInt64 × PatchedPipeline) := do
  let signatures ← layoutSignatures p signatures s
  let layout ← PipelineLayout.ofSignatures s.backend signatures
  let patched ← Patch.patchPipeline s.backend layout s.shaders
  return (s.backend, layout.id, patched)

/-- The render pass that a pipeline adds, if it is not archived yet. -/
def stageRenderPass (c : Contents) :
    Option RenderPass → Except ArchiveError (Option (String × Bytes))
  | none => .ok none
  | some pass => do
      let desc := encode pass
      if ← c.checkRenderPass pass.name desc then return none
      else return some (pass.name, desc)

/-- What is archived of a pipeline that is bound by signatures and patched for some backends. -/
def archived (p : Pipeline) (signatures : List Signature)
    (patched : List (Backend × UInt64 × PatchedPipeline)) : ArchivedPipeline PatchedPipeline where
  source := p.source
  desc := encode p
  signatures := signatures.map (·.name)
  renderPass := p.renderPass?.map (·.name)
  layoutIds := patched.map fun (b, id, _) => (b, id)
  device := .ofFn fun b => (patched.find? fun (other, _) => other == b).map (·.2.2)

/-- Everything that a pipeline with compiled shaders adds. -/
def stagePipeline (c : Contents) (p : Pipeline) (isExtension : Bool)
    (compiled : List BackendShaders) : Except ArchiveError Staging := do
  let (signatures, staging) ← resolveSignatures c p isExtension compiled
  let patched ← compiled.mapM (patchFor p signatures)
  let renderPass ← stageRenderPass c p.renderPass?
  return { staging with
    renderPass
    pipeline := some ((p.chunk, p.name), archived p signatures patched) }

/-- The backends that a pipeline is to be compiled for: those asked for and those it is
archived for. There are none if it is archived for all that are asked for. -/
def pendingBackends (c : Contents) (p : Pipeline) (backends : BackendSet) :
    Except ArchiveError (Option (BackendSet × Bool)) :=
  match c.pipeline? p.chunk p.name with
  | none => .ok (some (backends, false))
  | some archived =>
      if archived.source ≠ p.source then .error (.duplicateName p.chunk p.name)
      else if archived.backends.includes backends then .ok none
      else .ok (some (backends.union archived.backends, true))

/-- The checks that come before any shader is compiled. -/
def preparePipeline (c : Contents) (p : Pipeline) (backends : BackendSet) :
    Except ArchiveError (Option (BackendSet × Bool)) := do
  p.check.mapError .description
  if backends.isEmpty then throw (.description (.noPipelineBackends p.name))
  pendingBackends c p backends

/-- A pipeline that is to be archived, compiled for all its backends. -/
structure CompiledPipeline where
  /-- The pipeline takes the place of an archived one. -/
  isExtension : Bool
  shaders : List BackendShaders
  /-- The shaders that were not in the cache. -/
  fresh : TranscodeCache

/-- Checks and compiles a pipeline, unless it is archived for all backends that are asked for. -/
def compilePipeline (a : Archiver σ) (p : Pipeline) (backends : BackendSet) (state : σ) :
    Except ArchiveError (Option CompiledPipeline) × σ :=
  match preparePipeline a.contents p backends with
  | .error e => (.error e, state)
  | .ok none => (.ok none, state)
  | .ok (some (backends, isExtension)) =>
      match a.transcodeAll p.shaders backends.toList .empty state with
      | (.error e, state) => (.error e, state)
      | (.ok (shaders, fresh), state) => (.ok (some ⟨isExtension, shaders, fresh⟩), state)

/-- Adds a pipeline for some backends. -/
def addPipeline (a : Archiver σ) (p : Pipeline) (backends : BackendSet) (state : σ) :
    Except ArchiveError Unit × Archiver σ × σ :=
  match a.compilePipeline p backends state with
  | (.error e, state) => (.error e, a, state)
  | (.ok none, state) => (.ok (), a, state)
  | (.ok (some compiled), state) =>
      match stagePipeline a.contents p compiled.isExtension compiled.shaders with
      | .error e => (.error e, a, state)
      | .ok staging =>
          (.ok (), { a with
            contents := a.contents.commit staging
            cache := a.cache.append compiled.fresh }, state)

/-! ## Signatures and render passes -/

/-- Everything that a signature adds for some backends, unless it is archived for them. -/
def prepareSignature (c : Contents) (signature : Signature) (backends : BackendSet) :
    Except ArchiveError (Option Staging) := do
  if signature.name.isEmpty then throw (.description .emptySignatureName)
  if backends.isEmpty then throw (.description (.noSignatureBackends signature.name))
  let archived ← c.checkSignature signature.name (encode signature)
  if archived.any fun r => r.backends.includes backends then return none
  let record ← signatureRecord signature archived backends.toList
  return some (Staging.addSignature {} signature.name record)

/-- Adds a signature for some backends. -/
def addSignature (a : Archiver σ) (signature : Signature) (backends : BackendSet) :
    Except ArchiveError Unit × Archiver σ :=
  match prepareSignature a.contents signature backends with
  | .error e => (.error e, a)
  | .ok none => (.ok (), a)
  | .ok (some staging) => (.ok (), { a with contents := a.contents.commit staging })

/-- Everything that a render pass adds, unless it is archived. -/
def prepareRenderPass (c : Contents) (pass : RenderPass) : Except ArchiveError Staging := do
  pass.check.mapError fun fault => .description (.renderPass fault)
  return { renderPass := ← stageRenderPass c (some pass) }

/-- Adds a render pass. -/
def addRenderPass (a : Archiver σ) (pass : RenderPass) : Except ArchiveError Unit × Archiver σ :=
  match prepareRenderPass a.contents pass with
  | .error e => (.error e, a)
  | .ok staging => (.ok (), { a with contents := a.contents.commit staging })

/-! ## Writing -/

/-- The archive of everything that was added. -/
def image (a : Archiver σ) : Except ArchiveError Image :=
  Container.build a.contents (if a.config.writeDebugInfo then some builderId else none)
    maxArchiveSize

end Archiver

end PipelineArchive
