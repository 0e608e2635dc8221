import PipelineArchive.Archiver
import PipelineArchive.Description.Schema
import PipelineArchive.Document.Json
import PipelineArchive.Document.Yaml
import PipelineArchive.Path
import PipelineArchive.Transcoder.Standard

/-!
# Manifests

A manifest lists the signatures, render passes and pipelines of an archive, with the options
of the archiver. It is written as JSON or YAML. The sources of its shaders may be files, which
are loaded before the items are added; an item that is refused is dropped, and the others are
still added.
-/

set_option autoImplicit false

namespace PipelineArchive

/-- A signature of a manifest, with the backends it names. -/
structure SignatureEntry where
  signature : Signature
  backends : Option (List Backend)
  deriving DecidableEq, Repr

/-- A pipeline of a manifest, with the backends it names. -/
structure PipelineEntry where
  pipeline : Pipeline
  backends : Option (List Backend)
  deriving DecidableEq, Repr

/-- The contents of one archive. -/
structure Manifest where
  config : Config := {}
  signatures : List SignatureEntry := []
  renderPasses : List RenderPass := []
  pipelines : List PipelineEntry := []
  deriving DecidableEq, Repr

/-! ## Reading -/

open FromDocument in
instance : FromDocument SignatureEntry where
  read? d := do
    let (own, fields) ← sharedFields? ["backends"] d
    let signature := do Signature.ofFields? (← known? Signature.fieldNames fields)
    return ⟨← Reading.ofHeld signature, ← optional own "backends" none⟩

open FromDocument in
instance : FromDocument PipelineEntry where
  read? d := do
    let (own, fields) ← sharedFields? ["backends"] d
    let pipeline := do Pipeline.ofFields? (← KindSchema.ofTag? fields) fields
    return ⟨← Reading.ofHeld pipeline, ← optional own "backends" none⟩

open FromDocument in
instance : FromDocument Manifest where
  read? d := do
    let f ← fields? ["config", "signatures", "render_passes", "pipelines"] d
    return {
      config := ← optional f "config" {}
      signatures := ← optional f "signatures" []
      renderPasses := ← optional f "render_passes" []
      pipelines := ← optional f "pipelines" [] }

/-- Why a manifest is not loaded. -/
inductive ManifestError where
  | unreadable (path message : String)
  | notJson
  | notYaml
  | unknownFormat (path : String)
  | shaderFile (pipeline shader message : String)
  deriving DecidableEq, Repr

/-- The text of an error. -/
def ManifestError.message : ManifestError → String
  | .unreadable path message => s!"failed to read '{path}': {message}"
  | .notJson => "failed to parse JSON manifest"
  | .notYaml => "failed to parse YAML manifest"
  | .unknownFormat path => s!"manifest '{path}' is neither .json, .yaml nor .yml"
  | .shaderFile pipeline shader message =>
      s!"failed to load shader '{shader}' of pipeline '{pipeline}': {message}"

namespace Manifest

/-- The manifest that a JSON text writes. -/
def ofJson (text : String) : Except ManifestError Manifest :=
  match (Json.document? text).bind (FromDocument.read? · .json) with
  | some manifest => .ok manifest
  | none => .error .notJson

/-- The manifest that a YAML text writes. -/
def ofYaml (text : String) : Except ManifestError Manifest :=
  match (Yaml.document? text).bind (FromDocument.read? · .yaml) with
  | some manifest => .ok manifest
  | none => .error .notYaml

/-- The manifest that the text of a file writes, by the extension of its path. -/
def ofText (path text : String) : Except ManifestError Manifest :=
  let extension := (Path.extension? path).map fun e => String.ofList (e.toList.map Char.toLower)
  match extension with
  | some "json" => ofJson text
  | some "yaml" | some "yml" => ofYaml text
  | _ => .error (.unknownFormat path)

end Manifest

/-! ## Loading shaders -/

/-- Why a shader is not loaded: its file cannot be read, or holds no source. -/
inductive LoadFault where
  | unreadable (message : String)
  | content (fault : ShaderSource.ContentFault)
  deriving DecidableEq, Repr

/-- The text of a fault. -/
def LoadFault.message : LoadFault → String
  | .unreadable message => message
  | .content fault => fault.message

/-- The source that is left when a file has been loaded. -/
def ShaderSource.resolve {m : Type → Type} [Monad m] (load : String → m (Except String Bytes))
    (source : ShaderSource) : m (Except LoadFault ShaderSource) :=
  match source with
  | .file language path => do
      match ← load path with
      | .error message => return .error (.unreadable message)
      | .ok bytes => return (ofContent language path bytes).mapError .content
  | source => return .ok source

/-- A shader whose source is no file. -/
def Shader.resolve {m : Type → Type} [Monad m] (load : String → m (Except String Bytes))
    (pipeline : String) (shader : Shader) : ExceptT ManifestError m Shader :=
  ExceptT.mk do
    match ← shader.source.resolve load with
    | .ok source => return .ok { shader with source }
    | .error fault => return .error (.shaderFile pipeline shader.name fault.message)

namespace Manifest

/-- A pipeline whose shaders are loaded. -/
def resolveEntry {m : Type → Type} [Monad m] (load : String → m (Except String Bytes))
    (entry : PipelineEntry) : ExceptT ManifestError m PipelineEntry := do
  let pipeline ← entry.pipeline.mapShaders (Shader.resolve load entry.pipeline.name)
  return { entry with pipeline }

/-- A manifest whose shaders are loaded. -/
def resolveFiles {m : Type → Type} [Monad m] (load : String → m (Except String Bytes))
    (manifest : Manifest) : ExceptT ManifestError m Manifest := do
  return { manifest with pipelines := ← manifest.pipelines.mapM (resolveEntry load) }

/-- Loads a manifest and the shaders it refers to, whose paths start at its directory. -/
def load {m : Type → Type} [Monad m] (read : String → m (Except String Bytes)) (path : String) :
    ExceptT ManifestError m Manifest := do
  let bytes ← ExceptT.mk do return (← read path).mapError (.unreadable path)
  let .ok text := Utf8.decode? bytes
    | throw (.unreadable path "stream did not contain valid UTF-8")
  let manifest ← ofText path text
  manifest.resolveFiles fun file => read (Path.join (Path.directory path) file)

end Manifest

/-! ## Adding -/

/-- An item that was refused. -/
structure DroppedItem where
  name : String
  error : ArchiveError
  deriving DecidableEq, Repr

/-- What became of the items of a manifest. -/
structure Outcome where
  added : Nat := 0
  dropped : List DroppedItem := []
  deriving DecidableEq, Repr

namespace Outcome

/-- Whether every item was added. -/
def isComplete (o : Outcome) : Bool := o.dropped.isEmpty

/-- The outcome after another item. -/
def record (o : Outcome) (name : String) : Except ArchiveError Unit → Outcome
  | .ok () => { o with added := o.added + 1 }
  | .error error => { o with dropped := o.dropped ++ [⟨name, error⟩] }

end Outcome

namespace Manifest

variable {σ : Type}

/-- The backends of an item: those it names, or the default. -/
def backendsOf (named : Option (List Backend)) (default : BackendSet) : BackendSet :=
  match named with
  | some backends => .ofList backends
  | none => default

/-- An archiver with what became of the items so far and the state of its transcoders. -/
structure Progress (σ : Type) where
  archiver : Archiver σ
  outcome : Outcome
  state : σ

/-- Adds a signature of a manifest. -/
def addSignature (default : BackendSet) (p : Progress σ) (entry : SignatureEntry) : Progress σ :=
  let (result, archiver) :=
    p.archiver.addSignature entry.signature (backendsOf entry.backends default)
  { p with archiver, outcome := p.outcome.record entry.signature.name result }

/-- Adds a render pass of a manifest. -/
def addRenderPass (p : Progress σ) (pass : RenderPass) : Progress σ :=
  let (result, archiver) := p.archiver.addRenderPass pass
  { p with archiver, outcome := p.outcome.record pass.name result }

/-- Adds a pipeline of a manifest. -/
def addPipeline (default : BackendSet) (p : Progress σ) (entry : PipelineEntry) : Progress σ :=
  let (result, archiver, state) :=
    p.archiver.addPipeline entry.pipeline (backendsOf entry.backends default) p.state
  ⟨archiver, p.outcome.record entry.pipeline.name result, state⟩

/-- Adds all items of a manifest: signatures, then render passes, then pipelines. -/
def addTo (manifest : Manifest) (archiver : Archiver σ) (default : BackendSet) (state : σ) :
    Progress σ :=
  let start : Progress σ := ⟨archiver, {}, state⟩
  let afterSignatures := manifest.signatures.foldl (addSignature default) start
  let afterPasses := manifest.renderPasses.foldl addRenderPass afterSignatures
  manifest.pipelines.foldl (addPipeline default) afterPasses

/-- Loads a manifest and adds its items to a new archiver with the standard transcoders. -/
def archive {m : Type → Type} [Monad m] (compiler : Glsl.Compiler)
    (read : String → m (Except String Bytes)) (path : String) (default : BackendSet) :
    ExceptT ManifestError m (Archiver Unit × Outcome) := do
  let manifest ← load read path
  let progress := manifest.addTo (.new (.standard compiler) manifest.config) default ()
  return (progress.archiver, progress.outcome)

end Manifest

end PipelineArchive
