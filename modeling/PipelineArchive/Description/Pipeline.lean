import PipelineArchive.Chunk
import PipelineArchive.Description.Graphics
import PipelineArchive.Description.Shader

/-!
# Pipelines

The four kinds of pipelines share a name, a resource layout and a list of signatures. The
encoding of a pipeline holds everything but its shaders, signatures and render pass, which are
archived on their own; `Pipeline.source` holds these as well and identifies the pipeline as
its caller gave it. `Pipeline.check` refuses a description with a shader out of place, a
reference that leads nowhere or an empty name.
-/

set_option autoImplicit false

namespace PipelineArchive

/-- A variable type for the resources of a name that some stages see. -/
structure VariableOverride where
  stages : StageSet
  name : String
  varType : VariableType
  deriving DecidableEq, Repr

instance : Encode VariableOverride :=
  ⟨fun v => encode v.stages ++ encode v.name ++ encode v.varType⟩

/-- The variable types and samplers of a pipeline that gives no signatures. -/
structure ResourceLayout where
  defaultType : VariableType := .static
  overrides : List VariableOverride := []
  immutableSamplers : List ImmutableSampler := []
  deriving DecidableEq, Repr

namespace ResourceLayout

instance : Encode ResourceLayout where
  encode l := encode l.defaultType ++ Encode.list l.overrides ++ Encode.list l.immutableSamplers

/-- The variable type of a resource: that of the first override of its name that shares a
stage with it, or the default. -/
def variableType (l : ResourceLayout) (name : String) (stages : StageSet) : VariableType :=
  match l.overrides.find? fun v => v.name == name && v.stages.intersects stages with
  | some v => v.varType
  | none => l.defaultType

end ResourceLayout

/-- What the kinds of pipelines share. Without signatures, one is made from the shaders. -/
structure PipelineCommon where
  name : String
  layout : ResourceLayout
  signatures : List Signature
  deriving DecidableEq, Repr

/-- The shaders of a graphics pipeline, one slot for each stage. -/
structure GraphicsShaders where
  vertex : Option Shader := none
  pixel : Option Shader := none
  geometry : Option Shader := none
  hull : Option Shader := none
  domain : Option Shader := none
  amplification : Option Shader := none
  mesh : Option Shader := none
  deriving DecidableEq, Repr

namespace GraphicsShaders

/-- The slots with the stage that each expects. -/
def slots (s : GraphicsShaders) : List (ShaderStage × Option Shader) :=
  [(.vertex, s.vertex), (.pixel, s.pixel), (.geometry, s.geometry), (.hull, s.hull),
    (.domain, s.domain), (.amplification, s.amplification), (.mesh, s.mesh)]

/-- The shaders with the stage that the slot of each expects. -/
def filled (s : GraphicsShaders) : List (ShaderStage × Shader) :=
  s.slots.filterMap fun (stage, shader) => shader.map (stage, ·)

/-- The slots with every shader replaced, in slot order. -/
def mapShaders {m : Type → Type} [Monad m] (f : Shader → m Shader) (s : GraphicsShaders) :
    m GraphicsShaders := do
  return {
    vertex := ← s.vertex.mapM f
    pixel := ← s.pixel.mapM f
    geometry := ← s.geometry.mapM f
    hull := ← s.hull.mapM f
    domain := ← s.domain.mapM f
    amplification := ← s.amplification.mapM f
    mesh := ← s.mesh.mapM f }

end GraphicsShaders

/-! ## Shader groups of ray tracing pipelines -/

/-- A ray generation, miss or callable shader, by its index in the pipeline. -/
structure GeneralGroup where
  name : String
  shader : UInt32
  deriving DecidableEq, Repr

instance : Encode GeneralGroup := ⟨fun g => encode g.name ++ encode g.shader⟩

/-- The shaders that run where a ray hits a triangle. -/
structure TriangleHitGroup where
  name : String
  closestHit : UInt32
  anyHit : Option UInt32
  deriving DecidableEq, Repr

instance : Encode TriangleHitGroup :=
  ⟨fun g => encode g.name ++ encode g.closestHit ++ Encode.option g.anyHit⟩

/-- The shaders that run where a ray meets a procedural shape. -/
structure ProceduralHitGroup where
  name : String
  intersection : UInt32
  closestHit : Option UInt32
  anyHit : Option UInt32
  deriving DecidableEq, Repr

instance : Encode ProceduralHitGroup where
  encode g := encode g.name ++ encode g.intersection ++ Encode.option g.closestHit
    ++ Encode.option g.anyHit

/-- The shaders of a ray tracing pipeline and the groups that they form. -/
structure RayTracing where
  shaders : List Shader
  general : List GeneralGroup
  triangleHit : List TriangleHitGroup
  proceduralHit : List ProceduralHitGroup
  recursionDepth : UInt8
  recordSize : UInt16
  deriving DecidableEq, Repr

/-- The part of a pipeline that depends on its kind. -/
inductive PipelineKind where
  | graphics (state : GraphicsState) (renderPass : Option RenderPass) (shaders : GraphicsShaders)
  | compute (shader : Shader)
  | rayTracing (description : RayTracing)
  | tile (shader : Shader) (targetFormats : List TextureFormat) (sampleCount : UInt8)
  deriving DecidableEq, Repr

/-- The same kind with every shader replaced, in archive order. -/
def PipelineKind.mapShaders {m : Type → Type} [Monad m] (f : Shader → m Shader) :
    PipelineKind → m PipelineKind
  | .graphics state pass shaders => return .graphics state pass (← shaders.mapShaders f)
  | .compute shader => return .compute (← f shader)
  | .rayTracing r => return .rayTracing { r with shaders := ← r.shaders.mapM f }
  | .tile shader formats samples => return .tile (← f shader) formats samples

/-- The description of a pipeline. -/
structure Pipeline where
  common : PipelineCommon
  kind : PipelineKind
  deriving DecidableEq, Repr

namespace Pipeline

/-- The name of a pipeline. -/
def name (p : Pipeline) : String := p.common.name

/-- The chunk that a pipeline is archived in. -/
def chunk (p : Pipeline) : ChunkKind :=
  match p.kind with
  | .graphics .. => .graphicsPipelines
  | .compute _ => .computePipelines
  | .rayTracing _ => .rayTracingPipelines
  | .tile .. => .tilePipelines

/-- The shaders of a pipeline in archive order. -/
def shaders (p : Pipeline) : List Shader :=
  match p.kind with
  | .graphics _ _ shaders => shaders.filled.map (·.2)
  | .compute shader => [shader]
  | .rayTracing r => r.shaders
  | .tile shader _ _ => [shader]

/-- A pipeline with every shader replaced, in archive order. -/
def mapShaders {m : Type → Type} [Monad m] (f : Shader → m Shader) (p : Pipeline) :
    m Pipeline := do
  return { p with kind := ← p.kind.mapShaders f }

/-- The render pass of a graphics pipeline. -/
def renderPass? (p : Pipeline) : Option RenderPass :=
  match p.kind with
  | .graphics _ pass _ => pass
  | _ => none

/-! ## Encoding -/

/-- The fields that only pipelines of one kind have. A graphics pipeline lists the stages of
its filled slots. -/
def encodeKind : PipelineKind → Bytes
  | .graphics state _ shaders =>
      encode state ++ encode (StageSet.ofList (shaders.filled.map (·.1)))
  | .compute _ => []
  | .rayTracing r =>
      Encode.list r.general ++ Encode.list r.triangleHit ++ Encode.list r.proceduralHit
        ++ encode r.recursionDepth ++ encode r.recordSize.toUInt32
  | .tile _ formats samples => Encode.list formats ++ encode samples

instance : Encode Pipeline where
  encode p := encode p.chunk ++ encode p.name ++ encode p.common.layout ++ encodeKind p.kind

/-- Everything that the caller gave for a pipeline. Two pipelines of one name are the same
only if this agrees. -/
def source (p : Pipeline) : Bytes :=
  encode p ++ Encode.list p.shaders ++ Encode.list p.common.signatures
    ++ Encode.option p.renderPass?

end Pipeline

/-! ## Checks -/

/-- Why a description is refused. -/
inductive DescriptionFault where
  | emptyPipelineName
  | wrongSlot (shader : Shader) (slot : ShaderStage) (pipeline : String)
  | noVertexStage (pipeline : String)
  | renderPass (fault : RenderPassFault)
  | subpassOutOfRange (pipeline : String) (index : UInt8) (pass : String)
  | foreignStage (shader : Shader) (pipeline : String)
  | missingShader (group pipeline : String) (index : UInt32) (available : Nat)
  | wrongRole (group pipeline : String) (shader : Shader)
  | noRayGeneration (pipeline : String)
  | unresolvedFile (shader pipeline : String)
  | emptyEntryPoint (shader pipeline : String)
  | emptySignatureNameIn (index : Nat) (pipeline : String)
  | noPipelineBackends (pipeline : String)
  | emptySignatureName
  | noSignatureBackends (signature : String)
  deriving DecidableEq, Repr

/-- The text of a fault. -/
def DescriptionFault.message : DescriptionFault → String
  | .emptyPipelineName => "pipeline name must not be empty"
  | .wrongSlot shader slot pipeline =>
      s!"{shader.stage.display} shader '{shader.name}' is in the {slot.display} slot of pipeline '{pipeline}'"
  | .noVertexStage pipeline =>
      s!"graphics pipeline '{pipeline}' has neither a vertex nor a mesh shader"
  | .renderPass fault => fault.message
  | .subpassOutOfRange pipeline index pass =>
      s!"graphics pipeline '{pipeline}' uses subpass {index.toNat} of render pass '{pass}'"
  | .foreignStage shader pipeline =>
      s!"{shader.stage.display} shader '{shader.name}' cannot be used in ray tracing pipeline '{pipeline}'"
  | .missingShader group pipeline index available =>
      s!"shader group '{group}' of pipeline '{pipeline}' references shader {index.toNat}, but the pipeline has {available} shaders"
  | .wrongRole group pipeline shader =>
      s!"shader group '{group}' of pipeline '{pipeline}' references {shader.stage.display} shader '{shader.name}'"
  | .noRayGeneration pipeline =>
      s!"ray tracing pipeline '{pipeline}' has no ray generation shader group"
  | .unresolvedFile shader pipeline =>
      s!"shader '{shader}' of pipeline '{pipeline}' refers to an unresolved file"
  | .emptyEntryPoint shader pipeline =>
      s!"shader '{shader}' of pipeline '{pipeline}' has an empty entry point"
  | .emptySignatureNameIn index pipeline =>
      s!"signature {index} of pipeline '{pipeline}' has an empty name"
  | .noPipelineBackends pipeline => s!"pipeline '{pipeline}' targets no backends"
  | .emptySignatureName => "signature name must not be empty"
  | .noSignatureBackends signature => s!"signature '{signature}' targets no backends"

namespace RayTracing

/-- Refuses an index without a shader, and a shader whose stage has no place in the role. -/
def checkRole (r : RayTracing) (pipeline group : String) (roles : List ShaderStage)
    (index : UInt32) : Except DescriptionFault Unit :=
  match r.shaders[index.toNat]? with
  | none => .error (.missingShader group pipeline index r.shaders.length)
  | some shader =>
      if roles.contains shader.stage then .ok () else .error (.wrongRole group pipeline shader)

/-- The references of all groups: the name of the group, the stages that the role allows and
the index of the shader. -/
def references (r : RayTracing) : List (String × List ShaderStage × UInt32) :=
  r.general.map (fun g => (g.name, [.rayGen, .rayMiss, .callable], g.shader))
    ++ r.triangleHit.flatMap (fun g =>
      (g.name, [.rayClosestHit], g.closestHit)
        :: g.anyHit.toList.map fun i => (g.name, [.rayAnyHit], i))
    ++ r.proceduralHit.flatMap (fun g =>
      (g.name, [.rayIntersection], g.intersection)
        :: (g.closestHit.toList.map fun i => (g.name, [.rayClosestHit], i))
        ++ g.anyHit.toList.map fun i => (g.name, [.rayAnyHit], i))

/-- Refuses groups whose references lead nowhere or to the wrong stage, and a pipeline that
has no group to generate rays. -/
def checkGroups (r : RayTracing) (pipeline : String) : Except DescriptionFault Unit := do
  r.references.forM fun (group, roles, index) => r.checkRole pipeline group roles index
  let generates (g : GeneralGroup) : Bool :=
    (r.shaders[g.shader.toNat]?).any fun shader => shader.stage == .rayGen
  if !r.general.any generates then throw (.noRayGeneration pipeline)

end RayTracing

namespace Pipeline

/-- Refuses a shader that is not of the stage its slot expects. -/
def checkStage (pipeline : String) (slot : ShaderStage) (shader : Shader) :
    Except DescriptionFault Unit :=
  if shader.stage = slot then .ok () else .error (.wrongSlot shader slot pipeline)

/-- The checks that depend on the kind of pipeline. -/
def checkKind (pipeline : String) : PipelineKind → Except DescriptionFault Unit
  | .graphics state pass shaders => do
      shaders.filled.forM fun (slot, shader) => checkStage pipeline slot shader
      if shaders.vertex.isNone && shaders.mesh.isNone then throw (.noVertexStage pipeline)
      if let some pass := pass then
        pass.check.mapError .renderPass
        if pass.subpasses.length ≤ state.subpassIndex.toNat then
          throw (.subpassOutOfRange pipeline state.subpassIndex pass.name)
  | .compute shader => checkStage pipeline .compute shader
  | .tile shader _ _ => checkStage pipeline .tile shader
  | .rayTracing r => do
      if let some shader := r.shaders.find? fun shader => !shader.stage.isRayTracing then
        throw (.foreignStage shader pipeline)
      r.checkGroups pipeline

/-- Refuses a shader that is not loaded or has no entry point. -/
def checkShader (pipeline : String) (shader : Shader) : Except DescriptionFault Unit := do
  if shader.source.isFile then throw (.unresolvedFile shader.name pipeline)
  if shader.entryPoint.isEmpty then throw (.emptyEntryPoint shader.name pipeline)

/-- Refuses a malformed description with the first fault found. -/
def check (p : Pipeline) : Except DescriptionFault Unit := do
  if p.name.isEmpty then throw .emptyPipelineName
  checkKind p.name p.kind
  p.shaders.forM (checkShader p.name)
  if let some index := p.common.signatures.findIdx? fun s => s.name.isEmpty then
    throw (.emptySignatureNameIn index p.name)

end Pipeline

end PipelineArchive
