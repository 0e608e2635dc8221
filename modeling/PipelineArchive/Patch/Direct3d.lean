import PipelineArchive.Patch.Binding

/-!
# Direct3D

Bytecode is stored as it is, after a look at its container. The header holds the register map
of every shader and, on Direct3D12, the root signatures before it.
-/

set_option autoImplicit false

namespace PipelineArchive.Patch.Direct3d

/-- The first four bytes of a container of bytecode. -/
def containerMagic : Bytes := Bytes.ofText "DXBC"

/-- The bytecode of a shader. -/
def patchShader (backend : Backend) (shader : CompiledShader) : Except ArchiveError Bytes :=
  if shader.code.take 4 = containerMagic then .ok shader.code
  else .error (.patching backend (.notBytecode shader.reflection.stage shader.entryPoint))

/-! ## Register maps -/

/-- The registers that one resource of a shader occupies. -/
structure RegisterBinding where
  name : String
  range : DescriptorRange
  space : UInt32
  register : UInt32
  count : UInt32
  deriving DecidableEq, Repr

instance : Encode RegisterBinding where
  encode r := encode r.name ++ encode r.range ++ encode r.space ++ encode r.register
    ++ encode r.count

/-- The registers of a resource at its place. -/
def RegisterBinding.of (resource : ReflectedResource) (binding : LayoutBinding) :
    RegisterBinding where
  name := resource.name
  range := binding.resourceType.range
  space := binding.set
  register := binding.binding
  count := binding.arraySize

/-- The registers of all resources of one shader. -/
def registers (backend : Backend) (layout : PipelineLayout) (shader : CompiledShader) :
    Except ArchiveError (ShaderStage × List RegisterBinding) := do
  let places ← resolveAll backend layout shader
  return (shader.reflection.stage, places.map fun (r, b) => .of r b)

/-- The stage and registers of every shader. -/
def registerMap (backend : Backend) (layout : PipelineLayout) (shaders : List CompiledShader) :
    Except ArchiveError Bytes := do
  let maps ← shaders.mapM (registers backend layout)
  return Encode.count shaders.length ++ maps.flatMap fun (stage, bindings) =>
    encode stage ++ Encode.list bindings

/-! ## Root signatures -/

/-- A descriptor table of a root signature. -/
inductive RootTable where
  | staticResources
  | staticSamplers
  | dynamicResources
  | dynamicSamplers
  deriving DecidableEq, Repr

namespace RootTable

/-- All tables in the order they are written. -/
def all : List RootTable := [staticResources, staticSamplers, dynamicResources, dynamicSamplers]

/-- The table of a binding: dynamic resources and samplers have tables of their own. -/
def of (b : LayoutBinding) : RootTable :=
  match b.varType == .dynamic, b.resourceType.range == .sampler with
  | false, false => staticResources
  | false, true => staticSamplers
  | true, false => dynamicResources
  | true, true => dynamicSamplers

instance : Encode RootTable := ⟨fun t => Bytes.ofU32 (UInt32.ofNat t.ctorIdx)⟩

/-- The bindings of a signature in each table; tables without bindings are left out, and
immutable samplers are in none. -/
def tables (signature : SignatureLayout) : List (RootTable × List LayoutBinding) :=
  (all.map fun table =>
    (table, signature.bindings.filter fun b => !b.isImmutable && of b == table)).filter
      fun (_, bindings) => !bindings.isEmpty

end RootTable

/-- One entry of a descriptor table. -/
def tableEntry (b : LayoutBinding) : Bytes :=
  encode b.resourceType.range ++ encode b.binding ++ encode b.set ++ encode b.arraySize

/-- An immutable sampler of a root signature. -/
def staticSampler (b : LayoutBinding) : Bytes :=
  encode b.name ++ encode b.binding ++ encode b.set ++ encode b.stages

/-- The root parameters of one signature. -/
def rootSignature (signature : SignatureLayout) : Bytes :=
  let tables := RootTable.tables signature
  let samplers := signature.bindings.filter (·.isImmutable)
  encode signature.name ++ Bytes.ofU32 signature.bindingIndex.toUInt32
    ++ Encode.count tables.length
    ++ tables.flatMap (fun (table, bindings) =>
      encode table ++ Encode.count bindings.length ++ bindings.flatMap tableEntry)
    ++ Encode.count samplers.length ++ samplers.flatMap staticSampler

/-- The root signatures and register maps of a Direct3D12 pipeline. -/
def header12 (layout : PipelineLayout) (shaders : List CompiledShader) :
    Except ArchiveError Bytes := do
  let registers ← registerMap .d3d12 layout shaders
  return Encode.count layout.signatures.length ++ layout.signatures.flatMap rootSignature
    ++ registers

end PipelineArchive.Patch.Direct3d
