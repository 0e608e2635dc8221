import PipelineArchive.Error

/-!
# Layouts of signatures

The layout of a signature gives each of its resources a place in the binding model of one
backend. Resources are placed one after another; `Counters` holds what the signatures before
have used up where a backend shares one space of bindings between the signatures of a
pipeline. All counting is done in 32-bit words: a sum past the largest word starts again from zero.
-/

set_option autoImplicit false

namespace PipelineArchive

/-- A resource with its place. The set is a descriptor set on Vulkan, a register space on
Direct3D12, an argument table on Metal, and zero elsewhere. -/
structure LayoutBinding where
  name : String
  resourceType : ResourceType
  varType : VariableType
  stages : StageSet
  arraySize : UInt32
  set : UInt32 := 0
  binding : UInt32 := 0
  isImmutable : Bool
  deriving DecidableEq, Repr

namespace LayoutBinding

instance : Encode LayoutBinding where
  encode b := encode b.name ++ encode b.resourceType ++ encode b.varType ++ encode b.stages
    ++ encode b.arraySize ++ encode b.set ++ encode b.binding ++ encode b.isImmutable

/-- How many bindings in a row a resource takes; an array without bound takes one. -/
def span (b : LayoutBinding) : UInt32 := max b.arraySize 1

/-- Whether a resource changes between draws and is not baked into the signature. -/
def isDynamic (b : LayoutBinding) : Bool := b.varType == .dynamic && !b.isImmutable

/-- A resource moved to a place. -/
def placedAt (b : LayoutBinding) (set binding : UInt32) : LayoutBinding :=
  { b with set := set, binding := binding }

end LayoutBinding

/-- The places of the resources of a signature on one backend. -/
structure SignatureLayout where
  backend : Backend
  name : String
  bindingIndex : UInt8
  bindings : List LayoutBinding
  /-- The number of descriptor sets, which only Vulkan counts. -/
  setCount : UInt32
  deriving DecidableEq, Repr

/-! ## Counters -/

/-- A count of used bindings for every key. -/
abbrev Tally (κ : Type) : Type := κ → UInt32

/-- A tally with the count of one key replaced. -/
def Tally.set {κ : Type} [DecidableEq κ] (tally : Tally κ) (key : κ) (count : UInt32) :
    Tally κ :=
  fun other => if other = key then count else tally other

/-- What the signatures laid out so far have used. -/
structure Counters where
  /-- The descriptor sets of Vulkan. -/
  sets : UInt32 := 0
  /-- The slots of Direct3D11, by stage and range. -/
  slots : Tally (ShaderStage × DescriptorRange) := fun _ => 0
  /-- The units of OpenGL. -/
  units : Tally GlRange := fun _ => 0
  /-- The arguments of Metal. -/
  arguments : Tally MetalArgument := fun _ => 0

namespace SignatureLayout

/-! ## The resources of a signature -/

/-- Whether an immutable sampler belongs to a sampler that the signature declares. -/
def isAttached (signature : Signature) (sampler : ImmutableSampler) : Bool :=
  signature.resources.any fun r =>
    r.resourceType == .sampler && r.name == sampler.name && r.stages.intersects sampler.stages

/-- The resources of a signature before they are placed: those it declares, then a sampler
for every immutable sampler that belongs to none of these. -/
def unplaced (signature : Signature) : List LayoutBinding :=
  signature.resources.map (fun r => {
    name := r.name
    resourceType := r.resourceType
    varType := r.varType
    stages := r.stages
    arraySize := r.arraySize
    isImmutable := r.resourceType == .sampler
      && (signature.immutableSampler? r.name r.stages).isSome })
  ++ (signature.immutableSamplers.filter fun s => !isAttached signature s).map (fun s => {
    name := s.name
    resourceType := .sampler
    varType := .static
    stages := s.stages
    arraySize := 1
    isImmutable := true })

/-! ## Placing resources -/

/-- Places the resources of a list in order, each after the state that the ones before it
left. -/
def placeAll {σ : Type} (place : σ → LayoutBinding → Except ArchiveError (LayoutBinding × σ)) :
    σ → List LayoutBinding → Except ArchiveError (List LayoutBinding × σ)
  | state, [] => .ok ([], state)
  | state, b :: rest =>
      match place state b with
      | .error e => .error e
      | .ok (placed, state) =>
          match placeAll place state rest with
          | .error e => .error e
          | .ok (others, state) => .ok (placed :: others, state)

/-- Vulkan: the next binding of the set for dynamic resources, or of that for the others. The
tally counts bindings of either set. -/
def placeVulkan (staticSet dynamicSet : UInt32) (used : Tally Bool) (b : LayoutBinding) :
    Except ArchiveError (LayoutBinding × Tally Bool) :=
  let set := if b.isDynamic then dynamicSet else staticSet
  let binding := used b.isDynamic
  .ok (b.placedAt set binding, used.set b.isDynamic (binding + 1))

/-- Direct3D12: the next registers of the range in the space of the signature. -/
def placeD3d12 (space : UInt32) (used : Tally DescriptorRange) (b : LayoutBinding) :
    Except ArchiveError (LayoutBinding × Tally DescriptorRange) :=
  let range := b.resourceType.range
  let register := used range
  .ok (b.placedAt space register, used.set range (register + b.span))

/-- Direct3D11: the first slots of the range that are free in all stages that see the
resource. -/
def placeD3d11 (signature : String) (used : Tally (ShaderStage × DescriptorRange))
    (b : LayoutBinding) :
    Except ArchiveError (LayoutBinding × Tally (ShaderStage × DescriptorRange)) :=
  let range := b.resourceType.range
  let stages := b.stages.toList
  let slot := (stages.map fun stage => used (stage, range)).foldl max 0
  let next := slot + b.span
  match stages with
  | [] => .ok (b.placedAt 0 slot, used)
  | stage :: _ =>
      if range.slotLimit < next.toNat then
        .error (.patching .d3d11
          (.slotLimit b.name signature range (next.toNat - 1) stage range.slotLimit))
      else
        .ok (b.placedAt 0 slot, stages.foldl (fun used s => used.set (s, range) next) used)

/-- OpenGL: the next units of the range; a resource without a range has no place. -/
def placeGl (used : Tally GlRange) (b : LayoutBinding) :
    Except ArchiveError (LayoutBinding × Tally GlRange) :=
  match GlRange.of? b.resourceType with
  | none => .ok (b, used)
  | some range =>
      let unit := used range
      .ok (b.placedAt 0 unit, used.set range (unit + b.span))

/-- Metal: the next slots of the argument table. -/
def placeMetal (backend : Backend) (signature : String) (used : Tally MetalArgument)
    (b : LayoutBinding) : Except ArchiveError (LayoutBinding × Tally MetalArgument) :=
  let argument := MetalArgument.of b.resourceType
  let slot := used argument
  let next := slot + b.span
  if argument.slotLimit < next.toNat then
    .error (.patching backend (.argumentLimit b.name signature argument.slotLimit argument))
  else .ok (b.placedAt (UInt32.ofNat argument.ordinal) slot, used.set argument next)

/-- Lays out a signature after others, and counts what it uses. -/
def allocate (backend : Backend) (signature : Signature) (counters : Counters) :
    Except ArchiveError (SignatureLayout × Counters) :=
  let unplaced := unplaced signature
  let layout (bindings : List LayoutBinding) (setCount : UInt32) : SignatureLayout :=
    ⟨backend, signature.name, signature.bindingIndex, bindings, setCount⟩
  match backend with
  | .vulkan =>
      let staticSets : UInt32 := if unplaced.any fun b => !b.isDynamic then 1 else 0
      let dynamicSets : UInt32 := if unplaced.any LayoutBinding.isDynamic then 1 else 0
      let place := placeVulkan counters.sets (counters.sets + staticSets)
      (placeAll place (fun _ => 0) unplaced).map fun (bindings, _) =>
        (layout bindings (staticSets + dynamicSets),
          { counters with sets := counters.sets + (staticSets + dynamicSets) })
  | .d3d12 =>
      let place := placeD3d12 signature.bindingIndex.toUInt32
      (placeAll place (fun _ => 0) unplaced).map fun (bindings, _) => (layout bindings 0, counters)
  | .d3d11 =>
      (placeAll (placeD3d11 signature.name) counters.slots unplaced).map fun (bindings, slots) =>
        (layout bindings 0, { counters with slots })
  | .gl | .gles =>
      (placeAll placeGl counters.units unplaced).map fun (bindings, units) =>
        (layout bindings 0, { counters with units })
  | .metalMacos | .metalIos =>
      let place := placeMetal backend signature.name
      (placeAll place counters.arguments unplaced).map fun (bindings, arguments) =>
        (layout bindings 0, { counters with arguments })

/-- Lays out a signature as if it were the only one of a pipeline. -/
def standalone (backend : Backend) (signature : Signature) : Except ArchiveError SignatureLayout :=
  (allocate backend signature {}).map (·.1)

/-- The first binding of a name whose type is the given one or has the same register range. -/
def find? (l : SignatureLayout) (name : String) (resourceType : ResourceType) :
    Option LayoutBinding :=
  l.bindings.find? fun b =>
    b.name == name && (b.resourceType == resourceType || b.resourceType.range == resourceType.range)

instance : Encode SignatureLayout where
  encode l := encode l.backend ++ encode l.bindingIndex ++ encode l.setCount
    ++ Encode.list l.bindings

end SignatureLayout

end PipelineArchive
