import PipelineArchive.Description.Stage

/-!
# Resources, samplers and signatures

A signature declares the resources that the shaders of a pipeline see: their names, types,
visibility and how often they change. A pipeline combines several signatures in the order of
their binding indices.
-/

set_option autoImplicit false

namespace PipelineArchive

/-- The kind of a shader resource. -/
inductive ResourceType where
  | constantBuffer
  | textureSrv
  | bufferSrv
  | textureUav
  | bufferUav
  | sampler
  | inputAttachment
  | accelStruct
  deriving DecidableEq, Repr

/-- The register range that a resource occupies where registers are numbered by kind. -/
inductive DescriptorRange where
  | cbv
  | srv
  | uav
  | sampler
  deriving DecidableEq, Repr

namespace DescriptorRange

/-- The stable number of a range. -/
def ordinal (r : DescriptorRange) : Nat := r.ctorIdx

/-- The name shown in messages. -/
def display : DescriptorRange → String
  | cbv => "Cbv"
  | srv => "Srv"
  | uav => "Uav"
  | sampler => "Sampler"

instance : Encode DescriptorRange := ⟨fun r => Bytes.ofU32 (UInt32.ofNat r.ordinal)⟩

end DescriptorRange

namespace ResourceType

/-- The stable number of a resource type. -/
def ordinal (t : ResourceType) : Nat := t.ctorIdx

/-- The register range of a resource type. -/
def range : ResourceType → DescriptorRange
  | constantBuffer => .cbv
  | textureSrv | bufferSrv | inputAttachment | accelStruct => .srv
  | textureUav | bufferUav => .uav
  | sampler => .sampler

/-- The name shown in messages. -/
def display : ResourceType → String
  | constantBuffer => "constant buffer"
  | textureSrv => "texture SRV"
  | bufferSrv => "buffer SRV"
  | textureUav => "texture UAV"
  | bufferUav => "buffer UAV"
  | sampler => "sampler"
  | inputAttachment => "input attachment"
  | accelStruct => "acceleration structure"

instance : Encode ResourceType := ⟨fun t => Bytes.ofU32 (UInt32.ofNat t.ordinal)⟩

end ResourceType

/-- How often a resource is expected to change: never, once per binding or between draws. -/
inductive VariableType where
  | static
  | mutable
  | dynamic
  deriving DecidableEq, Repr

namespace VariableType

/-- The stable number of a variable type. -/
def ordinal (t : VariableType) : Nat := t.ctorIdx

instance : Encode VariableType := ⟨fun t => Bytes.ofU32 (UInt32.ofNat t.ordinal)⟩

end VariableType

/-- A resource declared by a signature. An array size of zero stands for an array without
bound. -/
structure Resource where
  name : String
  stages : StageSet
  arraySize : UInt32
  resourceType : ResourceType
  varType : VariableType
  deriving DecidableEq, Repr

instance : Encode Resource where
  encode r := encode r.name ++ encode r.stages ++ encode r.arraySize ++ encode r.resourceType
    ++ encode r.varType

/-! ## Samplers -/

/-- How a texture is filtered. -/
inductive FilterType where
  | point
  | linear
  | anisotropic
  | comparisonPoint
  | comparisonLinear
  deriving DecidableEq, Repr

instance : Encode FilterType := ⟨fun x => Bytes.ofU32 (UInt32.ofNat x.ctorIdx)⟩

/-- How coordinates outside a texture are read. -/
inductive AddressMode where
  | wrap
  | mirror
  | clamp
  | border
  deriving DecidableEq, Repr

instance : Encode AddressMode := ⟨fun x => Bytes.ofU32 (UInt32.ofNat x.ctorIdx)⟩

/-- The test between a value and a reference. -/
inductive ComparisonFunc where
  | never
  | less
  | equal
  | lessEqual
  | greater
  | notEqual
  | greaterEqual
  | always
  deriving DecidableEq, Repr

instance : Encode ComparisonFunc := ⟨fun x => Bytes.ofU32 (UInt32.ofNat x.ctorIdx)⟩

/-- The color that a border address mode reads. -/
structure BorderColor where
  red : Single := ⟨0⟩
  green : Single := ⟨0⟩
  blue : Single := ⟨0⟩
  alpha : Single := ⟨0⟩
  deriving DecidableEq, Repr

instance : Encode BorderColor where
  encode c := encode c.red ++ encode c.green ++ encode c.blue ++ encode c.alpha

/-- The state of a sampler; the largest level of detail is unbounded by default. -/
structure SamplerDesc where
  minFilter : FilterType := .linear
  magFilter : FilterType := .linear
  mipFilter : FilterType := .linear
  addressU : AddressMode := .clamp
  addressV : AddressMode := .clamp
  addressW : AddressMode := .clamp
  mipLodBias : Single := ⟨0⟩
  maxAnisotropy : UInt32 := 1
  comparison : ComparisonFunc := .less
  borderColor : BorderColor := {}
  minLod : Single := ⟨0⟩
  maxLod : Single := ⟨0x7F7FFFFF⟩
  deriving DecidableEq, Repr

instance : Encode SamplerDesc where
  encode s := encode s.minFilter ++ encode s.magFilter ++ encode s.mipFilter
    ++ encode s.addressU ++ encode s.addressV ++ encode s.addressW
    ++ encode s.mipLodBias ++ encode s.maxAnisotropy ++ encode s.comparison
    ++ encode s.borderColor ++ encode s.minLod ++ encode s.maxLod

/-- A sampler baked into a signature and bound by the name of a sampler or texture. -/
structure ImmutableSampler where
  stages : StageSet
  name : String
  desc : SamplerDesc
  deriving DecidableEq, Repr

instance : Encode ImmutableSampler where
  encode s := encode s.stages ++ encode s.name ++ encode s.desc

/-! ## Signatures -/

/-- The resources and immutable samplers that pipelines bind together. -/
structure Signature where
  name : String
  bindingIndex : UInt8
  resources : List Resource
  immutableSamplers : List ImmutableSampler
  deriving DecidableEq, Repr

namespace Signature

instance : Encode Signature where
  encode s := encode s.name ++ encode s.bindingIndex ++ Encode.list s.resources
    ++ Encode.list s.immutableSamplers

/-- The first immutable sampler of a name that is visible to one of the stages. -/
def immutableSampler? (s : Signature) (name : String) (stages : StageSet) :
    Option ImmutableSampler :=
  s.immutableSamplers.find? fun sampler => sampler.name == name && sampler.stages.intersects stages

end Signature

end PipelineArchive
