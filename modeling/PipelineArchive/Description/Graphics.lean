import PipelineArchive.Description.RenderPass
import PipelineArchive.Description.Resource

/-!
# Fixed-function state

The part of a graphics pipeline that is not a shader: blending, rasterization, depth and
stencil tests, the vertex layout and the formats of the outputs. Default field values are
those of a description that leaves the field out.
-/

set_option autoImplicit false

namespace PipelineArchive

/-- A factor of the blend equation. -/
inductive BlendFactor where
  | zero
  | one
  | srcColor
  | invSrcColor
  | srcAlpha
  | invSrcAlpha
  | destAlpha
  | invDestAlpha
  | destColor
  | invDestColor
  | srcAlphaSat
  | blendFactor
  | invBlendFactor
  deriving DecidableEq, Repr

instance : Encode BlendFactor := ⟨fun x => Bytes.ofU32 (UInt32.ofNat x.ctorIdx)⟩

/-- The operation of the blend equation. -/
inductive BlendOperation where
  | add
  | subtract
  | revSubtract
  | min
  | max
  deriving DecidableEq, Repr

instance : Encode BlendOperation := ⟨fun x => Bytes.ofU32 (UInt32.ofNat x.ctorIdx)⟩

/-- Whether triangles are filled. -/
inductive FillMode where
  | wireframe
  | solid
  deriving DecidableEq, Repr

instance : Encode FillMode := ⟨fun x => Bytes.ofU32 (UInt32.ofNat x.ctorIdx)⟩

/-- Which faces are left out. -/
inductive CullMode where
  | none
  | front
  | back
  deriving DecidableEq, Repr

instance : Encode CullMode := ⟨fun x => Bytes.ofU32 (UInt32.ofNat x.ctorIdx)⟩

/-- How vertices form primitives. -/
inductive PrimitiveTopology where
  | pointList
  | lineList
  | lineStrip
  | triangleList
  | triangleStrip
  | patchList
  deriving DecidableEq, Repr

instance : Encode PrimitiveTopology := ⟨fun x => Bytes.ofU32 (UInt32.ofNat x.ctorIdx)⟩

/-- The type of a component of a vertex attribute. -/
inductive ValueType where
  | int8
  | int16
  | int32
  | uint8
  | uint16
  | uint32
  | float16
  | float32
  deriving DecidableEq, Repr

instance : Encode ValueType := ⟨fun x => Bytes.ofU32 (UInt32.ofNat x.ctorIdx)⟩

/-- How often a vertex attribute advances. -/
inductive InputFrequency where
  | perVertex
  | perInstance
  deriving DecidableEq, Repr

instance : Encode InputFrequency := ⟨fun x => Bytes.ofU32 (UInt32.ofNat x.ctorIdx)⟩

/-- The blending of one render target. -/
structure TargetBlend where
  enable : Bool := false
  src : BlendFactor := .one
  dest : BlendFactor := .zero
  operation : BlendOperation := .add
  srcAlpha : BlendFactor := .one
  destAlpha : BlendFactor := .zero
  operationAlpha : BlendOperation := .add
  writeMask : UInt8 := 0xF
  deriving DecidableEq, Repr

instance : Encode TargetBlend where
  encode b := encode b.enable ++ encode b.src ++ encode b.dest ++ encode b.operation
    ++ encode b.srcAlpha ++ encode b.destAlpha ++ encode b.operationAlpha ++ encode b.writeMask

/-- The blending of all render targets. -/
structure BlendState where
  alphaToCoverage : Bool := false
  independent : Bool := false
  targets : List TargetBlend := []
  deriving DecidableEq, Repr

instance : Encode BlendState where
  encode b := encode b.alphaToCoverage ++ encode b.independent ++ Encode.list b.targets

/-- How primitives become pixels. -/
structure RasterizerState where
  fillMode : FillMode := .solid
  cullMode : CullMode := .back
  frontCounterClockwise : Bool := false
  depthClip : Bool := true
  scissor : Bool := false
  depthBias : Int32 := 0
  slopeScaledDepthBias : Single := ⟨0⟩
  deriving DecidableEq, Repr

instance : Encode RasterizerState where
  encode r := encode r.fillMode ++ encode r.cullMode ++ encode r.frontCounterClockwise
    ++ encode r.depthClip ++ encode r.scissor ++ encode r.depthBias
    ++ encode r.slopeScaledDepthBias

/-- The depth and stencil tests. -/
structure DepthStencilState where
  depthEnable : Bool := true
  depthWrite : Bool := true
  depthFunc : ComparisonFunc := .less
  stencilEnable : Bool := false
  stencilReadMask : UInt8 := 0xFF
  stencilWriteMask : UInt8 := 0xFF
  deriving DecidableEq, Repr

instance : Encode DepthStencilState where
  encode d := encode d.depthEnable ++ encode d.depthWrite ++ encode d.depthFunc
    ++ encode d.stencilEnable ++ encode d.stencilReadMask ++ encode d.stencilWriteMask

/-- A vertex attribute. Without an offset it follows the attribute before it. -/
structure LayoutElement where
  inputIndex : UInt32
  bufferSlot : UInt32
  componentCount : UInt32
  valueType : ValueType
  isNormalized : Bool
  relativeOffset : Option UInt32
  stride : Option UInt32
  frequency : InputFrequency
  instanceStepRate : UInt32
  semantic : String
  deriving DecidableEq, Repr

instance : Encode LayoutElement where
  encode e := encode e.inputIndex ++ encode e.bufferSlot ++ encode e.componentCount
    ++ encode e.valueType ++ encode e.isNormalized ++ Encode.option e.relativeOffset
    ++ Encode.option e.stride ++ encode e.frequency ++ encode e.instanceStepRate
    ++ encode e.semantic

/-- The samples of a pixel. -/
structure SampleDesc where
  count : UInt8 := 1
  quality : UInt8 := 0
  deriving DecidableEq, Repr

/-- The fixed-function state and output formats of a graphics pipeline. -/
structure GraphicsState where
  blend : BlendState := {}
  sampleMask : UInt32 := 0xFFFFFFFF
  rasterizer : RasterizerState := {}
  depthStencil : DepthStencilState := {}
  inputLayout : List LayoutElement := []
  topology : PrimitiveTopology := .triangleList
  viewportCount : UInt8 := 1
  subpassIndex : UInt8 := 0
  targetFormats : List TextureFormat := []
  depthFormat : TextureFormat := .unknown
  samples : SampleDesc := {}
  deriving DecidableEq, Repr

instance : Encode GraphicsState where
  encode g := encode g.blend ++ encode g.sampleMask ++ encode g.rasterizer
    ++ encode g.depthStencil ++ Encode.list g.inputLayout ++ encode g.topology
    ++ encode g.viewportCount ++ encode g.subpassIndex ++ Encode.list g.targetFormats
    ++ encode g.depthFormat ++ encode g.samples.count ++ encode g.samples.quality

end PipelineArchive
