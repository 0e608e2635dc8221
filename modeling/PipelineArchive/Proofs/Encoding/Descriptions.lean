import PipelineArchive.Description.Pipeline
import PipelineArchive.Proofs.Description.Stages
import PipelineArchive.Proofs.Encoding.SelfDelimiting

/-!
# The encodings of descriptions

Everything a description consists of is self-delimiting: enumerations and sets of stages are
words, and records are the tuples of their fields.
-/

set_option autoImplicit false

namespace PipelineArchive

/-! ## Words -/

instance : Word ChunkKind := .ofOrdinal ChunkKind.ctorIdx .ofNat
instance : Word ResourceType := .ofOrdinal ResourceType.ctorIdx .ofNat
instance : Word VariableType := .ofOrdinal VariableType.ctorIdx .ofNat
instance : Word FilterType := .ofOrdinal FilterType.ctorIdx .ofNat
instance : Word AddressMode := .ofOrdinal AddressMode.ctorIdx .ofNat
instance : Word ComparisonFunc := .ofOrdinal ComparisonFunc.ctorIdx .ofNat
instance : Word TextureFormat := .ofOrdinal TextureFormat.ctorIdx .ofNat
instance : Word LoadOp := .ofOrdinal LoadOp.ctorIdx .ofNat
instance : Word StoreOp := .ofOrdinal StoreOp.ctorIdx .ofNat
instance : Word ResourceState := .ofOrdinal ResourceState.ctorIdx .ofNat
instance : Word BlendFactor := .ofOrdinal BlendFactor.ctorIdx .ofNat
instance : Word BlendOperation := .ofOrdinal BlendOperation.ctorIdx .ofNat
instance : Word FillMode := .ofOrdinal FillMode.ctorIdx .ofNat
instance : Word CullMode := .ofOrdinal CullMode.ctorIdx .ofNat
instance : Word PrimitiveTopology := .ofOrdinal PrimitiveTopology.ctorIdx .ofNat
instance : Word ValueType := .ofOrdinal ValueType.ctorIdx .ofNat
instance : Word InputFrequency := .ofOrdinal InputFrequency.ctorIdx .ofNat

instance : Word ShaderStage where
  word s := (StageSet.singleton s).bits
  word_injective {s t} h := by
    have hmem : (StageSet.singleton s).contains t := by
      simp [StageSet.contains, StageSet.includes, h]
    exact (StageSet.contains_singleton.1 hmem).symm
  encode_eq _ := rfl

instance : Word StageSet where
  word := StageSet.bits
  word_injective {s t} h := by
    cases s
    cases t
    cases h
    rfl
  encode_eq _ := rfl

/-! ## Signatures -/

instance : Tupled Resource (String × StageSet × UInt32 × ResourceType × VariableType) where
  fields r := (r.name, r.stages, r.arraySize, r.resourceType, r.varType)

instance : Tupled BorderColor (Single × Single × Single × Single) where
  fields c := (c.red, c.green, c.blue, c.alpha)

instance : Tupled SamplerDesc (FilterType × FilterType × FilterType × AddressMode × AddressMode ×
    AddressMode × Single × UInt32 × ComparisonFunc × BorderColor × Single × Single) where
  fields s := (s.minFilter, s.magFilter, s.mipFilter, s.addressU, s.addressV, s.addressW,
    s.mipLodBias, s.maxAnisotropy, s.comparison, s.borderColor, s.minLod, s.maxLod)

instance : Tupled ImmutableSampler (StageSet × String × SamplerDesc) where
  fields s := (s.stages, s.name, s.desc)

instance : Tupled Signature (String × UInt8 × List Resource × List ImmutableSampler) where
  fields s := (s.name, s.bindingIndex, s.resources, s.immutableSamplers)

/-! ## Render passes -/

instance : Tupled Attachment (TextureFormat × UInt8 × LoadOp × StoreOp × LoadOp × StoreOp ×
    ResourceState × ResourceState) where
  fields a := (a.format, a.sampleCount, a.loadOp, a.storeOp, a.stencilLoadOp, a.stencilStoreOp,
    a.initialState, a.finalState)

instance : Tupled AttachmentReference (UInt32 × ResourceState) where
  fields r := (r.index, r.state)

instance : Tupled Subpass (List AttachmentReference × List AttachmentReference ×
    List AttachmentReference × Option AttachmentReference × List UInt32) where
  fields s := (s.inputs, s.renderTargets, s.resolves, s.depthStencil, s.preserved)

instance : Tupled SubpassDependency (UInt32 × UInt32 × UInt32 × UInt32 × UInt32 × UInt32) where
  fields d := (d.srcSubpass, d.dstSubpass, d.srcStageMask, d.dstStageMask, d.srcAccessMask,
    d.dstAccessMask)

instance : Tupled RenderPass (String × List Attachment × List Subpass ×
    List SubpassDependency) where
  fields p := (p.name, p.attachments, p.subpasses, p.dependencies)

/-! ## Fixed-function state -/

instance : Tupled TargetBlend (Bool × BlendFactor × BlendFactor × BlendOperation × BlendFactor ×
    BlendFactor × BlendOperation × UInt8) where
  fields b := (b.enable, b.src, b.dest, b.operation, b.srcAlpha, b.destAlpha, b.operationAlpha,
    b.writeMask)

instance : Tupled BlendState (Bool × Bool × List TargetBlend) where
  fields b := (b.alphaToCoverage, b.independent, b.targets)

instance : Tupled RasterizerState (FillMode × CullMode × Bool × Bool × Bool × Int32 × Single) where
  fields r := (r.fillMode, r.cullMode, r.frontCounterClockwise, r.depthClip, r.scissor,
    r.depthBias, r.slopeScaledDepthBias)

instance : Tupled DepthStencilState (Bool × Bool × ComparisonFunc × Bool × UInt8 × UInt8) where
  fields d := (d.depthEnable, d.depthWrite, d.depthFunc, d.stencilEnable, d.stencilReadMask,
    d.stencilWriteMask)

instance : Tupled LayoutElement (UInt32 × UInt32 × UInt32 × ValueType × Bool × Option UInt32 ×
    Option UInt32 × InputFrequency × UInt32 × String) where
  fields e := (e.inputIndex, e.bufferSlot, e.componentCount, e.valueType, e.isNormalized,
    e.relativeOffset, e.stride, e.frequency, e.instanceStepRate, e.semantic)

instance : Tupled GraphicsState (BlendState × UInt32 × RasterizerState × DepthStencilState ×
    List LayoutElement × PrimitiveTopology × UInt8 × UInt8 × List TextureFormat × TextureFormat ×
    UInt8 × UInt8) where
  fields g := (g.blend, g.sampleMask, g.rasterizer, g.depthStencil, g.inputLayout, g.topology,
    g.viewportCount, g.subpassIndex, g.targetFormats, g.depthFormat, g.samples.count,
    g.samples.quality)
  fields_injective := by
    -- the samples are a record, but their fields are encoded among those of the state
    rintro ⟨_, _, _, _, _, _, _, _, _, _, _, _⟩ ⟨_, _, _, _, _, _, _, _, _, _, _, _⟩ ⟨⟩
    rfl

-- the parts of this record are searched for once, since their instances are large together
set_option synthInstance.maxSize 256 in
instance : Bounded GraphicsState := inferInstance

set_option synthInstance.maxSize 256 in
instance : SelfDelimiting GraphicsState := inferInstance

/-! ## Pipelines -/

instance : Tupled VariableOverride (StageSet × String × VariableType) where
  fields v := (v.stages, v.name, v.varType)

instance : Tupled ResourceLayout (VariableType × List VariableOverride ×
    List ImmutableSampler) where
  fields l := (l.defaultType, l.overrides, l.immutableSamplers)

instance : Tupled ShaderMacro (String × String) where
  fields m := (m.name, m.definition)

instance : Tupled GeneralGroup (String × UInt32) where
  fields g := (g.name, g.shader)

instance : Tupled TriangleHitGroup (String × UInt32 × Option UInt32) where
  fields g := (g.name, g.closestHit, g.anyHit)

instance : Tupled ProceduralHitGroup (String × UInt32 × Option UInt32 × Option UInt32) where
  fields g := (g.name, g.intersection, g.closestHit, g.anyHit)

end PipelineArchive
