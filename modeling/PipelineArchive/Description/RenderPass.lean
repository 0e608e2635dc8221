import PipelineArchive.Encoding

/-!
# Render passes

A render pass declares attachments, the subpasses that refer to them by index, and the
dependencies between subpasses. `RenderPass.check` refuses a pass whose references lead
nowhere.
-/

set_option autoImplicit false

namespace PipelineArchive

/-- The format of a texture used as an attachment or render target. -/
inductive TextureFormat where
  | unknown
  | rgba8Unorm
  | rgba8UnormSrgb
  | bgra8Unorm
  | bgra8UnormSrgb
  | rgb10A2Unorm
  | r11G11B10Float
  | r8Unorm
  | rg8Unorm
  | r16Float
  | rg16Float
  | rgba16Float
  | r32Float
  | rg32Float
  | rgba32Float
  | r32Uint
  | d16Unorm
  | d24UnormS8Uint
  | d32Float
  | d32FloatS8X24Uint
  deriving DecidableEq, Repr

instance : Encode TextureFormat := ⟨fun x => Bytes.ofU32 (UInt32.ofNat x.ctorIdx)⟩

/-- What happens to the contents of an attachment when a pass starts. -/
inductive LoadOp where
  | load
  | clear
  | discard
  deriving DecidableEq, Repr

instance : Encode LoadOp := ⟨fun x => Bytes.ofU32 (UInt32.ofNat x.ctorIdx)⟩

/-- What happens to the contents of an attachment when a pass ends. -/
inductive StoreOp where
  | store
  | discard
  deriving DecidableEq, Repr

instance : Encode StoreOp := ⟨fun x => Bytes.ofU32 (UInt32.ofNat x.ctorIdx)⟩

/-- The state that an attachment is in. -/
inductive ResourceState where
  | undefined
  | renderTarget
  | depthWrite
  | depthRead
  | shaderResource
  | inputAttachment
  | resolveDest
  | copySource
  | present
  deriving DecidableEq, Repr

instance : Encode ResourceState := ⟨fun x => Bytes.ofU32 (UInt32.ofNat x.ctorIdx)⟩

/-- An attachment of a render pass. -/
structure Attachment where
  format : TextureFormat
  sampleCount : UInt8
  loadOp : LoadOp
  storeOp : StoreOp
  stencilLoadOp : LoadOp
  stencilStoreOp : StoreOp
  initialState : ResourceState
  finalState : ResourceState
  deriving DecidableEq, Repr

instance : Encode Attachment where
  encode a := encode a.format ++ encode a.sampleCount ++ encode a.loadOp ++ encode a.storeOp
    ++ encode a.stencilLoadOp ++ encode a.stencilStoreOp ++ encode a.initialState
    ++ encode a.finalState

/-- The use of an attachment, given by its index, in a state. -/
structure AttachmentReference where
  index : UInt32
  state : ResourceState
  deriving DecidableEq, Repr

instance : Encode AttachmentReference := ⟨fun r => encode r.index ++ encode r.state⟩

/-- A subpass and the attachments it uses. -/
structure Subpass where
  inputs : List AttachmentReference
  renderTargets : List AttachmentReference
  resolves : List AttachmentReference
  depthStencil : Option AttachmentReference
  preserved : List UInt32
  deriving DecidableEq, Repr

namespace Subpass

instance : Encode Subpass where
  encode s := Encode.list s.inputs ++ Encode.list s.renderTargets ++ Encode.list s.resolves
    ++ Encode.option s.depthStencil ++ Encode.list s.preserved

/-- The indices of all attachments that a subpass names. -/
def attachmentIndices (s : Subpass) : List UInt32 :=
  (s.inputs ++ s.renderTargets ++ s.resolves ++ s.depthStencil.toList).map (·.index)
    ++ s.preserved

end Subpass

/-- An ordering between two subpasses. -/
structure SubpassDependency where
  srcSubpass : UInt32
  dstSubpass : UInt32
  srcStageMask : UInt32
  dstStageMask : UInt32
  srcAccessMask : UInt32
  dstAccessMask : UInt32
  deriving DecidableEq, Repr

instance : Encode SubpassDependency where
  encode d := encode d.srcSubpass ++ encode d.dstSubpass ++ encode d.srcStageMask
    ++ encode d.dstStageMask ++ encode d.srcAccessMask ++ encode d.dstAccessMask

/-- The attachments, subpasses and dependencies of a render pass. -/
structure RenderPass where
  name : String
  attachments : List Attachment
  subpasses : List Subpass
  dependencies : List SubpassDependency
  deriving DecidableEq, Repr

/-- The index that stands for the work outside a render pass. -/
def externalSubpass : UInt32 := 0xFFFFFFFF

/-- Why a render pass is refused. -/
inductive RenderPassFault where
  | emptyName
  | noSubpasses (pass : String)
  | missingAttachment (subpass : Nat) (pass : String) (index declared : Nat)
  | unknownSubpass (pass : String)
  deriving DecidableEq, Repr

/-- The text of a fault. -/
def RenderPassFault.message : RenderPassFault → String
  | .emptyName => "render pass name must not be empty"
  | .noSubpasses pass => s!"render pass '{pass}' has no subpasses"
  | .missingAttachment subpass pass index declared =>
      s!"subpass {subpass} of render pass '{pass}' references attachment {index}, but only {declared} are declared"
  | .unknownSubpass pass => s!"render pass '{pass}' has a dependency on an unknown subpass"

namespace RenderPass

instance : Encode RenderPass where
  encode p := encode p.name ++ Encode.list p.attachments ++ Encode.list p.subpasses
    ++ Encode.list p.dependencies

/-- The first subpass, counted from `start`, that names an undeclared attachment, with the
first such index. -/
def danglingReference? (declared : Nat) : Nat → List Subpass → Option (Nat × UInt32)
  | _, [] => none
  | start, subpass :: rest =>
      match subpass.attachmentIndices.find? fun index => declared ≤ index.toNat with
      | some index => some (start, index)
      | none => danglingReference? declared (start + 1) rest

/-- Whether a dependency may name a subpass. -/
def knowsSubpass (p : RenderPass) (index : UInt32) : Bool :=
  index == externalSubpass || index.toNat < p.subpasses.length

/-- Refuses a pass without name or subpasses and one whose references lead nowhere. -/
def check (p : RenderPass) : Except RenderPassFault Unit := do
  if p.name.isEmpty then throw .emptyName
  if p.subpasses.isEmpty then throw (.noSubpasses p.name)
  let declared := p.attachments.length
  if let some (subpass, index) := danglingReference? declared 0 p.subpasses then
    throw (.missingAttachment subpass p.name index.toNat declared)
  if p.dependencies.any fun d => !(p.knowsSubpass d.srcSubpass && p.knowsSubpass d.dstSubpass) then
    throw (.unknownSubpass p.name)

end RenderPass

end PipelineArchive
