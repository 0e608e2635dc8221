import PipelineArchive.Description.Resource

/-!
# Binding ranges

Each backend numbers bindings in ranges of its own. Direct3D counts registers by kind, OpenGL
counts units by kind with samplers part of their textures, and Metal has three argument tables
of fixed size.
-/

set_option autoImplicit false

namespace PipelineArchive

/-- A binding class of OpenGL. -/
inductive GlRange where
  | uniformBlock
  | textureUnit
  | imageUnit
  | storageBlock
  deriving DecidableEq, Repr

namespace GlRange

/-- The stable number of a range. -/
def ordinal (r : GlRange) : Nat := r.ctorIdx

/-- The range of a resource type; samplers and acceleration structures have none. -/
def of? : ResourceType → Option GlRange
  | .constantBuffer => some .uniformBlock
  | .textureSrv | .inputAttachment => some .textureUnit
  | .textureUav => some .imageUnit
  | .bufferSrv | .bufferUav => some .storageBlock
  | .sampler | .accelStruct => none

end GlRange

/-- An argument table of Metal. -/
inductive MetalArgument where
  | buffer
  | texture
  | sampler
  deriving DecidableEq, Repr

namespace MetalArgument

/-- The stable number of a table. -/
def ordinal (a : MetalArgument) : Nat := a.ctorIdx

/-- The table of a resource type. -/
def of : ResourceType → MetalArgument
  | .constantBuffer | .bufferSrv | .bufferUav | .accelStruct => .buffer
  | .textureSrv | .textureUav | .inputAttachment => .texture
  | .sampler => .sampler

/-- The name of a table in messages. -/
def display : MetalArgument → String
  | buffer => "Buffer"
  | texture => "Texture"
  | sampler => "Sampler"

/-- The number of slots of a table. -/
def slotLimit : MetalArgument → Nat
  | buffer => 31
  | texture => 128
  | sampler => 16

end MetalArgument

/-- The number of slots that a range has in each stage of Direct3D11. -/
def DescriptorRange.slotLimit : DescriptorRange → Nat
  | srv => 128
  | sampler => 16
  | uav => 8
  | cbv => 14

end PipelineArchive
