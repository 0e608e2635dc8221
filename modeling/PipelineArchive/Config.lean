/-!
# Configuration

Options that affect how shaders are compiled and what an archive contains.
-/

set_option autoImplicit false

namespace PipelineArchive

/-- The version of the Metal language. -/
structure MetalVersion where
  major : UInt8
  minor : UInt8
  deriving DecidableEq, Repr

/-- The options of an archiver. -/
structure Config where
  /-- HLSL for Direct3D12 is compiled to DXIL. -/
  useDxil : Bool := false
  /-- The GLSL version of OpenGL shaders. -/
  glVersion : UInt32 := 430
  /-- The GLSL version of OpenGL ES shaders. -/
  glesVersion : UInt32 := 310
  /-- The language version of Metal shaders. -/
  mslVersion : MetalVersion := ⟨2, 1⟩
  /-- The archive says who built it. -/
  writeDebugInfo : Bool := true
  deriving DecidableEq, Repr

end PipelineArchive
