import PipelineArchive.Backend
import PipelineArchive.Reflection
import PipelineArchive.Description.Shader

/-!
# Compiled shaders

The native code of a shader on one backend, with what it declares.
-/

set_option autoImplicit false

namespace PipelineArchive

/-- A shader compiled for a backend. -/
structure CompiledShader where
  backend : Backend
  language : InputLanguage
  code : Bytes
  entryPoint : String
  reflection : Reflection
  deriving DecidableEq, Repr

end PipelineArchive
