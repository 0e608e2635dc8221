import PipelineArchive.Config
import PipelineArchive.Reflection
import PipelineArchive.Description.Shader

/-!
# Compilers of GLSL

What the transcoders of GLSL need to know about a shader, and the compiler that they get it
from. The transcoders work with any such compiler.
-/

set_option autoImplicit false

namespace PipelineArchive.Glsl

/-- The stages that GLSL is compiled for. -/
inductive Stage where
  | vertex
  | pixel
  | compute
  deriving DecidableEq, Repr

/-- The stage of a shader, if GLSL is compiled for it. -/
def Stage.of? : ShaderStage → Option Stage
  | .vertex => some .vertex
  | .pixel => some .pixel
  | .compute => some .compute
  | _ => none

/-- A bound variable that is a resource: a block has the name of the block, any other variable
its own. -/
structure Variable where
  name : String
  resourceType : ResourceType
  set : UInt32
  binding : UInt32
  arraySize : UInt32 := 1
  deriving DecidableEq, Repr

/-- What a shader declares. -/
structure Interface where
  stage : Stage
  resources : List Variable
  /-- The attributes of a vertex shader. -/
  inputs : List VertexInput
  deriving DecidableEq, Repr

/-- The place of a variable in the argument tables of Metal. -/
structure MetalPlace where
  set : UInt32
  binding : UInt32
  table : UInt32
  slot : Nat
  deriving DecidableEq, Repr

/-- A compiler of GLSL. A failure is the compiler's text. -/
structure Compiler where
  /-- Reads a shader, with macros defined before its text. -/
  parse : Stage → List ShaderMacro → String → Except String Interface
  /-- The SPIR-V of a shader that has been read, with the name of its entry point. -/
  spirv : Interface → String → Except String (List UInt32)
  /-- The Metal text of a shader that has been read, with the name of its entry point. -/
  metal : Interface → MetalVersion → List MetalPlace → Except String (String × Option String)

end PipelineArchive.Glsl
