import PipelineArchive.Description.Stage
import PipelineArchive.Text.Utf8

/-!
# Shaders

A shader has a stage, an entry point, a source and macros. The source is a text in one of the
input languages, a SPIR-V module, or a reference to a file that is loaded before the shader
is compiled. The debug name takes no part in the encoding: shaders that differ in it alone
are the same shader.
-/

set_option autoImplicit false

namespace PipelineArchive

/-- The language of a shader source. -/
inductive InputLanguage where
  | hlsl
  | glsl
  | glslVerbatim
  | spirv
  deriving DecidableEq, Repr

namespace InputLanguage

/-- All languages. -/
def all : List InputLanguage := [hlsl, glsl, glslVerbatim, spirv]

/-- The number written into shader records. -/
def tag : InputLanguage → UInt32
  | hlsl => 1
  | glsl => 2
  | glslVerbatim => 3
  | spirv => 4

/-- The name shown in messages. -/
def display : InputLanguage → String
  | hlsl => "HLSL"
  | glsl => "GLSL"
  | glslVerbatim => "verbatim GLSL"
  | spirv => "SPIR-V"

end InputLanguage

/-- Where the code of a shader comes from. -/
inductive ShaderSource where
  | hlsl (text : String)
  | glsl (text : String)
  | glslVerbatim (text : String)
  | spirv (words : List UInt32)
  | file (language : InputLanguage) (path : String)
  deriving DecidableEq, Repr

namespace ShaderSource

/-- The language of a source. -/
def language : ShaderSource → InputLanguage
  | hlsl _ => .hlsl
  | glsl _ => .glsl
  | glslVerbatim _ => .glslVerbatim
  | spirv _ => .spirv
  | file language _ => language

/-- The text of an inline source in a text language. -/
def text? : ShaderSource → Option String
  | hlsl text | glsl text | glslVerbatim text => some text
  | spirv _ | file _ _ => none

/-- Whether the source is a reference to a file. -/
def isFile : ShaderSource → Bool
  | file _ _ => true
  | _ => false

/-- Why the bytes of a file are no source in its language. -/
inductive ContentFault where
  | partialWord (path : String)
  | badText (path : String) (error : Utf8.Error)
  deriving DecidableEq, Repr

/-- The text of a fault. -/
def ContentFault.message : ContentFault → String
  | .partialWord path => s!"SPIR-V file '{path}' is not a whole number of words"
  | .badText path error => s!"shader file '{path}' is not valid UTF-8: {error.message}"

/-- The inline source that the bytes of a file are in a language. -/
def ofContent (language : InputLanguage) (path : String) (bytes : Bytes) :
    Except ContentFault ShaderSource :=
  match language with
  | .spirv =>
      if bytes.length % 4 = 0 then .ok (.spirv bytes.toWords) else .error (.partialWord path)
  | .hlsl => (Utf8.decode? bytes).mapError (.badText path) |>.map .hlsl
  | .glsl => (Utf8.decode? bytes).mapError (.badText path) |>.map .glsl
  | .glslVerbatim => (Utf8.decode? bytes).mapError (.badText path) |>.map .glslVerbatim

instance : Encode ShaderSource where
  encode source := encode source.language.tag ++
    match source with
    | hlsl text | glsl text | glslVerbatim text => encode text
    | spirv words => Encode.words words
    | file _ path => encode path

end ShaderSource

/-- A preprocessor definition. -/
structure ShaderMacro where
  name : String
  definition : String
  deriving DecidableEq, Repr

instance : Encode ShaderMacro := ⟨fun m => encode m.name ++ encode m.definition⟩

/-- One shader of a pipeline. -/
structure Shader where
  name : String
  stage : ShaderStage
  entryPoint : String
  source : ShaderSource
  macros : List ShaderMacro
  deriving DecidableEq, Repr

namespace Shader

instance : Encode Shader where
  encode s := encode s.stage ++ encode s.entryPoint ++ encode s.source ++ Encode.list s.macros

/-- The bytes that identify a shader among all shaders. -/
def key (s : Shader) : Bytes := encode s

end Shader

end PipelineArchive
