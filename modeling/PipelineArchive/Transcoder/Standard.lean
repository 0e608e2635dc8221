import PipelineArchive.Glsl.Basic
import PipelineArchive.Layout.Range
import PipelineArchive.Text.Blank
import PipelineArchive.Transcoder.Compile

/-!
# Standard transcoders

SPIR-V passes through to Vulkan. GLSL is read by a compiler and becomes SPIR-V for Vulkan, its
own text with a version and macros for OpenGL, and Metal text with placeholder arguments for
Metal.
-/

set_option autoImplicit false

namespace PipelineArchive

namespace Transcoder

variable {σ : Type}

/-! ## SPIR-V -/

/-- The module that a shader holds, which must declare the entry point if it declares any. -/
def passSpirv (shader : Shader) : Except String Transcoded :=
  match shader.source with
  | .spirv words =>
      match Spirv.Module.parse words with
      | .error e => .error e.message
      | .ok module =>
          let entryPoints := module.entryPoints
          if !entryPoints.isEmpty && !(entryPoints.any fun e => e.name == shader.entryPoint) then
            .error s!"SPIR-V module has no entry point named '{shader.entryPoint}'"
          else
            .ok ⟨module.toBytes, shader.entryPoint,
              some (module.reflect shader.stage shader.entryPoint)⟩
  | source => .error s!"expected SPIR-V bytecode, got {source.language.display}"

/-- The reflection of a module, with the name of its first entry point. -/
def reflectSpirv (code : Bytes) (stage : ShaderStage) : Except String Reflection :=
  match Spirv.Module.ofBytes code with
  | .error e => .error e.message
  | .ok module =>
      .ok (module.reflect stage ((module.entryPoints.head?.map (·.name)).getD "main"))

/-- The transcoder that hands SPIR-V on as it is. -/
def spirvPassThrough : Transcoder σ := stateless (fun _ _ shader => passSpirv shader) reflectSpirv

/-! ## Reading GLSL -/

/-- The stage of a GLSL shader, if it can be compiled. -/
def glslStage (stage : ShaderStage) : Except String Glsl.Stage :=
  match Glsl.Stage.of? stage with
  | some stage => .ok stage
  | none => .error s!"GLSL {stage.display} shaders are not supported by the built-in compiler"

/-- The text of a GLSL shader. -/
def glslText : ShaderSource → Except String String
  | .glsl text | .glslVerbatim text => .ok text
  | source => .error s!"expected GLSL source, got {source.language.display}"

/-- Whether a shader is to be taken as it is written. -/
def isVerbatim (shader : Shader) : Bool := shader.source.language == .glslVerbatim

/-- Reads a shader; macros count unless it is to be taken as it is written. -/
def parseGlsl (compiler : Glsl.Compiler) (shader : Shader) (text : String) :
    Except String Glsl.Interface := do
  let stage ← glslStage shader.stage
  compiler.parse stage (if isVerbatim shader then [] else shader.macros) text

/-- What a GLSL shader declares, its variables moved to the places of a backend. -/
def glslReflection (interface : Glsl.Interface) (stage : ShaderStage) (entryPoint : String)
    (place : Glsl.Variable → UInt32 × UInt32) : Reflection where
  stage
  entryPoint
  resources := (interface.resources.map fun v =>
    let (set, binding) := place v
    { name := v.name, resourceType := v.resourceType, set, binding, arraySize := v.arraySize,
      stages := .singleton stage : ReflectedResource }).mergeSort ReflectedResource.le
  vertexInputs :=
    if stage = .vertex then interface.inputs.mergeSort fun a b => a.location ≤ b.location else []

/-- The place that a variable declares. -/
def declaredPlace (v : Glsl.Variable) : UInt32 × UInt32 := (v.set, v.binding)

/-! ## GLSL for Vulkan -/

/-- The SPIR-V of a GLSL shader. -/
def glslToSpirv (compiler : Glsl.Compiler) (shader : Shader) : Except String Transcoded := do
  let _ ← glslStage shader.stage
  let text ← glslText shader.source
  let interface ← parseGlsl compiler shader text
  let words ← compiler.spirv interface shader.entryPoint
  let module ← (Spirv.Module.parse words).mapError (·.message)
  return ⟨module.toBytes, shader.entryPoint,
    some (module.reflect shader.stage shader.entryPoint)⟩

/-- The transcoder of GLSL for Vulkan. -/
def glslForVulkan (compiler : Glsl.Compiler) : Transcoder σ :=
  stateless (fun _ _ shader => glslToSpirv compiler shader) reflectSpirv

/-! ## GLSL for OpenGL -/

/-- A text without the line of a version directive at its start, which blanks may precede. -/
def withoutVersion (text : List Char) : List Char :=
  if "#version".toList.isPrefixOf (Text.trimStart text) then
    ((Text.trimStart text).dropWhile (· ≠ '\n')).drop 1
  else text

/-- The lines that precede a text: the version, the precisions of OpenGL ES, and the macros. -/
def preamble (backend : Backend) (config : Config) (macros : List ShaderMacro) : List Char :=
  let version :=
    if backend = .gles then
      s!"#version {config.glesVersion.toNat} es\nprecision highp float;\nprecision highp int;\n"
    else s!"#version {config.glVersion.toNat}\n"
  version.toList ++ macros.flatMap fun m => s!"#define {m.name} {m.definition}\n".toList

/-- The final text of a GLSL shader. -/
def finalGlsl (backend : Backend) (config : Config) (shader : Shader) (text : String) : String :=
  if isVerbatim shader then text
  else String.ofList (preamble backend config shader.macros ++ withoutVersion text.toList)

/-- The final text of a GLSL shader that has been read without an error. -/
def glslToGlsl (compiler : Glsl.Compiler) (backend : Backend) (config : Config)
    (shader : Shader) : Except String Transcoded := do
  let text ← glslText shader.source
  let interface ← parseGlsl compiler shader text
  return ⟨Bytes.ofText (finalGlsl backend config shader text), shader.entryPoint,
    some (glslReflection interface shader.stage shader.entryPoint declaredPlace)⟩

/-- The reflection of a GLSL text. -/
def reflectGlsl (compiler : Glsl.Compiler) (code : Bytes) (stage : ShaderStage) :
    Except String Reflection := do
  let text ← (Utf8.decode? code).mapError fun e => s!"GLSL is not valid UTF-8: {e.message}"
  let interface ← compiler.parse (← glslStage stage) [] text
  return glslReflection interface stage "main" declaredPlace

/-- The transcoder of GLSL for OpenGL. -/
def glslForOpenGl (compiler : Glsl.Compiler) : Transcoder σ :=
  stateless (glslToGlsl compiler) (reflectGlsl compiler)

/-! ## GLSL for Metal -/

/-- The order of placeholders: by table, then by the declared place. -/
def placeholderLe (a b : MetalArgument × Glsl.Variable) : Bool :=
  if a.1 ≠ b.1 then a.1.ordinal < b.1.ordinal
  else if a.2.set ≠ b.2.set then a.2.set < b.2.set
  else a.2.binding ≤ b.2.binding

/-- Numbers variables within their tables; `used` counts those before. -/
def numberPlaceholders :
    (MetalArgument → Nat) → List (MetalArgument × Glsl.Variable) →
      Except String (List Glsl.MetalPlace)
  | _, [] => .ok []
  | used, (table, v) :: rest =>
      if 255 < used table then .error "too many resources for Metal placeholder slots"
      else
        let used' := fun other => if other = table then used table + 1 else used other
        (numberPlaceholders used' rest).map
          (⟨v.set, v.binding, UInt32.ofNat table.ordinal, used table⟩ :: ·)

/-- The placeholder arguments of the variables of a shader. -/
def placeholders (interface : Glsl.Interface) : Except String (List Glsl.MetalPlace) :=
  let tagged := interface.resources.map fun v => (MetalArgument.of v.resourceType, v)
  numberPlaceholders (fun _ => 0) (tagged.mergeSort placeholderLe)

/-- The placeholder of a variable: the last one of its declared place. -/
def placeholderOf (places : List Glsl.MetalPlace) (v : Glsl.Variable) : UInt32 × UInt32 :=
  match places.reverse.find? fun p => p.set == v.set && p.binding == v.binding with
  | some p => (p.table, UInt32.ofNat p.slot)
  | none => declaredPlace v

/-- The Metal text of a GLSL shader. -/
def glslToMetal (compiler : Glsl.Compiler) (config : Config) (shader : Shader) :
    Except String Transcoded := do
  let _ ← glslStage shader.stage
  let text ← glslText shader.source
  let interface ← parseGlsl compiler shader text
  let places ← placeholders interface
  let (source, name?) ← compiler.metal interface config.mslVersion places
  let entryPoint := name?.getD shader.entryPoint
  return ⟨Bytes.ofText source, entryPoint,
    some (glslReflection interface shader.stage entryPoint (placeholderOf places))⟩

/-- The transcoder of GLSL for Metal, which cannot reflect Metal text. -/
def glslForMetal (compiler : Glsl.Compiler) : Transcoder σ :=
  stateless (fun _ config shader => glslToMetal compiler config shader) fun _ stage =>
    .error s!"MSL {stage.display} shaders cannot be reflected after compilation"

end Transcoder

/-- The registry with the standard transcoders, which need a compiler of GLSL. -/
def Registry.standard {σ : Type} (compiler : Glsl.Compiler) : Registry σ :=
  [InputLanguage.glsl, .glslVerbatim].foldl
    (fun r language =>
      let r := r.insert (.vulkan, language) (Transcoder.glslForVulkan compiler)
      let r := r.insert (.gl, language) (Transcoder.glslForOpenGl compiler)
      let r := r.insert (.gles, language) (Transcoder.glslForOpenGl compiler)
      let r := r.insert (.metalMacos, language) (Transcoder.glslForMetal compiler)
      r.insert (.metalIos, language) (Transcoder.glslForMetal compiler))
    (Registry.empty.insert (.vulkan, .spirv) Transcoder.spirvPassThrough)

end PipelineArchive
