import PipelineArchive.Spirv.Interface
import PipelineArchive.Transcoder.Basic

/-!
# Compiling through the registry

A shader is compiled by the transcoder of its route. The inputs of an HLSL vertex shader for
Vulkan then get their locations from their semantics.
-/

set_option autoImplicit false

namespace PipelineArchive

namespace CompiledShader

/-- The locations that the semantics of vertex inputs ask for, by the names of the inputs. -/
def locations (shaderName : String) :
    List VertexInput → Except ArchiveError (List (String × UInt32))
  | [] => .ok []
  | input :: rest =>
      let semantic := input.semantic.getD ""
      match attributeLocation? semantic with
      | none => .error (.unmappedSemantic shaderName semantic)
      | some location => (locations shaderName rest).map ((input.name, location) :: ·)

/-- The compiled vertex shader whose inputs have the locations that their semantics ask for,
in the module as in the reflection. -/
def mapVertexInputs (compiled : CompiledShader) (shader : Shader) :
    Except ArchiveError CompiledShader := do
  let locations ← locations shader.name compiled.reflection.vertexInputs
  let remapped := do
    let module ← Spirv.Module.ofBytes compiled.code
    (module.remapLocations fun input =>
      (locations.reverse.lookup input.name).getD input.location).module?
  let module ← remapped.mapError fun e => .compilation .vulkan shader.stage e.message
  let inputs := (module.reflect shader.stage compiled.entryPoint).vertexInputs
  return { compiled with
    code := module.toBytes
    reflection := { compiled.reflection with vertexInputs := inputs } }

end CompiledShader

namespace Registry

variable {σ : Type}

/-- What becomes of native code after its transcoder is done. -/
def finish (backend : Backend) (shader : Shader) (code : Bytes) (entryPoint : String)
    (reflection : Reflection) : Except ArchiveError CompiledShader :=
  let compiled : CompiledShader :=
    ⟨backend, shader.source.language, code, entryPoint, reflection⟩
  if backend = .vulkan ∧ shader.source.language = .hlsl ∧ shader.stage = .vertex then
    compiled.mapVertexInputs shader
  else .ok compiled

/-- Compiles a shader for a backend. -/
def compile (r : Registry σ) (config : Config) (backend : Backend) (shader : Shader)
    (state : σ) : Except ArchiveError CompiledShader × σ :=
  match r.find? (backend, shader.source.language) with
  | none => (.error (.unsupportedInput backend shader.source.language), state)
  | some transcoder =>
      match transcoder.run backend config shader state with
      | (.error message, state) => (.error (.compilation backend shader.stage message), state)
      | (.ok (code, entryPoint, reflection), state) =>
          (finish backend shader code entryPoint reflection, state)

end Registry

end PipelineArchive
