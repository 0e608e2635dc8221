import PipelineArchive.Document.Content
import PipelineArchive.Document.Json
import PipelineArchive.Description.Schema
import PipelineArchive.Transcoder.Compile

/-!
# Scripted transcoders

A scripted transcoder takes its results from the shader: the source is a JSON text that gives
the native code, or one such text for each backend. It stands in for a compiler of HLSL, and
counts how often it is called.
-/

set_option autoImplicit false

namespace PipelineArchive

open FromDocument

/-! ## Reflections in documents -/

instance : FromDocument VertexInput where
  read? d := do
    let f ← fields? ["name", "semantic", "location"] d
    return {
      name := ← required f "name"
      semantic := ← optional f "semantic" none
      location := ← optional f "location" 0 }

/-- The resource that a document describes, visible to a stage where it names none. -/
def ReflectedResource.read? (stage : ShaderStage) (d : Document) :
    Reading ReflectedResource := do
  let f ← fields? ["name", "resource_type", "set", "binding", "array_size", "stages"] d
  let stages : Option StageSet ← optional f "stages" none
  return {
    name := ← required f "name"
    resourceType := ← required f "resource_type"
    set := ← optional f "set" 0
    binding := ← optional f "binding" 0
    arraySize := ← optional f "array_size" 1
    stages := stages.getD (.singleton stage) }

/-- The reflection that a document describes; the stage may be left to a default. -/
def Reflection.read? (default : Option ShaderStage) (d : Document) : Reading Reflection := do
  let f ← fields? ["stage", "entry_point", "resources", "vertex_inputs"] d
  let given : Option ShaderStage ← optional f "stage" none
  let stage ← given.or default
  let resources ← items? ((f.lookup "resources").getD (.list []))
  return {
    stage
    entryPoint := ← optional f "entry_point" "main"
    resources := ← resources.mapM (ReflectedResource.read? stage)
    vertexInputs := ← optional f "vertex_inputs" [] }

instance : FromDocument Reflection := ⟨Reflection.read? none⟩

/-! ## Scripts -/

namespace Transcoder

/-- The result that a script gives to a backend. -/
def scriptedResult (script : Document) (backend : Backend) (shader : Shader) :
    Except String Transcoded :=
  let result := (script.member? backend.tag).getD script
  match result.member? "error" with
  | some (.text message) => .error message
  | _ =>
      match ((result.member? "code").bind (FromDocument.read? · .json) : Option Content) with
      | none => .error "script has no code"
      | some code =>
          let entryPoint := match result.member? "entry_point" with
            | some (.text name) => name
            | _ => shader.entryPoint
          match result.member? "reflection" with
          | none | some .null => .ok ⟨code.bytes, entryPoint, none⟩
          | some d =>
              match Reflection.read? (some shader.stage) d .json with
              | some reflection => .ok ⟨code.bytes, entryPoint, some reflection⟩
              | none => .error "bad reflection"

/-- The result that the source of a shader gives to a backend. -/
def compileScript (backend : Backend) (shader : Shader) : Except String Transcoded :=
  match shader.source.text? with
  | none => .error "no text"
  | some text =>
      match Json.parse? text with
      | none => .error "not a script"
      | some script => scriptedResult script backend shader

/-- The transcoder that does what the source of a shader says. Its state counts the calls;
what a script leaves open is read from the code as SPIR-V. -/
def scripted (capabilities : Capabilities) : Transcoder Nat where
  capabilities
  compile := fun backend _ shader count => (compileScript backend shader, count + 1)
  reflect := fun code stage count =>
    match Spirv.Module.ofBytes code with
    | .ok module => (.ok (module.reflect stage "main"), count)
    | .error e => (.error e.message, count)

end Transcoder

/-- A registry with a scripted transcoder of HLSL for every backend. -/
def Registry.withScripts (r : Registry Nat) (capabilities : Capabilities) : Registry Nat :=
  Backend.all.foldl (fun r b => r.insert (b, .hlsl) (.scripted capabilities)) r

end PipelineArchive
