import PipelineArchive.Error
import PipelineArchive.Reflection

/-!
# Signatures from reflections

A pipeline without signatures gets one made from what its shaders declare: one resource for
every name, visible to all stages that declare it. Shaders that disagree about the type or
the array size of a name are refused.
-/

set_option autoImplicit false

namespace PipelineArchive

/-- The name of the signature made for a pipeline. -/
def Signature.defaultName (pipeline : String) : String :=
  s!"Default Signature of PSO '{pipeline}'"

namespace Synthesis

/-- The resources merged so far, in the order of their first mention. -/
abbrev Merged := List ReflectedResource

/-- Why two declarations of one name cannot be merged, if they cannot. -/
def conflict? (stage : ShaderStage) (first second : ReflectedResource) :
    Option ResourceConflict :=
  if first.resourceType ≠ second.resourceType then
    some (.types first.resourceType second.resourceType stage)
  else if first.arraySize ≠ second.arraySize then
    some (.arraySizes first.arraySize second.arraySize stage)
  else none

/-- Adds a declaration of a shader of some stage to the merged ones. -/
def merge (stage : ShaderStage) (merged : Merged) (resource : ReflectedResource) :
    Except ArchiveError Merged :=
  match merged with
  | [] => .ok [resource]
  | first :: rest =>
      if first.name = resource.name then
        match conflict? stage first resource with
        | some conflict => .error (.reflectionConflict resource.name conflict)
        | none => .ok ({ first with stages := first.stages.union resource.stages } :: rest)
      else (merge stage rest resource).map (first :: ·)

/-- The merged resources of several shaders. -/
def mergeAll (reflections : List Reflection) : Except ArchiveError Merged :=
  reflections.foldlM (fun merged r => r.resources.foldlM (merge r.stage) merged) []

/-- The order of resources in a signature: by variable type, then by the bytes of the name. -/
def le (a b : Resource) : Bool :=
  if a.varType ≠ b.varType then a.varType.ordinal < b.varType.ordinal
  else Bytes.le (Bytes.ofText a.name) (Bytes.ofText b.name)

/-- The resource of a signature that a merged declaration becomes. -/
def resource (layout : ResourceLayout) (r : ReflectedResource) : Resource where
  name := r.name
  stages := r.stages
  arraySize := r.arraySize
  resourceType := r.resourceType
  varType := layout.variableType r.name r.stages

end Synthesis

/-- The signature of a pipeline made from the reflections of its shaders. -/
def Signature.synthesize (pipeline : String) (reflections : List Reflection)
    (layout : ResourceLayout) : Except ArchiveError Signature :=
  match Synthesis.mergeAll reflections with
  | .error e => .error e
  | .ok merged => .ok {
      name := Signature.defaultName pipeline
      bindingIndex := 0
      resources := (merged.map (Synthesis.resource layout)).mergeSort Synthesis.le
      immutableSamplers := layout.immutableSamplers }

end PipelineArchive
