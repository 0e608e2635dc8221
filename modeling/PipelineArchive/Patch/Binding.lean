import PipelineArchive.Compiled
import PipelineArchive.Layout.Pipeline

/-!
# Resources and their places

Before the code of a shader is patched, every resource it declares is looked up in the
layout of its pipeline.
-/

set_option autoImplicit false

namespace PipelineArchive.Patch

/-- The place of one resource of a shader. -/
def resolve (backend : Backend) (layout : PipelineLayout) (stage : ShaderStage)
    (resource : ReflectedResource) : Except ArchiveError (ReflectedResource × LayoutBinding) :=
  match layout.find? resource.name resource.resourceType with
  | some binding => .ok (resource, binding)
  | none => .error (.patching backend (.notInLayout resource.resourceType resource.name stage))

/-- The places of all resources that a shader declares. -/
def resolveAll (backend : Backend) (layout : PipelineLayout) (shader : CompiledShader) :
    Except ArchiveError (List (ReflectedResource × LayoutBinding)) :=
  shader.reflection.resources.mapM (resolve backend layout shader.reflection.stage)

/-- The value that the last pair with a key holds. -/
def lastValue? {κ α : Type} [DecidableEq κ] (key : κ) (pairs : List (κ × α)) : Option α :=
  pairs.reverse.lookup key

end PipelineArchive.Patch
