import PipelineArchive.Error
import PipelineArchive.Reflection

/-!
# Matching signatures with shaders

The signatures given for a pipeline must have binding indices of their own and must declare
every resource of every shader exactly once: with its type, with enough elements and visible
to the shader's stage. A sampler may be declared by an immutable sampler alone.
-/

set_option autoImplicit false

namespace PipelineArchive.Signature

/-- Refuses signatures that share a binding index; `seen` are the ones before. -/
def checkIndicesAfter (seen : List Signature) : List Signature → Except ArchiveError Unit
  | [] => .ok ()
  | signature :: rest =>
      match seen.find? fun other => other.bindingIndex == signature.bindingIndex with
      | some other =>
          .error (.bindingMismatch signature.name
            (.sharedIndex other.name signature.name signature.bindingIndex))
      | none => checkIndicesAfter (signature :: seen) rest

/-- Refuses signatures that share a binding index. -/
def checkIndices (signatures : List Signature) : Except ArchiveError Unit :=
  checkIndicesAfter [] signatures

/-- The declarations of a reflected resource in one signature; that by an immutable sampler
has no resource. -/
def declarations (stage : ShaderStage) (resource : ReflectedResource) (signature : Signature) :
    List (Signature × Option Resource) :=
  (signature.resources.filter fun r => r.name == resource.name).map (fun r => (signature, some r))
  ++ (if resource.resourceType = .sampler
        ∧ !(signature.resources.any fun r => r.name == resource.name && r.resourceType == .sampler)
        ∧ (signature.immutableSampler? resource.name (.singleton stage)).isSome
      then [(signature, none)] else [])

/-- Why the only declaration of a resource does not fit it, if it does not. -/
def misfit? (stage : ShaderStage) (resource : ReflectedResource) (signature : Signature)
    (declared : Resource) : Option SignatureMismatch :=
  if declared.resourceType ≠ resource.resourceType then
    some (.otherType signature.name declared.resourceType resource.resourceType stage)
  else if resource.arraySize ≠ 0 ∧ declared.arraySize < resource.arraySize then
    some (.tooFewElements signature.name declared.arraySize resource.arraySize stage)
  else if !declared.stages.contains stage then some (.invisible signature.name stage)
  else none

/-- Why signatures do not declare a resource of a shader as they should, if they do not. -/
def mismatch? (signatures : List Signature) (stage : ShaderStage)
    (resource : ReflectedResource) : Option SignatureMismatch :=
  match signatures.flatMap (declarations stage resource) with
  | [] => some (.undeclared stage)
  | [(_, none)] => none
  | [(signature, some declared)] => misfit? stage resource signature declared
  | (first, _) :: (second, _) :: _ => some (.declaredTwice first.name second.name)

/-- Refuses signatures that do not declare every resource of a shader as they should. -/
def checkReflection (signatures : List Signature) (reflection : Reflection) :
    Except ArchiveError Unit :=
  reflection.resources.forM fun resource =>
    match mismatch? signatures reflection.stage resource with
    | some mismatch => .error (.bindingMismatch resource.name mismatch)
    | none => .ok ()

end PipelineArchive.Signature
