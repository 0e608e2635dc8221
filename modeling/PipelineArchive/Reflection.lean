import PipelineArchive.Description.Resource

/-!
# Reflections of shaders

What a compiled shader declares: its resources and, for vertex shaders, its input attributes.
-/

set_option autoImplicit false

namespace PipelineArchive

/-- A resource that a shader declares. The set is a descriptor set, a register space or an
argument table, as the backend has it; an array size of zero stands for an array without
bound. -/
structure ReflectedResource where
  name : String
  resourceType : ResourceType
  set : UInt32
  binding : UInt32
  arraySize : UInt32
  stages : StageSet
  deriving DecidableEq, Repr

/-- An input attribute of a vertex shader, with the semantic that the compiler kept. -/
structure VertexInput where
  name : String
  semantic : Option String
  location : UInt32
  deriving DecidableEq, Repr

/-- What one compiled shader declares. -/
structure Reflection where
  stage : ShaderStage
  entryPoint : String
  resources : List ReflectedResource
  vertexInputs : List VertexInput
  deriving DecidableEq, Repr

namespace ReflectedResource

/-- The order of reflected resources: by set, then binding, then the bytes of the name. -/
def le (a b : ReflectedResource) : Bool :=
  if a.set ≠ b.set then a.set < b.set
  else if a.binding ≠ b.binding then a.binding < b.binding
  else Bytes.le (Bytes.ofText a.name) (Bytes.ofText b.name)

end ReflectedResource

/-- The number that decimal digits write, if it fits 32 bits; there is at least one digit. -/
def decimalU32? (digits : List Char) : Option UInt32 :=
  if digits.isEmpty || !digits.all Char.isDigit then none
  else
    let n := digits.foldl (fun acc c => acc * 10 + (c.toNat - '0'.toNat)) 0
    if n < UInt32.size then some (UInt32.ofNat n) else none

/-- The input location of a semantic: the number after `ATTRIB`, which is matched without
regard to ASCII case. -/
def attributeLocation? (semantic : String) : Option UInt32 :=
  let cs := semantic.toList
  if (cs.take 6).map Char.toUpper = ['A', 'T', 'T', 'R', 'I', 'B'] then decimalU32? (cs.drop 6)
  else none

end PipelineArchive
