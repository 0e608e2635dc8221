import PipelineArchive.Reflection
import PipelineArchive.Spirv.Declarations

/-!
# The interface of a SPIR-V module

The resources and vertex inputs that a module declares, and the remapping of their places.
`Module.reflect` lists them in a fixed order. `Module.remapBindings` and
`Module.remapLocations` write new sets, bindings and locations over the literals of existing
decorations, so no instruction changes its length.
-/

set_option autoImplicit false

namespace PipelineArchive.Spirv

namespace StorageClass

def uniformConstant : UInt32 := 0
def input : UInt32 := 1
def uniform : UInt32 := 2
def storageBuffer : UInt32 := 12

end StorageClass

/-- The product of two counts, or the largest count where it does not fit. -/
def saturatingMul (a b : UInt32) : UInt32 :=
  UInt32.ofNat (min (a.toNat * b.toNat) 0xFFFFFFFF)

namespace Module

/-! ## Resources -/

/-- The type below at most `depth` arrays of a type, with the count of its elements: the product
of the lengths, or zero from an array without bound on. -/
def unwrapUpTo (m : Module) : Nat → UInt32 → UInt32 → UInt32 × UInt32
  | 0, id, count => (id, count)
  | depth + 1, id, count =>
      match m.type? id with
      | some (.array element length) =>
          m.unwrapUpTo depth element (saturatingMul count ((m.constant? length).getD 1))
      | some (.runtimeArray element) => m.unwrapUpTo depth element 0
      | _ => (id, count)

/-- The type below the arrays of a type, with the count of its elements. Arrays that do not
contain themselves nest no deeper than there are types. -/
def unwrapArrays (m : Module) (id : UInt32) : UInt32 × UInt32 :=
  m.unwrapUpTo (m.instructions.filterMap Instruction.type?).length id 1

/-- Whether shaders only read a buffer: its variable is not writable, or none of the members
of its structure is. -/
def isReadOnly (m : Module) (variableId structId : UInt32) : Bool :=
  m.hasDecoration variableId Decoration.nonWritable ||
    match m.type? structId with
    | some (.struct members) =>
        !members.isEmpty && members.length ≤ m.nonWritableCount structId
    | _ => false

/-- The resource type of an image. -/
def imageType (dim sampled : UInt32) : ResourceType :=
  let isStorage := sampled == 2
  if dim = 6 then .inputAttachment
  else if dim = 5 then if isStorage then .bufferUav else .bufferSrv
  else if isStorage then .textureUav
  else .textureSrv

/-- The resource type of a variable, given the type below its pointer and arrays. -/
def resourceType? (m : Module) (v : Variable) (base : UInt32) : Option ResourceType :=
  match m.type? base with
  | none => none
  | some type =>
      if v.storageClass = StorageClass.uniformConstant then
        match type with
        | .image dim sampled => some (imageType dim sampled)
        | .sampler => some .sampler
        | .sampledImage => some .textureSrv
        | .accelerationStructure => some .accelStruct
        | _ => none
      else
        match type with
        | .struct _ =>
            let buffer : ResourceType := if m.isReadOnly v.id base then .bufferSrv else .bufferUav
            if v.storageClass = StorageClass.uniform then
              some (if m.hasDecoration base Decoration.bufferBlock then buffer else .constantBuffer)
            else if v.storageClass = StorageClass.storageBuffer then some buffer
            else none
        | _ => none

/-- The name of a block: its own, or that of the structure that is its only member. -/
def blockName? (m : Module) (block : UInt32) : Option String :=
  match m.debugName? block with
  | some name => some name
  | none =>
      match m.type? block with
      | some (.struct [member]) =>
          match m.type? member with
          | some (.struct _) => m.debugName? member
          | _ => none
      | _ => none

/-- The name that a resource is known by: that of its block, unless the block carries a name
made up by a compiler; else that of its variable, or of its type. -/
def resourceName (m : Module) (variableId base : UInt32) : String :=
  let variableName := m.debugName? variableId
  let isBlock := match m.type? base with
    | some (.struct _) => true
    | _ => false
  let typeName := if isBlock then m.blockName? base else m.debugName? base
  let name? := match typeName, variableName with
    | some t, some v => if isBlock && !t.startsWith "type." then some t else some v
    | some t, none => some t
    | none, v => v
  name?.getD s!"_{variableId.toNat}"

/-- The resource that a variable is, if it is one. -/
def resource? (m : Module) (stage : ShaderStage) (v : Variable) : Option ReflectedResource :=
  match m.type? v.pointerType with
  | some (.pointer pointee) =>
      let (base, arraySize) := m.unwrapArrays pointee
      (m.resourceType? v base).map fun resourceType => {
        name := m.resourceName v.id base
        resourceType
        set := (m.decorationValue? v.id Decoration.descriptorSet).getD 0
        binding := (m.decorationValue? v.id Decoration.binding).getD 0
        arraySize
        stages := .singleton stage }
  | _ => none

/-- The resources with the identifiers of their variables, in order. -/
def resources (m : Module) (stage : ShaderStage) : List (UInt32 × ReflectedResource) :=
  (m.declaredVariables.filterMap fun v => (m.resource? stage v).map (v.id, ·)).mergeSort
    fun a b => a.2.le b.2

/-! ## Vertex inputs -/

/-- The vertex input that a variable is: an input that is not built in and has a location or
a semantic. -/
def vertexInput? (m : Module) (v : Variable) : Option VertexInput :=
  if v.storageClass = StorageClass.input ∧ ¬ m.hasDecoration v.id Decoration.builtIn then
    let location := m.decorationValue? v.id Decoration.location
    let semantic := m.semantic? v.id
    if location.isNone && semantic.isNone then none
    else
      some {
        name := (m.name? v.id).getD s!"_{v.id.toNat}"
        semantic
        location := location.getD 0 }
  else none

/-- The order of vertex inputs: by location, then by identifier. -/
def inputLe (a b : UInt32 × VertexInput) : Bool :=
  if a.2.location ≠ b.2.location then a.2.location < b.2.location else a.1 ≤ b.1

/-- The vertex inputs with the identifiers of their variables, in order. -/
def vertexInputs (m : Module) : List (UInt32 × VertexInput) :=
  (m.declaredVariables.filterMap fun v => (m.vertexInput? v).map (v.id, ·)).mergeSort inputLe

/-- What a module declares, taken as a shader of a stage. -/
def reflect (m : Module) (stage : ShaderStage) (entryPoint : String) : Reflection where
  stage
  entryPoint
  resources := (m.resources stage).map (·.2)
  vertexInputs := if stage = .vertex then m.vertexInputs.map (·.2) else []

/-! ## Remapping -/

/-- A module after some of its decorations were changed, with the names that were looked up on
the way and the error that ended it early, if there was one. -/
structure Remapping where
  module : Module
  asked : List String
  outcome : Except Error Unit

/-- A module with the literal of a decoration replaced. -/
def setDecoration (m : Module) (id decoration value : UInt32) (decorationName : String) :
    Except Error Module :=
  match (m.decoration? id decoration).bind (·.literal) with
  | some position => .ok { m with words := m.words.set position value }
  | none => .error (.missingDecoration id ((m.name? id).getD "") decorationName)

/-- Changes the places of the listed resources, in order; what was written before an error
stays. -/
def remapBindingsOf (assign : ReflectedResource → Option (UInt32 × UInt32)) :
    List (UInt32 × ReflectedResource) → Module → Remapping
  | [], m => ⟨m, [], .ok ()⟩
  | (id, resource) :: rest, m =>
      let next (m : Module) : Remapping :=
        let r := remapBindingsOf assign rest m
        { r with asked := resource.name :: r.asked }
      match assign resource with
      | none => next m
      | some (set, binding) =>
          match m.setDecoration id Decoration.descriptorSet set "DescriptorSet" with
          | .error e => ⟨m, [resource.name], .error e⟩
          | .ok m =>
              match m.setDecoration id Decoration.binding binding "Binding" with
              | .error e => ⟨m, [resource.name], .error e⟩
              | .ok m => next m

/-- Changes the sets and bindings of the resources that are assigned new ones. -/
def remapBindings (m : Module) (stage : ShaderStage)
    (assign : ReflectedResource → Option (UInt32 × UInt32)) : Remapping :=
  remapBindingsOf assign (m.resources stage) m

/-- Changes the locations of the listed inputs, in order; what was written before an error
stays. -/
def remapLocationsOf (assign : VertexInput → UInt32) :
    List (UInt32 × VertexInput) → Module → Remapping
  | [], m => ⟨m, [], .ok ()⟩
  | (id, input) :: rest, m =>
      match m.setDecoration id Decoration.location (assign input) "Location" with
      | .error e => ⟨m, [input.name], .error e⟩
      | .ok m =>
          let r := remapLocationsOf assign rest m
          { r with asked := input.name :: r.asked }

/-- Changes the locations of all vertex inputs. -/
def remapLocations (m : Module) (assign : VertexInput → UInt32) : Remapping :=
  remapLocationsOf assign m.vertexInputs m

/-- The remapped module, if no error ended the remapping. -/
def Remapping.module? (r : Remapping) : Except Error Module := r.outcome.map fun () => r.module

end Module

end PipelineArchive.Spirv
