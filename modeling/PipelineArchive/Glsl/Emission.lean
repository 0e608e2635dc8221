import PipelineArchive.Glsl.Declarations
import PipelineArchive.Layout.Range
import PipelineArchive.Spirv.Declarations

/-!
# Interfaces as SPIR-V and Metal

The native form of what a shader declares. A SPIR-V module holds the entry point with the
types, names and places of the resources and attributes; a Metal text holds the entry point
with its arguments. Statements are left out.
-/

set_option autoImplicit false

namespace PipelineArchive.Glsl

namespace Emission

open Spirv

/-- An instruction with its operands. -/
def instruction (opcode : Nat) (operands : List UInt32) : List UInt32 :=
  UInt32.ofNat ((operands.length + 1) * 65536 + opcode) :: operands

/-- The words of a text with a zero at its end. -/
def textWords (text : String) : List UInt32 :=
  (Bytes.padTo 4 (Bytes.ofText text ++ [0])).toWords

/-- The execution model of a stage. -/
def executionModel : Stage → UInt32
  | .vertex => 0
  | .pixel => 4
  | .compute => 5

/-- The first identifier of the `index`-th declaration; each has three. -/
def firstId (index : Nat) : UInt32 := UInt32.ofNat (10 + 3 * index)

/-- The storage class of a resource. -/
def storageClass : ResourceType → UInt32
  | .constantBuffer => 2
  | .bufferSrv | .bufferUav => 12
  | _ => 0

/-- The type of a resource, as the instruction that declares it. -/
def typeInstruction (type : ResourceType) (id : UInt32) : List UInt32 :=
  match type with
  | .constantBuffer | .bufferSrv | .bufferUav => instruction Op.typeStruct [id, 3]
  | .sampler => instruction Op.typeSampler [id]
  | .textureUav => instruction Op.typeImage [id, 3, 1, 0, 0, 0, 2, 0]
  | .inputAttachment => instruction Op.typeImage [id, 3, 6, 0, 0, 0, 2, 0]
  | .accelStruct => instruction Op.typeAccelerationStructure [id]
  | .textureSrv => instruction Op.typeImage [id, 3, 1, 0, 0, 0, 1, 0]

/-- The instructions of a resource: names and decorations first, types and variable last. -/
def resourceWords (id : UInt32) (v : Variable) : List UInt32 × List UInt32 :=
  let isBlock := storageClass v.resourceType ≠ 0
  let named := if isBlock then id else id + 2
  (instruction Op.name (named :: textWords v.name),
    (if isBlock then instruction Op.decorate [id, Decoration.block] else [])
    ++ (if v.resourceType = .bufferSrv then
          instruction Op.decorate [id + 2, Decoration.nonWritable] else [])
    ++ instruction Op.decorate [id + 2, Decoration.descriptorSet, v.set]
    ++ instruction Op.decorate [id + 2, Decoration.binding, v.binding]
    ++ typeInstruction v.resourceType id
    ++ instruction Op.typePointer [id + 1, storageClass v.resourceType, id]
    ++ instruction Op.variableOp [id + 1, id + 2, storageClass v.resourceType])

/-- The instructions of an attribute. -/
def inputWords (id : UInt32) (input : VertexInput) : List UInt32 × List UInt32 :=
  (instruction Op.name ((id + 2) :: textWords input.name),
    instruction Op.decorate [id + 2, Decoration.location, input.location]
    ++ instruction Op.typePointer [id + 1, 1, 3]
    ++ instruction Op.variableOp [id + 1, id + 2, 1])

/-- The module of an interface. -/
def spirv (interface : Interface) (entryPoint : String) : List UInt32 :=
  let resources := interface.resources.zipIdx.map fun (v, i) => resourceWords (firstId i) v
  let inputs := interface.inputs.zipIdx interface.resources.length |>.map
    fun (input, i) => inputWords (firstId i) input
  let parts := resources ++ inputs
  [magic, 0x00010000, 0, firstId parts.length, 0]
    ++ instruction Op.entryPoint (executionModel interface.stage :: 1 :: textWords entryPoint)
    ++ parts.flatMap (·.1)
    ++ instruction 22 [3, 32]
    ++ parts.flatMap (·.2)

/-- The argument of a Metal entry point for a placeholder. -/
def metalArgument (place : MetalPlace) : String :=
  if place.table = 0 then s!"device void* buffer{place.slot} [[buffer({place.slot})]]"
  else if place.table = 1 then s!"texture2d<float> texture{place.slot} [[texture({place.slot})]]"
  else s!"sampler sampler{place.slot} [[sampler({place.slot})]]"

/-- The keyword of a Metal entry point. -/
def metalStage : Stage → String
  | .vertex => "vertex"
  | .pixel => "fragment"
  | .compute => "kernel"

/-- The Metal text of an interface. -/
def metal (interface : Interface) (version : MetalVersion) (places : List MetalPlace) : String :=
  let arguments := ", ".intercalate (places.map metalArgument)
  s!"// language: metal{version.major.toNat}.{version.minor.toNat}\n"
    ++ s!"{metalStage interface.stage} void main_({arguments}) " ++ "\x7b\x7d\n"

end Emission

/-- The compiler of the declarations of GLSL texts. -/
def interfaceCompiler : Compiler where
  parse := parse
  spirv interface entryPoint := .ok (Emission.spirv interface entryPoint)
  metal interface version places := .ok (Emission.metal interface version places, some "main_")

end PipelineArchive.Glsl
