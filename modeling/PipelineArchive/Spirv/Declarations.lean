import PipelineArchive.Spirv.Module

/-!
# Declarations of a SPIR-V module

What the instructions of a module say about its identifiers: names, decorations, types,
constants, variables and entry points. Where an identifier is declared twice the last
declaration counts; of several decorations of one kind the first one counts.
-/

set_option autoImplicit false

namespace PipelineArchive.Spirv

namespace Decoration

def block : UInt32 := 2
def bufferBlock : UInt32 := 3
def builtIn : UInt32 := 11
def nonWritable : UInt32 := 24
def location : UInt32 := 30
def binding : UInt32 := 33
def descriptorSet : UInt32 := 34
def userSemantic : UInt32 := 5635

end Decoration

/-- The types that resources are made of. -/
inductive TypeDecl where
  | image (dim sampled : UInt32)
  | sampler
  | sampledImage
  | accelerationStructure
  | array (element length : UInt32)
  | runtimeArray (element : UInt32)
  | struct (members : List UInt32)
  | pointer (pointee : UInt32)
  deriving DecidableEq, Repr

/-- A variable with its pointer type and storage class. -/
structure Variable where
  id : UInt32
  pointerType : UInt32
  storageClass : UInt32
  deriving DecidableEq, Repr

/-- A decoration of an identifier, with the offset of its first literal word if it has one. -/
structure DecorationSlot where
  target : UInt32
  decoration : UInt32
  literal : Option Nat
  deriving DecidableEq, Repr

/-- An entry point of a module. -/
structure EntryPoint where
  executionModel : UInt32
  name : String
  deriving DecidableEq, Repr

/-! ## The meaning of one instruction -/

namespace Instruction

/-- The identifier that an instruction names, and the name. -/
def name? (i : Instruction) : Option (UInt32 × String) :=
  match i.operands with
  | id :: text => if i.opcode = Op.name then some (id, literalText text) else none
  | [] => none

/-- The entry point that an instruction declares. -/
def entryPoint? (i : Instruction) : Option EntryPoint :=
  match i.operands with
  | model :: _ :: text =>
      if i.opcode = Op.entryPoint then some ⟨model, literalText text⟩ else none
  | _ => none

/-- The identifier of the type that an instruction declares, and the type. -/
def type? (i : Instruction) : Option (UInt32 × TypeDecl) :=
  match i.operands with
  | [] => none
  | id :: arguments =>
      let type? : Option TypeDecl :=
        if i.opcode = Op.typeImage then
          match arguments with
          | _ :: dim :: _ :: _ :: _ :: sampled :: _ => some (.image dim sampled)
          | _ => none
        else if i.opcode = Op.typeSampler then some .sampler
        else if i.opcode = Op.typeSampledImage then some .sampledImage
        else if i.opcode = Op.typeAccelerationStructure then some .accelerationStructure
        else if i.opcode = Op.typeArray then
          match arguments with
          | element :: length :: _ => some (.array element length)
          | _ => none
        else if i.opcode = Op.typeRuntimeArray then
          match arguments with
          | element :: _ => some (.runtimeArray element)
          | _ => none
        else if i.opcode = Op.typeStruct then some (.struct arguments)
        else if i.opcode = Op.typePointer then
          match arguments with
          | _ :: pointee :: _ => some (.pointer pointee)
          | _ => none
        else none
      type?.map fun t => (id, t)

/-- The identifier of the constant that an instruction declares, and its first word. -/
def constant? (i : Instruction) : Option (UInt32 × UInt32) :=
  match i.operands with
  | _ :: id :: value :: _ => if i.opcode = Op.constant then some (id, value) else none
  | _ => none

/-- The variable that an instruction declares. -/
def variableDecl? (i : Instruction) : Option Variable :=
  match i.operands with
  | pointerType :: id :: storageClass :: _ =>
      if i.opcode = Op.variableOp then some ⟨id, pointerType, storageClass⟩ else none
  | _ => none

/-- The decoration that an instruction adds. -/
def decoration? (i : Instruction) : Option DecorationSlot :=
  match i.operands with
  | target :: decoration :: literals =>
      if i.opcode = Op.decorate then
        some ⟨target, decoration, if literals.isEmpty then none else some (i.offset + 3)⟩
      else none
  | _ => none

/-- The structure one of whose members an instruction declares as not writable. -/
def nonWritableMember? (i : Instruction) : Option UInt32 :=
  match i.operands with
  | target :: _ :: decoration :: _ =>
      if i.opcode = Op.memberDecorate ∧ decoration = Decoration.nonWritable then some target
      else none
  | _ => none

/-- The identifier that an instruction gives a semantic, and the semantic. -/
def semantic? (i : Instruction) : Option (UInt32 × String) :=
  match i.operands with
  | target :: decoration :: text =>
      if i.opcode = Op.decorateString ∧ decoration = Decoration.userSemantic then
        some (target, literalText text)
      else none
  | _ => none

end Instruction

/-! ## The declarations of a module -/

/-- The last value given for an identifier. -/
def lookupLast? {α : Type} (id : UInt32) (entries : List (UInt32 × α)) : Option α :=
  entries.foldl (fun found (key, value) => if key = id then some value else found) none

namespace Module

/-- The debug name of an identifier; it may be empty. -/
def name? (m : Module) (id : UInt32) : Option String :=
  lookupLast? id (m.instructions.filterMap Instruction.name?)

/-- The debug name of an identifier, if it is not empty. -/
def debugName? (m : Module) (id : UInt32) : Option String :=
  (m.name? id).filter fun name => !name.isEmpty

/-- The type that an identifier stands for. -/
def type? (m : Module) (id : UInt32) : Option TypeDecl :=
  lookupLast? id (m.instructions.filterMap Instruction.type?)

/-- The value of a constant. -/
def constant? (m : Module) (id : UInt32) : Option UInt32 :=
  lookupLast? id (m.instructions.filterMap Instruction.constant?)

/-- The semantic of an identifier. -/
def semantic? (m : Module) (id : UInt32) : Option String :=
  lookupLast? id (m.instructions.filterMap Instruction.semantic?)

/-- The variables in the order of their declarations. -/
def declaredVariables (m : Module) : List Variable :=
  m.instructions.filterMap Instruction.variableDecl?

/-- The entry points in the order of their declarations. -/
def entryPoints (m : Module) : List EntryPoint := m.instructions.filterMap Instruction.entryPoint?

/-- The first decoration of a kind that an identifier has. -/
def decoration? (m : Module) (id decoration : UInt32) : Option DecorationSlot :=
  (m.instructions.filterMap Instruction.decoration?).find? fun slot =>
    slot.target == id && slot.decoration == decoration

/-- Whether an identifier has a decoration of a kind. -/
def hasDecoration (m : Module) (id decoration : UInt32) : Bool :=
  (m.decoration? id decoration).isSome

/-- The literal of the first decoration of a kind that an identifier has. -/
def decorationValue? (m : Module) (id decoration : UInt32) : Option UInt32 := do
  let slot ← m.decoration? id decoration
  m.words[← slot.literal]?

/-- How many declarations say that a member of a structure is not writable. -/
def nonWritableCount (m : Module) (id : UInt32) : Nat :=
  ((m.instructions.filterMap Instruction.nonWritableMember?).filter (· == id)).length

/-- The element type of an array type. -/
def element? (m : Module) (id : UInt32) : Option UInt32 :=
  match m.type? id with
  | some (.array element _) | some (.runtimeArray element) => some element
  | _ => none

end Module

end PipelineArchive.Spirv
