import PipelineArchive.Bytes
import PipelineArchive.Text.Hex
import PipelineArchive.Text.Utf8

/-!
# SPIR-V modules

A module is a header of five words and a row of instructions, each of which starts with a
word that holds its length and opcode. `Module.ofBytes` splits a byte string into
instructions and refuses it at the first word where that is impossible. Of the instructions
only those that name, decorate or declare resources have a meaning here; each of these needs
a least count of operands.
-/

set_option autoImplicit false

namespace PipelineArchive.Spirv

/-- Why a module is refused, or cannot be remapped. -/
inductive Error where
  | unalignedLength (length : Nat)
  | tooShort (words : Nat)
  | badMagic (word : UInt32)
  | malformedInstruction (offset : Nat)
  | missingDecoration (id : UInt32) (name decoration : String)
  deriving DecidableEq, Repr

/-- The text of an error. -/
def Error.message : Error → String
  | .unalignedLength length => s!"SPIR-V byte length {length} is not a multiple of 4"
  | .tooShort words => s!"SPIR-V module has {words} words, less than the 5-word header"
  | .badMagic word => s!"bad SPIR-V magic number 0x{Text.hex 8 word.toNat}"
  | .malformedInstruction offset => s!"malformed instruction at word {offset}"
  | .missingDecoration id name decoration =>
      s!"'{name}' (id {id.toNat}) has no {decoration} decoration to rewrite"

/-- The first word of every module. -/
def magic : UInt32 := 0x07230203

/-- The number of words before the first instruction. -/
def headerLength : Nat := 5

/-! ## Instructions -/

namespace Op

def name : Nat := 5
def entryPoint : Nat := 15
def typeImage : Nat := 25
def typeSampler : Nat := 26
def typeSampledImage : Nat := 27
def typeArray : Nat := 28
def typeRuntimeArray : Nat := 29
def typeStruct : Nat := 30
def typePointer : Nat := 32
def constant : Nat := 43
def variableOp : Nat := 59
def decorate : Nat := 71
def memberDecorate : Nat := 72
def typeAccelerationStructure : Nat := 5341
def decorateString : Nat := 5632

/-- The opcodes that have a meaning here, with the operands that each needs at least. -/
def leastOperands : List (Nat × Nat) :=
  [(name, 1), (entryPoint, 3), (typeImage, 7), (typeSampler, 1), (typeSampledImage, 2),
    (typeAccelerationStructure, 1), (typeArray, 3), (typeRuntimeArray, 2), (typeStruct, 1),
    (typePointer, 3), (constant, 3), (variableOp, 3), (decorate, 2), (memberDecorate, 3),
    (decorateString, 2)]

/-- The number of operands that an opcode needs at least. -/
def least (opcode : Nat) : Nat := (leastOperands.lookup opcode).getD 0

end Op

/-- An instruction: the offset of its first word in the module, and its parts. -/
structure Instruction where
  offset : Nat
  opcode : Nat
  operands : List UInt32
  deriving DecidableEq, Repr

/-- The length in words that the first word of an instruction gives. -/
def lengthOf (word : UInt32) : Nat := (word >>> 16).toNat

/-- The opcode that the first word of an instruction gives. -/
def opcodeOf (word : UInt32) : Nat := (word &&& 0xFFFF).toNat

/-- The instruction whose first word stands at an offset before the words `rest`; it must not
be empty, end after the module, or have fewer operands than its opcode needs. -/
def instruction? (offset : Nat) (word : UInt32) (rest : List UInt32) : Option Instruction :=
  let count := lengthOf word - 1
  let operands := rest.take count
  if lengthOf word = 0 ∨ operands.length < count ∨ count < Op.least (opcodeOf word) then none
  else some ⟨offset, opcodeOf word, operands⟩

/-- The instructions of a list of words that starts at an offset, the first `skip` words of
which belong to an instruction that has been read. -/
def instructionsFrom : Nat → Nat → List UInt32 → Except Error (List Instruction)
  | _, _, [] => .ok []
  | offset, skip + 1, _ :: rest => instructionsFrom (offset + 1) skip rest
  | offset, 0, word :: rest =>
      match instruction? offset word rest with
      | none => .error (.malformedInstruction offset)
      | some instruction =>
          match instructionsFrom (offset + 1) instruction.operands.length rest with
          | .ok instructions => .ok (instruction :: instructions)
          | .error e => .error e

/-- A module: all its words, and its instructions. -/
structure Module where
  words : List UInt32
  instructions : List Instruction
  deriving DecidableEq, Repr

namespace Module

/-- The module that a list of words is. -/
def parse (words : List UInt32) : Except Error Module :=
  if words.length < headerLength then .error (.tooShort words.length)
  else if words.head? ≠ some magic then .error (.badMagic (words.headD 0))
  else (instructionsFrom headerLength 0 (words.drop headerLength)).map fun instructions =>
    ⟨words, instructions⟩

/-- The module that a byte string is. -/
def ofBytes (bytes : Bytes) : Except Error Module :=
  if bytes.length % 4 ≠ 0 then .error (.unalignedLength bytes.length) else parse bytes.toWords

/-- The bytes of a module. -/
def toBytes (m : Module) : Bytes := Bytes.ofWords m.words

end Module

/-- The text that words hold up to the first zero byte. -/
def literalText (words : List UInt32) : String :=
  Utf8.decodeLossy ((Bytes.ofWords words).takeWhile (· ≠ 0))

end PipelineArchive.Spirv
