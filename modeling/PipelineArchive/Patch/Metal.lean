import PipelineArchive.Patch.Binding
import PipelineArchive.Text.Blank

/-!
# Metal

The arguments of a Metal text carry placeholder indices. An argument that belongs to a
resource gets the slot of the resource; any other argument gets the next slot after those of
the layout, the same one wherever it occurs. Slots are 32-bit words, and are counted in these.
-/

set_option autoImplicit false

namespace PipelineArchive.Patch.Metal

open Text

/-- The name of an argument table in Metal texts. -/
def tableName : MetalArgument → List Char
  | .buffer => "buffer".toList
  | .texture => "texture".toList
  | .sampler => "sampler".toList

/-- An argument of a text: its table, its placeholder index, and the length of its text. -/
structure Argument where
  table : MetalArgument
  placeholder : UInt32
  length : Nat
  deriving DecidableEq, Repr

/-- The argument of one table at the start of a text. An index that is no 32-bit number in
ASCII digits stands for the largest one. -/
def argumentOf? (table : MetalArgument) (text : List Char) : Option Argument := do
  let rest ← after? ("[[".toList ++ tableName table ++ ['(']) text
  let digits := rest.takeWhile isDigit
  guard !digits.isEmpty
  let after ← after? ")]]".toList (rest.dropWhile isDigit)
  return ⟨table, (decimalU32? digits).getD 0xFFFFFFFF, text.length - after.length⟩

/-- The argument at the start of a text. -/
def argument? (text : List Char) : Option Argument :=
  argumentOf? .buffer text <|> argumentOf? .texture text <|> argumentOf? .sampler text

/-- The text of an argument with a slot. -/
def slotText (table : MetalArgument) (slot : UInt32) : List Char :=
  "[[".toList ++ tableName table ++ ['('] ++ (toString slot.toNat).toList ++ ")]]".toList

/-! ## Slots -/

/-- The slots handed out so far: those of resources by table and placeholder, those of other
arguments, and the next free slot of every table. -/
structure Slots where
  resources : List ((UInt32 × UInt32) × UInt32)
  others : List ((MetalArgument × UInt32) × UInt32)
  nextFree : Tally MetalArgument

namespace Slots

/-- The slots before any text is read. -/
def start (layout : PipelineLayout) (places : List (ReflectedResource × LayoutBinding)) :
    Slots where
  resources := places.map fun (r, b) => ((r.set, r.binding), b.binding)
  others := []
  nextFree := layout.bindings.foldl
    (fun next b =>
      let table := MetalArgument.of b.resourceType
      Tally.set next table (max (next table) (b.binding + b.span)))
    fun _ => 0

/-- The slot of an argument, and the slots after it was handed out. -/
def take (s : Slots) (a : Argument) : UInt32 × Slots :=
  match lastValue? (UInt32.ofNat a.table.ordinal, a.placeholder) s.resources with
  | some slot => (slot, s)
  | none =>
      match s.others.lookup (a.table, a.placeholder) with
      | some slot => (slot, s)
      | none =>
          let slot := s.nextFree a.table
          (slot, { s with
            others := ((a.table, a.placeholder), slot) :: s.others
            nextFree := s.nextFree.set a.table (slot + 1) })

end Slots

/-- A text with slots for its placeholders; the first `skip` characters belong to an argument
that has been replaced. -/
def assignFrom : Slots → Nat → List Char → List Char
  | _, _, [] => []
  | slots, skip + 1, _ :: rest => assignFrom slots skip rest
  | slots, 0, c :: rest =>
      match argument? (c :: rest) with
      | some a =>
          let (slot, slots) := slots.take a
          slotText a.table slot ++ assignFrom slots (a.length - 1) rest
      | none => c :: assignFrom slots 0 rest

/-- A text with slots for its placeholders. -/
def assignSlots (slots : Slots) (text : List Char) : List Char := assignFrom slots 0 text

/-- The Metal text of a shader with the slots of a layout. -/
def patchShader (backend : Backend) (layout : PipelineLayout) (shader : CompiledShader) :
    Except ArchiveError Bytes := do
  let places ← resolveAll backend layout shader
  let text ← (Utf8.decode? shader.code).mapError fun e => .patching backend (.badMetal e)
  return Bytes.ofText (String.ofList (assignSlots (.start layout places) text.toList))

/-- The name, table, slot and array size of every binding. -/
def header (layout : PipelineLayout) : Bytes :=
  Encode.count layout.bindings.length ++ layout.bindings.flatMap fun b =>
    encode b.name ++ Bytes.ofU32 (UInt32.ofNat (MetalArgument.of b.resourceType).ordinal)
      ++ encode b.binding ++ encode b.arraySize ++ encode b.isImmutable

end PipelineArchive.Patch.Metal
