import PipelineArchive.Hash
import PipelineArchive.Text.Hex

/-!
# Encoding of descriptions

A description is written field by field: integers with their least significant byte first,
booleans as one byte, and texts, byte strings and lists after their 32-bit count. An absent
part is a zero count and a present one a count of one. `Encode` gives the bytes of a value,
and the content hash of these bytes is the identity of the value.
-/

set_option autoImplicit false

namespace PipelineArchive

/-- The largest count that an encoding can hold. -/
def maxCount : Nat := 4294967295

/-- A floating-point number of single precision, given by its bit pattern. -/
structure Single where
  bits : UInt32
  deriving DecidableEq, Repr

/-- Types with a stable binary form. -/
class Encode (α : Type) where
  /-- The bytes of a value. -/
  encode : α → Bytes

export Encode (encode)

namespace Encode

/-- A count, clamped to the largest one that fits. -/
def count (n : Nat) : Bytes := Bytes.ofU32 (UInt32.ofNat (min n maxCount))

/-- A byte string after its length. -/
def sized (bytes : Bytes) : Bytes := count bytes.length ++ bytes

/-- A text after the length of its UTF-8 bytes. -/
def text (s : String) : Bytes := sized (Bytes.ofText s)

/-- A boolean as a byte of one or zero. -/
def bool (b : Bool) : Bytes := [if b then 1 else 0]

/-- A list of 32-bit words after its length. -/
def words (ws : List UInt32) : Bytes := count ws.length ++ Bytes.ofWords ws

/-- A list of values after its length. -/
def list {α : Type} [Encode α] (values : List α) : Bytes :=
  count values.length ++ values.flatMap encode

/-- An optional value after a count of zero or one. -/
def option {α : Type} [Encode α] : Option α → Bytes
  | none => Bytes.ofU32 0
  | some value => Bytes.ofU32 1 ++ encode value

end Encode

instance : Encode UInt8 := ⟨fun b => [b]⟩
instance : Encode UInt32 := ⟨Bytes.ofU32⟩
instance : Encode UInt64 := ⟨Bytes.ofU64⟩
instance : Encode Int32 := ⟨fun n => Bytes.ofU32 n.toUInt32⟩
instance : Encode Single := ⟨fun x => Bytes.ofU32 x.bits⟩
instance : Encode Bool := ⟨Encode.bool⟩
instance : Encode String := ⟨Encode.text⟩

/-- The text of an encoding in messages: its length and its content hash. -/
def Encode.describe (bytes : Bytes) : String :=
  "SerializedBlob \x7b " ++ s!"len: {bytes.length}, hash: {Text.hex 16 (Hash.content bytes).toNat}"
    ++ " \x7d"

/-- The content hash of a value's encoding. -/
def contentHash {α : Type} [Encode α] (value : α) : UInt64 := Hash.content (encode value)

end PipelineArchive
