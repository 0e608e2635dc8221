import PipelineArchive.Encoding
import PipelineArchive.Text.Utf8

/-!
# Decoding of encoded values

A decoder takes a cursor, the bytes not yet read with the count of those that were, and gives
a value or the reason why there is none, together with the cursor it leaves. A decoder that
fails keeps what it consumed before the failure. The decoders of this file read what
`PipelineArchive.Encode` writes.
-/

set_option autoImplicit false

namespace PipelineArchive

/-- A place in a byte string: how many bytes lie before it and the bytes after it. -/
structure Cursor where
  position : Nat
  rest : Bytes
  deriving DecidableEq, Repr

/-- The cursor at the start of a byte string. -/
def Cursor.start (bytes : Bytes) : Cursor := ⟨0, bytes⟩

/-- How many bytes lie after the cursor. -/
def Cursor.remaining (c : Cursor) : Nat := c.rest.length

/-- The cursor `count` bytes further. -/
def Cursor.advance (c : Cursor) (count : Nat) : Cursor :=
  ⟨c.position + count, c.rest.drop count⟩

/-- Why a value cannot be decoded. -/
inductive DecodeFault where
  | shortage (needed remaining : Nat)
  | badBool (value : UInt8)
  | countTooLarge (count : Nat)
  | badText (error : Utf8.Error)
  deriving DecidableEq, Repr

/-- The text of a fault. -/
def DecodeFault.message : DecodeFault → String
  | .shortage needed remaining => s!"need {needed} bytes, {remaining} remaining"
  | .badBool value => s!"invalid bool value {value.toNat}"
  | .countTooLarge count => s!"count {count} exceeds remaining data"
  | .badText error => s!"invalid UTF-8: {error.message}"

/-- A fault and the position it is reported at. -/
structure DecodeError where
  offset : Nat
  fault : DecodeFault
  deriving DecidableEq, Repr

/-- The text of a decoding error. -/
def DecodeError.message (e : DecodeError) : String :=
  s!"malformed data at offset {e.offset}: {e.fault.message}"

/-- A reader of values of one type. -/
def Decoder (α : Type) : Type := Cursor → Except DecodeError α × Cursor

namespace Decoder

variable {α β : Type}

/-- Runs a decoder on a cursor. -/
def run (d : Decoder α) (c : Cursor) : Except DecodeError α × Cursor := d c

/-- The value that a decoder reads from the start of a byte string. -/
def value? (d : Decoder α) (bytes : Bytes) : Except DecodeError α := (d (.start bytes)).1

/-- The decoder that reads nothing. -/
def pure (value : α) : Decoder α := fun c => (.ok value, c)

/-- One decoder after another; the second one does not run where the first one fails. -/
def bind (d : Decoder α) (next : α → Decoder β) : Decoder β := fun c =>
  match d c with
  | (.ok value, c) => next value c
  | (.error e, c) => (.error e, c)

instance : Monad Decoder where
  pure := Decoder.pure
  bind := Decoder.bind

/-- The decoder that fails at the place of the cursor. -/
def fail (fault : DecodeFault) : Decoder α := fun c => (.error ⟨c.position, fault⟩, c)

/-- The place of the cursor. -/
def position : Decoder Nat := fun c => (.ok c.position, c)

/-- How many bytes are left. -/
def remaining : Decoder Nat := fun c => (.ok c.remaining, c)

/-- The next `count` bytes; a shortage consumes nothing. -/
def take (count : Nat) : Decoder Bytes := fun c =>
  if count ≤ c.remaining then (.ok (c.rest.take count), c.advance count)
  else (.error ⟨c.position, .shortage count c.remaining⟩, c)

def u8 : Decoder UInt8 := do return UInt8.ofNat (Bytes.toNat (← take 1))
def u32 : Decoder UInt32 := do return UInt32.ofNat (Bytes.toNat (← take 4))
def u64 : Decoder UInt64 := do return UInt64.ofNat (Bytes.toNat (← take 8))
def i32 : Decoder Int32 := do return (← u32).toInt32
def single : Decoder Single := do return ⟨← u32⟩

/-- A boolean; a byte other than zero and one is consumed and refused. -/
def bool : Decoder Bool := do
  let value ← u8
  if value = 0 then return false
  else if value = 1 then return true
  else fail (.badBool value)

/-- A count of elements that take at least `least` bytes each; a count that cannot fit into
the bytes left is refused, unless elements may be empty. -/
def count (least : Nat) : Decoder Nat := do
  let n := (← u32).toNat
  if 0 < least ∧ (← remaining) < n * least then fail (.countTooLarge n)
  else return n

/-- A byte string after its length. -/
def sized : Decoder Bytes := do take (← u32).toNat

/-- A text after its length; bytes that are no text are consumed, and the error stands at
the length. -/
def text : Decoder String := do
  let start ← position
  let bytes ← sized
  match Utf8.decode? bytes with
  | .ok s => return s
  | .error e => fun c => (.error ⟨start, .badText e⟩, c)

/-- `n` values in a row. -/
def many (d : Decoder α) : Nat → Decoder (List α)
  | 0 => return []
  | n + 1 => do
      let value ← d
      let values ← many d n
      return value :: values

/-- A list of 32-bit words after its length. -/
def words : Decoder (List UInt32) := do many u32 (← count 4)

end Decoder

end PipelineArchive
