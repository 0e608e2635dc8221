import PipelineArchive.Document.Schema

/-!
# Byte strings in documents

A document gives a byte string as a map with one key: `hex` with pairs of digits, `text` with
a text, or `words` with a list of 32-bit words.
-/

set_option autoImplicit false

namespace PipelineArchive

/-- A byte string that a document gives. -/
structure Content where
  bytes : Bytes
  deriving DecidableEq, Repr

/-- A byte string that a document gives by its digits alone. -/
structure HexDigits where
  bytes : Bytes
  deriving DecidableEq, Repr

/-- The bytes that pairs of digits write. -/
def HexDigits.pairs? : List Char → Option Bytes
  | [] => some []
  | high :: low :: rest =>
      match Document.digits? 16 [high, low], pairs? rest with
      | some n, some bytes => some (UInt8.ofNat n :: bytes)
      | _, _ => none
  | [_] => none

instance : FromDocument HexDigits where
  read? d := do
    let digits : String ← FromDocument.read? d
    return ⟨← HexDigits.pairs? digits.toList⟩

/-- The byte string that the value of a key gives. -/
def Content.ofEntry? (key : String) (d : Document) : Reading Content :=
  match key with
  | "hex" => do
      let digits : HexDigits ← FromDocument.read? d
      return ⟨digits.bytes⟩
  | "text" => do
      let text : String ← FromDocument.read? d
      return ⟨Bytes.ofText text⟩
  | "words" => do
      let words : List UInt32 ← FromDocument.read? d
      return ⟨Bytes.ofWords words⟩
  | _ => failure

instance : FromDocument Content where
  read?
    | .map entries => entries.firstM fun (key, d) => do Content.ofEntry? (← key.text?) d
    | _ => failure

end PipelineArchive
