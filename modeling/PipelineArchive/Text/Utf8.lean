import PipelineArchive.Bytes

/-!
# UTF-8

`Utf8.head` classifies what stands at the head of a byte string: a scalar value, bytes that
start no scalar value, or a scalar value cut off by the end of the input. `Utf8.decode?`
reads a whole byte string as text and reports the first position where that is impossible;
`Utf8.decodeLossy` replaces every maximal invalid part by U+FFFD. `decode?_ofText` says that
the bytes of a text read back as the text, and `ofText_of_decode?` that nothing else reads
as it.
-/

set_option autoImplicit false

namespace PipelineArchive.Utf8

/-- What stands at the head of a byte string. -/
inductive Head where
  | done
  | scalar (width : Nat)
  | invalid (width : Nat)
  | incomplete
  deriving DecidableEq, Repr

/-- The length that a lead byte announces, with the range of the second byte; `none` for a
byte that starts no sequence of several bytes. -/
def lead? (b : UInt8) : Option (Nat × UInt8 × UInt8) :=
  if b < 0xC2 then none
  else if b < 0xE0 then some (2, 0x80, 0xBF)
  else if b = 0xE0 then some (3, 0xA0, 0xBF)
  else if b = 0xED then some (3, 0x80, 0x9F)
  else if b < 0xF0 then some (3, 0x80, 0xBF)
  else if b = 0xF0 then some (4, 0x90, 0xBF)
  else if b < 0xF4 then some (4, 0x80, 0xBF)
  else if b = 0xF4 then some (4, 0x80, 0x8F)
  else none

/-- The rest of a sequence of `width` bytes of which `seen` have been accepted. -/
def continued (width : Nat) : Nat → Bytes → Head
  | seen, [] => if seen = width then .scalar width else .incomplete
  | seen, b :: rest =>
      if seen = width then .scalar width
      else if 0x80 ≤ b && b ≤ 0xBF then continued width (seen + 1) rest
      else .invalid seen

/-- Classifies the head of a byte string. -/
def head : Bytes → Head
  | [] => .done
  | b :: rest =>
      if b < 0x80 then .scalar 1
      else
        match lead? b, rest with
        | none, _ => .invalid 1
        | some _, [] => .incomplete
        | some (width, low, high), c :: rest =>
            if low ≤ c && c ≤ high then continued width 2 rest else .invalid 1

/-- The first place where a byte string is not UTF-8. The width is that of the invalid part;
it is absent where the input ends inside a sequence that could still become valid. -/
structure Error where
  index : Nat
  width : Option Nat
  deriving DecidableEq, Repr

/-- The text of a decoding error. -/
def Error.message (e : Error) : String :=
  match e.width with
  | some n => s!"invalid utf-8 sequence of {n} bytes from index {e.index}"
  | none => s!"incomplete utf-8 byte sequence from index {e.index}"

/-- The first error at or after `index`, the first `skip` bytes being part of an accepted
scalar value. -/
def firstErrorFrom : Nat → Nat → Bytes → Option Error
  | _, _, [] => none
  | index, skip + 1, _ :: rest => firstErrorFrom (index + 1) skip rest
  | index, 0, b :: rest =>
      match head (b :: rest) with
      | .scalar width => firstErrorFrom (index + 1) (width - 1) rest
      | .invalid width => some ⟨index, some width⟩
      | .done | .incomplete => some ⟨index, none⟩

/-- Reads a byte string as text, or reports its first error. -/
def decode? (bytes : Bytes) : Except Error String :=
  match String.fromUTF8? ⟨bytes.toArray⟩ with
  | some text => .ok text
  | none => .error ((firstErrorFrom 0 0 bytes).getD ⟨bytes.length, none⟩)

/-- The scalar value written by a sequence of one to four bytes. -/
def scalarOf : Bytes → Char
  | [a] => Char.ofNat a.toNat
  | [a, b] => Char.ofNat (a.toNat % 32 * 64 + b.toNat % 64)
  | [a, b, c] => Char.ofNat ((a.toNat % 16 * 64 + b.toNat % 64) * 64 + c.toNat % 64)
  | [a, b, c, d] =>
      Char.ofNat (((a.toNat % 8 * 64 + b.toNat % 64) * 64 + c.toNat % 64) * 64 + d.toNat % 64)
  | _ => '\uFFFD'

/-- The characters of a byte string, the first `skip` bytes being accounted for. -/
def lossyFrom : Nat → Bytes → List Char
  | _, [] => []
  | skip + 1, _ :: rest => lossyFrom skip rest
  | 0, b :: rest =>
      match head (b :: rest) with
      | .scalar width => scalarOf ((b :: rest).take width) :: lossyFrom (width - 1) rest
      | .invalid width => '\uFFFD' :: lossyFrom (width - 1) rest
      | .done | .incomplete => ['\uFFFD']

/-- Reads a byte string as text, every maximal invalid part standing for U+FFFD. -/
def decodeLossy (bytes : Bytes) : String := String.ofList (lossyFrom 0 bytes)

/-- The bytes of a text read back as the text. -/
@[simp] theorem decode?_ofText (text : String) : decode? (Bytes.ofText text) = .ok text := by
  have h : String.fromUTF8? ⟨(Bytes.ofText text).toArray⟩ = some text := by
    simp [Bytes.ofText, String.fromUTF8?, text.isValidUTF8, String.fromUTF8]
  simp [decode?, h]

/-- A byte string that reads as a text consists of the bytes of the text. -/
theorem ofText_of_decode? {bytes : Bytes} {text : String} (h : decode? bytes = .ok text) :
    Bytes.ofText text = bytes := by
  unfold decode? at h
  split at h
  · rename_i found hfound
    injection h with h
    subst h
    unfold String.fromUTF8? at hfound
    split at hfound
    · injection hfound with hfound
      subst hfound
      simp [Bytes.ofText, String.fromUTF8]
    · simp at hfound
  · simp at h

end PipelineArchive.Utf8
