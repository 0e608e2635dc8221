import PipelineArchive.Document.Json.Token

/-!
# Values of numerals

An integer that fits 64 bits is kept. Any other numeral is worth its significand, which is as
many of its digits as 64 bits hold, scaled by a power of ten in double precision: significand
and power are rounded first, and then their product or quotient. So the value need not be the
double nearest to the numeral, but it is always the same one.
-/

set_option autoImplicit false

namespace PipelineArchive.Json

/-- A number extended by decimal digits while it fits 64 bits, and the digits left over. -/
def extend (n : Nat) : List Char → Nat × List Char
  | [] => (n, [])
  | c :: cs =>
      let next := n * 10 + (c.toNat - '0'.toNat)
      if next < UInt64.size then extend next cs else (n, c :: cs)

/-- The largest power of ten of double precision. -/
def maxPower : Nat := 308

/-- A double divided by `10 ^ places`, no more than the largest power at a time. -/
def shiftRight? (x : Binary) (places : Nat) : Option Binary :=
  if places ≤ maxPower then do
    BinaryFormat.double.quotient? x (← BinaryFormat.double.powerOfTen? places)
  else if x.mantissa = 0 then some x
  else do
    let y ← BinaryFormat.double.quotient? x (← BinaryFormat.double.powerOfTen? maxPower)
    shiftRight? y (places - maxPower)
termination_by places
decreasing_by simp_all [maxPower]; omega

/-- A double multiplied by `10 ^ places`; `none` where that is beyond the largest double. -/
def shiftLeft? (x : Binary) (places : Nat) : Option Binary :=
  if x.mantissa = 0 then some x
  else if places ≤ maxPower then do
    BinaryFormat.double.product? x (← BinaryFormat.double.powerOfTen? places)
  else none

/-- The double that a significand of 64 bits is worth with a power of ten. -/
def scaled? (significand : Nat) (places : Int) : Option Binary := do
  let x ← BinaryFormat.double.nearest? significand 1
  if 0 ≤ places then shiftLeft? x places.toNat else shiftRight? x (-places).toNat

/-- The number of a sign and an integer of 64 bits. A negative zero and a negative integer of
more than 64 bits with its sign are doubles. -/
def integer? (isNegative : Bool) (n : Nat) : Option Number :=
  if isNegative then
    if 0 < n ∧ n ≤ UInt64.size / 2 then some (.negative n)
    else (BinaryFormat.double.nearest? n 1).map (.real true)
  else some (.natural n)

/-- The value of a numeral; `none` where it is beyond the largest double. -/
def Numeral.value? (x : Numeral) : Option Number :=
  let (whole, dropped) := extend 0 x.whole
  let (significand, cut) := extend whole x.fraction
  if dropped.isEmpty && x.fraction.isEmpty && x.exponent.isNone then integer? x.isNegative whole
  else
    let places : Int := dropped.length - (x.fraction.length - cut.length) + x.exponent.getD 0
    (scaled? significand places).map (.real x.isNegative)

end PipelineArchive.Json
