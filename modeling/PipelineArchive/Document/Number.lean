import PipelineArchive.Encoding

/-!
# Numbers of documents

A document writes numbers as decimal text. Integers that fit 64 bits are kept as they are; all
other numbers are binary numbers of double precision. `BinaryFormat.nearest?` rounds a quotient
exactly in natural numbers, ties to the even neighbour, and finds no value where the quotient
lies beyond the largest number of the format. Products and quotients of binary numbers are
rounded once, by the same rule.
-/

set_option autoImplicit false

namespace PipelineArchive

/-- The number `mantissa * 2 ^ exponent`. -/
structure Binary where
  mantissa : Nat
  exponent : Int
  deriving DecidableEq, Repr

/-- The numerator of a binary number written as a quotient. -/
def Binary.numerator (x : Binary) : Nat := x.mantissa <<< x.exponent.toNat

/-- The denominator of a binary number written as a quotient. -/
def Binary.denominator (x : Binary) : Nat := 1 <<< (-x.exponent).toNat

/-- Binary numbers of a bounded mantissa and exponent. -/
structure BinaryFormat where
  precision : Nat
  minExponent : Int
  maxExponent : Int

namespace BinaryFormat

/-- Double precision. -/
def double : BinaryFormat := ⟨53, -1074, 971⟩

/-- Single precision. -/
def single : BinaryFormat := ⟨24, -149, 104⟩

/-- A quotient divided by `2 ^ exponent`, as numerator and denominator. -/
def scaled (num den : Nat) (exponent : Int) : Nat × Nat :=
  (num <<< (-exponent).toNat, den <<< exponent.toNat)

/-- A quotient rounded to the nearest integer, ties to the even neighbour. -/
def roundQuotient (num den : Nat) : Nat :=
  let q := num / den
  let r := num % den
  if den < 2 * r then q + 1
  else if 2 * r = den then q + q % 2
  else q

/-- The exponent at which a positive quotient has a mantissa of full precision, unless the
format ends before. -/
def exponentOf (f : BinaryFormat) (num den : Nat) : Int :=
  let estimate : Int := (num.log2 : Int) - den.log2 - f.precision + 1
  let (n, d) := scaled num den estimate
  let exact := if n < d <<< (f.precision - 1) then estimate - 1 else estimate
  max exact f.minExponent

/-- The number of the format that is nearest to a quotient; `none` beyond the largest. -/
def nearest? (f : BinaryFormat) (num den : Nat) : Option Binary :=
  if num = 0 then some ⟨0, f.minExponent⟩
  else
    let exponent := f.exponentOf num den
    let (n, d) := scaled num den exponent
    let mantissa := roundQuotient n d
    let (mantissa, exponent) :=
      if mantissa = 1 <<< f.precision then (mantissa / 2, exponent + 1) else (mantissa, exponent)
    if f.maxExponent < exponent then none else some ⟨mantissa, exponent⟩

/-- The product of two numbers, rounded. -/
def product? (f : BinaryFormat) (x y : Binary) : Option Binary :=
  f.nearest? (x.numerator * y.numerator) (x.denominator * y.denominator)

/-- The quotient of two numbers, rounded. -/
def quotient? (f : BinaryFormat) (x y : Binary) : Option Binary :=
  f.nearest? (x.numerator * y.denominator) (x.denominator * y.numerator)

/-- The power `10 ^ places`, rounded. -/
def powerOfTen? (f : BinaryFormat) (places : Nat) : Option Binary :=
  f.nearest? (Nat.pow 10 places) 1

end BinaryFormat

/-- The single of a sign and a magnitude; no magnitude stands for infinity. -/
def Single.ofMagnitude (negative : Bool) (magnitude : Option Binary) : Single :=
  let sign : UInt32 := if negative then 0x80000000 else 0
  match magnitude with
  | none => ⟨sign ||| 0x7F800000⟩
  | some ⟨mantissa, exponent⟩ =>
      let leading : Nat := 1 <<< 23
      if mantissa < leading then ⟨sign ||| UInt32.ofNat mantissa⟩
      else
        let biased := (exponent + 150).toNat
        ⟨sign ||| UInt32.ofNat (biased * leading + (mantissa - leading))⟩

/-- A number of a document: an integer of 64 bits without or with a minus sign, or a binary
number of double precision. The integer zero is the same number with and without the sign. -/
inductive Number where
  | natural (n : Nat)
  | negative (n : Nat)
  | real (isNegative : Bool) (magnitude : Binary)
  deriving DecidableEq, Repr

namespace Number

/-- The number `digits * 10 ^ exponent` with a sign; `none` where no double is near. -/
def ofDecimal (isNegative : Bool) (digits : Nat) (exponent : Int) : Option Number :=
  let magnitude : Int := ((Nat.toDigits 10 digits).length : Int) + exponent
  if digits = 0 ∨ magnitude < -330 then some (real isNegative ⟨0, BinaryFormat.double.minExponent⟩)
  else if 310 < magnitude then none
  else
    (BinaryFormat.double.nearest? (digits * Nat.pow 10 exponent.toNat)
      (Nat.pow 10 (-exponent).toNat)).map (real isNegative)

/-- The nearest single. -/
def toSingle : Number → Single
  | natural n => .ofMagnitude false (BinaryFormat.single.nearest? n 1)
  | negative n => .ofMagnitude (n != 0) (BinaryFormat.single.nearest? n 1)
  | real isNegative x =>
      .ofMagnitude isNegative (BinaryFormat.single.nearest? x.numerator x.denominator)

/-- The number as a natural number below a bound. -/
def below? (bound : Nat) : Number → Option Nat
  | natural n => if n < bound then some n else none
  | negative n => if n = 0 ∧ 0 < bound then some 0 else none
  | real .. => none

/-- The number as a signed integer of 32 bits. -/
def int32? : Number → Option Int32
  | natural n => if n < UInt32.size / 2 then some (Int32.ofNat n) else none
  | negative n => if n ≤ UInt32.size / 2 then some (Int32.ofInt (-(n : Int))) else none
  | real .. => none

end Number

end PipelineArchive
