import PipelineArchive.Document.Basic

/-!
# Tokens of JSON

White space, words, strings and numerals. Each reader takes the characters that are left and
returns those that it leaves. The readers go by the grammar alone: a string may hold half of a
surrogate pair, and a numeral may be too large for any number. `decodeUnits?` tells whether a
text can be made of the units of a string.
-/

set_option autoImplicit false

namespace PipelineArchive.Json

/-- A reader of a value at the head of a list of characters. -/
abbrev Reader (α : Type) := List Char → Option (α × List Char)

/-- The white space of JSON. -/
def isSpace (c : Char) : Bool := c == ' ' || c == '\n' || c == '\t' || c == '\r'

/-- The characters after leading white space. -/
def skipSpace (cs : List Char) : List Char := cs.dropWhile isSpace

/-- The characters after a fixed word. -/
def word? (word : List Char) (cs : List Char) : Option (List Char) :=
  if word.isPrefixOf cs then some (cs.drop word.length) else none

/-! ## Strings -/

/-- The character of an escape of one letter. -/
def letterEscape? : Char → Option Char
  | '"' => some '"'
  | '\\' => some '\\'
  | '/' => some '/'
  | 'b' => some '\x08'
  | 'f' => some '\x0c'
  | 'n' => some '\n'
  | 'r' => some '\r'
  | 't' => some '\t'
  | _ => none

/-- The units of a string up to the closing quote, after those that are read already, last
first. A character is a unit, and so is an escape by number. -/
def unitsFrom (units : List Nat) : List Char → Option (List Nat × List Char)
  | [] => none
  | '"' :: rest => some (units.reverse, rest)
  | '\\' :: 'u' :: a :: b :: c :: d :: rest =>
      match Document.digits? 16 [a, b, c, d] with
      | some unit => unitsFrom (unit :: units) rest
      | none => none
  | '\\' :: e :: rest =>
      match letterEscape? e with
      | some c => unitsFrom (c.toNat :: units) rest
      | none => none
  | c :: rest => if c == '\\' || c.toNat < 0x20 then none else unitsFrom (c.toNat :: units) rest

/-- The units of a string after its opening quote. -/
def stringUnits : Reader (List Nat) := unitsFrom []

/-- Whether a unit is the first half of a surrogate pair. -/
def isHighSurrogate (unit : Nat) : Bool := 0xD800 ≤ unit && unit ≤ 0xDBFF

/-- Whether a unit is the second half of a surrogate pair. -/
def isLowSurrogate (unit : Nat) : Bool := 0xDC00 ≤ unit && unit ≤ 0xDFFF

/-- The characters that units write, after those that are decoded already, last first. A pair
of surrogates counts as one character, and neither half may stand alone. -/
def decodeFrom (cs : List Char) : List Nat → Option (List Char)
  | [] => some cs.reverse
  | high :: low :: rest =>
      if isHighSurrogate high then
        if isLowSurrogate low then
          decodeFrom (Char.ofNat (0x10000 + (high - 0xD800) * 0x400 + (low - 0xDC00)) :: cs) rest
        else none
      else if isLowSurrogate high then none
      else decodeFrom (Char.ofNat high :: cs) (low :: rest)
  | [unit] =>
      if isHighSurrogate unit || isLowSurrogate unit then none
      else some (Char.ofNat unit :: cs).reverse

/-- The text that units write. -/
def decodeUnits? (units : List Nat) : Option String := (decodeFrom [] units).map String.ofList

/-! ## Numerals -/

/-- A decimal numeral: its sign, its digits before and after the point, and its power of ten. -/
structure Numeral where
  isNegative : Bool
  whole : List Char
  fraction : List Char
  exponent : Option Int
  deriving DecidableEq, Repr

/-- The whole part of a number: no needless zero may stand in front. -/
def wholePart (cs : List Char) : Option (List Char × List Char) :=
  match cs with
  | '0' :: rest => if rest.head?.any Char.isDigit then none else some (['0'], rest)
  | _ =>
      match cs.takeWhile Char.isDigit with
      | [] => none
      | digits => some (digits, cs.dropWhile Char.isDigit)

/-- The digits of a fraction; there is at least one after a point. -/
def fractionPart (cs : List Char) : Option (List Char × List Char) :=
  match cs with
  | '.' :: rest =>
      match rest.takeWhile Char.isDigit with
      | [] => none
      | digits => some (digits, rest.dropWhile Char.isDigit)
  | _ => some ([], cs)

/-- The power of ten after a letter, if there is one. -/
def exponentPart (cs : List Char) : Option (Option Int × List Char) :=
  match cs with
  | c :: rest =>
      if c == 'e' || c == 'E' then
        let (isNegative, rest) := match rest with
          | '-' :: rest => (true, rest)
          | '+' :: rest => (false, rest)
          | _ => (false, rest)
        (Document.digits? 10 (rest.takeWhile Char.isDigit)).map fun n =>
          (some (if isNegative then -(n : Int) else n), rest.dropWhile Char.isDigit)
      else some (none, cs)
  | [] => some (none, [])

/-- A numeral. -/
def numeral : Reader Numeral := fun cs => do
  let (isNegative, cs) := match cs with
    | '-' :: rest => (true, rest)
    | _ => (false, cs)
  let (whole, cs) ← wholePart cs
  let (fraction, cs) ← fractionPart cs
  let (exponent, cs) ← exponentPart cs
  return (⟨isNegative, whole, fraction, exponent⟩, cs)

end PipelineArchive.Json
