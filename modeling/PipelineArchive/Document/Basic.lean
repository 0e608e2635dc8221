import PipelineArchive.Document.Number

/-!
# Documents

A document is what a manifest is written as: null, booleans, numbers, texts, lists and maps.
A map keeps its entries in the order they were written, repeated keys included. A `plain`
scalar is text without quotes in a notation that leaves its type open; it stands for a text
where a text is wanted, and elsewhere for what `Document.ofPlain` makes of it.

What no value can be made of is `unreadable`: it may stand where nothing is read. A document
that is held before it is known what each part is for has the type of every plain scalar
settled and nothing unreadable in it; `Document.held?` is that document.
-/

set_option autoImplicit false

namespace PipelineArchive

/-- A key of a map. A key that is a number in a held document is the position of what it names;
other keys that are no texts name nothing. -/
inductive Document.Key where
  | text (value : String)
  | plain (value : String)
  | position (value : Nat)
  | nameless
  | unreadable
  deriving DecidableEq, Repr

/-- A value of a manifest notation. -/
inductive Document where
  | null
  | bool (value : Bool)
  | number (value : Number)
  | infinite (isNegative : Bool)
  | notANumber
  | text (value : String)
  | plain (value : String)
  | list (items : List Document)
  | map (entries : List (Document.Key × Document))
  | unreadable
  deriving Repr

/-- The text of a key. -/
def Document.Key.text? : Document.Key → Option String
  | .text s | .plain s => some s
  | .position _ | .nameless | .unreadable => none

namespace Document

/-- The last value of a key of a map. -/
def member? (d : Document) (key : String) : Option Document :=
  match d with
  | map entries => (entries.reverse.find? fun entry => entry.1.text? == some key).map (·.2)
  | _ => none

/-! ## Plain scalars -/

/-- The value of a digit in a base of up to sixteen. -/
def digitValue? (base : Nat) (c : Char) : Option Nat :=
  let value? :=
    if '0' ≤ c ∧ c ≤ '9' then some (c.toNat - '0'.toNat)
    else if 'a' ≤ c ∧ c ≤ 'f' then some (c.toNat - 'a'.toNat + 10)
    else if 'A' ≤ c ∧ c ≤ 'F' then some (c.toNat - 'A'.toNat + 10)
    else none
  value?.filter fun value => value < base

/-- The number that a nonempty list of digits writes in a base. -/
def digits? (base : Nat) (cs : List Char) : Option Nat :=
  match cs with
  | [] => none
  | _ => cs.foldlM (fun acc c => (digitValue? base c).map fun d => acc * base + d) 0

/-- An unsigned integer: decimal digits without a needless zero, or digits after `0x`, `0o`
or `0b`. -/
def unsigned? (cs : List Char) : Option Nat :=
  match cs with
  | '0' :: 'x' :: rest => digits? 16 rest
  | '0' :: 'o' :: rest => digits? 8 rest
  | '0' :: 'b' :: rest => digits? 2 rest
  | ['0'] => some 0
  | '0' :: _ => none
  | _ => digits? 10 cs

/-- What a sign and an unsigned integer stand for. An integer of 64 bits is a number; no value
holds one that only 128 bits hold; a longer one is no integer. -/
def integer? (isNegative : Bool) (n : Nat) : Option Document :=
  let half := UInt64.size / 2
  if isNegative then
    if n ≤ half then some (number (.negative n))
    else if n ≤ half * UInt64.size then some unreadable
    else none
  else if n < UInt64.size then some (number (.natural n))
  else if n < UInt64.size * UInt64.size then some unreadable
  else none

/-- Decimal digits with an optional point and exponent, as the digits and the power of ten. -/
def decimal? (cs : List Char) : Option (Nat × Int) := do
  let whole := cs.takeWhile Char.isDigit
  let rest := cs.dropWhile Char.isDigit
  let (fraction, rest) := match rest with
    | '.' :: rest => (rest.takeWhile Char.isDigit, rest.dropWhile Char.isDigit)
    | _ => ([], rest)
  let value ← digits? 10 (whole ++ fraction)
  let shift : Int := -(fraction.length : Int)
  match rest with
  | [] => return (value, shift)
  | e :: rest =>
      guard (e == 'e' || e == 'E')
      let exponent : Int ← match rest with
        | '-' :: rest => (digits? 10 rest).map fun n => -(n : Int)
        | '+' :: rest => (digits? 10 rest).map fun n => (n : Int)
        | _ => (digits? 10 rest).map fun n => (n : Int)
      return (value, shift + exponent)

/-- Whether digits would be an integer but for a needless zero in front. -/
def isPaddedInteger (cs : List Char) : Bool :=
  match cs with
  | '0' :: rest => !rest.isEmpty && rest.all Char.isDigit
  | _ => false

/-- A plain number: a sign followed by an integer, a decimal, `.inf`, or `.nan` alone. -/
def plainNumber? (cs : List Char) : Option Document :=
  let (signed, isNegative, body) := match cs with
    | '-' :: rest => (true, true, rest)
    | '+' :: rest => (true, false, rest)
    | _ => (false, false, cs)
  if isPaddedInteger body then none
  else if let some d := (unsigned? body).bind (integer? isNegative) then some d
  else if [".inf", ".Inf", ".INF"].contains (String.ofList body) then some (infinite isNegative)
  else if !signed && [".nan", ".NaN", ".NAN"].contains (String.ofList body) then some notANumber
  else do
    let (digits, exponent) ← decimal? body
    (Number.ofDecimal isNegative digits exponent).map number

/-- What a plain scalar stands for where its type is open. -/
def ofPlain (s : String) : Document :=
  if ["", "~", "null", "Null", "NULL"].contains s then null
  else if ["true", "True", "TRUE"].contains s then bool true
  else if ["false", "False", "FALSE"].contains s then bool false
  else (plainNumber? s.toList).getD (text s)

/-! ## Held documents -/

/-- A key whose type is settled. -/
def heldKey? : Key → Option Key
  | .plain s =>
      match ofPlain s with
      | text s => some (.text s)
      | number (.natural n) => some (.position n)
      | unreadable => none
      | _ => some .nameless
  | .unreadable => none
  | key => some key

mutual

/-- A document whose plain scalars are replaced by what they stand for; `none` if a part of it
is unreadable. -/
def held? : Document → Option Document
  | plain s =>
      match ofPlain s with
      | unreadable => none
      | d => some d
  | list items => (heldItems? items).map list
  | map entries => (heldEntries? entries).map map
  | unreadable => none
  | other => some other

/-- The items of a list, each held. -/
def heldItems? : List Document → Option (List Document)
  | [] => some []
  | item :: items =>
      match held? item, heldItems? items with
      | some item, some items => some (item :: items)
      | _, _ => none

/-- The entries of a map, each held. -/
def heldEntries? : List (Key × Document) → Option (List (Key × Document))
  | [] => some []
  | (key, value) :: entries =>
      match heldKey? key, held? value, heldEntries? entries with
      | some key, some value, some entries => some ((key, value) :: entries)
      | _, _, _ => none

end

/-! ## Repeated keys -/

mutual

/-- A document whose maps have each key once, with the last of its values. -/
def lastOfEach : Document → Document
  | list items => list (lastOfEachItems items)
  | map entries => map (lastOfEachEntries entries)
  | other => other

/-- The items of a list, each with its maps reduced. -/
def lastOfEachItems : List Document → List Document
  | [] => []
  | item :: items => lastOfEach item :: lastOfEachItems items

/-- The last entry of each key of a map, its value with its maps reduced. -/
def lastOfEachEntries : List (Key × Document) → List (Key × Document)
  | [] => []
  | (key, value) :: entries =>
      let others := lastOfEachEntries entries
      if others.any fun entry => entry.1 == key then others
      else (key, lastOfEach value) :: others

end

/-! ## Depth -/

mutual

/-- A document with everything unreadable that lies in more lists and maps than a bound. -/
def clipped (depth : Nat) : Document → Document
  | list items =>
      match depth with
      | 0 => unreadable
      | depth + 1 => list (clippedItems depth items)
  | map entries =>
      match depth with
      | 0 => unreadable
      | depth + 1 => map (clippedEntries depth entries)
  | other => other

/-- The items of a list, each clipped. -/
def clippedItems (depth : Nat) : List Document → List Document
  | [] => []
  | item :: items => clipped depth item :: clippedItems depth items

/-- The entries of a map, each value clipped. -/
def clippedEntries (depth : Nat) : List (Key × Document) → List (Key × Document)
  | [] => []
  | (key, value) :: entries => (key, clipped depth value) :: clippedEntries depth entries

end

end Document

end PipelineArchive
