import PipelineArchive.Document.Basic

/-!
# Reading descriptions from documents

`FromDocument` gives the value that a document describes. A record is a map from field names,
each at most once; unknown names are passed over. Outside YAML it may also be a list of its
fields in order. A field that is left out takes its default, and one without a default must be
given.

Records that share one map cannot tell whose field a value is before its key is known. All
values but those of the fields named first are therefore held, and a held document is read
with more freedom: a key may give the position of a field or of a member of an enumeration, and
an empty map may stand for null beside such a member.
-/

set_option autoImplicit false

namespace PipelineArchive

/-- How a document comes to be read: as it was written in a notation, or after it was held. -/
inductive Form where
  | json
  | yaml
  | held
  deriving DecidableEq, Repr

/-- What is read from a document, which may depend on its form. -/
abbrev Reading := ReaderT Form Option

/-- A reading of held documents. -/
def Reading.ofHeld {α : Type} (reading : Reading α) : Reading α := fun _ => reading .held

/-- Types whose values a document can describe. -/
class FromDocument (α : Type) where
  /-- The value described by a document, if there is one. -/
  read? : Document → Reading α

namespace FromDocument

/-- Values that are read alike from documents of both forms. -/
abbrev ofFunction {α : Type} (f : Document → Option α) : FromDocument α := ⟨fun d _ => f d⟩

/-! ## Scalars -/

/-- The truth value of a document. -/
def bool? : Document → Option Bool
  | .bool b => some b
  | .plain s =>
      match Document.ofPlain s with
      | .bool b => some b
      | _ => none
  | _ => none

/-- The text of a document. -/
def text? : Document → Option String
  | .text s | .plain s => some s
  | _ => none

/-- The natural number below a bound that a document gives. A plain scalar writes it without a
minus sign. -/
def natural? (bound : Nat) : Document → Option Nat
  | .number n => n.below? bound
  | .plain s =>
      match Document.ofPlain s with
      | .number (.natural n) => if n < bound then some n else none
      | _ => none
  | _ => none

/-- The signed integer that a document gives. -/
def int32? : Document → Option Int32
  | .number n => n.int32?
  | .plain s =>
      match Document.ofPlain s with
      | .number n => n.int32?
      | _ => none
  | _ => none

/-- The single described by a document whose type is known. -/
def single? : Document → Option Single
  | .number n => some n.toSingle
  | .infinite isNegative => some (.ofMagnitude isNegative none)
  | .notANumber => some ⟨0x7FC00000⟩
  | _ => none

instance : FromDocument Bool := ofFunction bool?
instance : FromDocument String := ofFunction text?
instance : FromDocument UInt8 :=
  ofFunction fun d => (natural? UInt8.size d).map UInt8.ofNat
instance : FromDocument UInt16 :=
  ofFunction fun d => (natural? UInt16.size d).map UInt16.ofNat
instance : FromDocument UInt32 :=
  ofFunction fun d => (natural? UInt32.size d).map UInt32.ofNat
instance : FromDocument UInt64 :=
  ofFunction fun d => (natural? UInt64.size d).map UInt64.ofNat
/-- A count, which fits 64 bits. -/
instance : FromDocument Nat := ofFunction (natural? UInt64.size)
instance : FromDocument Int32 := ofFunction int32?

instance : FromDocument Single :=
  ofFunction fun
    | .plain s => single? (Document.ofPlain s)
    | d => single? d

/-! ## Lists and options -/

/-- The members of a list; an empty plain scalar is the empty list. -/
def items? : Document → Option (List Document)
  | .list items => some items
  | .plain "" => some []
  | _ => none

instance {α : Type} [FromDocument α] : FromDocument (List α) where
  read? d := do (← items? d).mapM read?

/-- A pair is a list of two. -/
instance {α β : Type} [FromDocument α] [FromDocument β] : FromDocument (α × β) where
  read? d := do
    match ← items? d with
    | [a, b] => return (← read? a, ← read? b)
    | _ => failure

instance {α : Type} [FromDocument α] : FromDocument (Option α) where
  read?
    | .null => return none
    | .plain s =>
        match Document.ofPlain s with
        | .null => return none
        | _ => some <$> read? (.plain s)
    | d => some <$> read? d

/-! ## Enumerations -/

/-- The member that a key names, by its name or its position. -/
def member? {α : Type} (names : List (String × α)) : Document.Key → Option α
  | .text s | .plain s => names.lookup s
  | .position n => names[n]?.map (·.2)
  | .nameless | .unreadable => none

/-- The member of an enumeration that a document names, as a text or as the only key of a map
whose value is null. -/
def named? {α : Type} (names : List (String × α)) : Document → Reading α
  | .text s | .plain s => names.lookup s
  | .map [(key, .null)] => member? names key
  | .map [(key, .map [])] => do
      match ← read with
      | .held => member? names key
      | .json | .yaml => failure
  | _ => failure

/-- The member of an enumeration that tells how the rest of a map is read. It is a text, and in
a held document it may be a position. -/
def tag? {α : Type} (names : List (String × α)) : Document → Reading α
  | .text s | .plain s => names.lookup s
  | .number (.natural n) => do
      match ← read with
      | .held => member? names (.position n)
      | .json | .yaml => failure
  | _ => failure

/-! ## Records -/

/-- The values given for the fields of a record. -/
abbrev Fields := List (String × Document)

/-- Fields none of which is repeated. -/
def unique? (fields : Fields) : Option Fields :=
  if (fields.map (·.1)).Nodup then some fields else none

/-- The known ones among fields; a known field must not be repeated. -/
def known? (names : List String) (fields : Fields) : Option Fields :=
  unique? (fields.filter fun (name, _) => names.contains name)

/-- The known field that an entry of a map gives, if it gives one; a key that is no name and no
position is refused. -/
def fieldOf? (names : List String) : Document.Key × Document → Option Fields
  | (.text s, d) | (.plain s, d) => some (if names.contains s then [(s, d)] else [])
  | (.position n, d) => some (names[n]?.map (·, d)).toList
  | (.nameless, _) | (.unreadable, _) => none

/-- The fields of a record given as a map. -/
def fieldsOfMap? (names : List String) (entries : List (Document.Key × Document)) :
    Option Fields := do
  unique? (← entries.mapM (fieldOf? names)).flatten

/-- The fields of a record given as a list in order, of which the last may be left out. -/
def fieldsOfList? (names : List String) (items : List Document) : Option Fields :=
  if items.length ≤ names.length then some (names.zip items) else none

/-- The fields of a record given as a map, or as a list where the form of the document allows
it. An empty plain scalar is the empty map. -/
def fields? (names : List String) : Document → Reading Fields
  | .map entries => fieldsOfMap? names entries
  | .list items => do
      match ← read with
      | .json | .held => fieldsOfList? names items
      | .yaml => failure
  | .plain "" => return []
  | _ => failure

/-- The fields of a record that shares a map with other records, as they were written, and the
other entries of the map, held. -/
def sharedFields? (names : List String) : Document → Option (Fields × Fields)
  | .map entries => do
      let fields ← entries.mapM fun (key, d) => key.text?.map (·, d)
      let (own, others) := fields.partition fun (name, _) => names.contains name
      return (← known? names own, ← others.mapM fun (name, d) => d.held?.map (name, ·))
  | _ => none

/-- A field that must be given. -/
def required {α : Type} [FromDocument α] (fields : Fields) (name : String) : Reading α := do
  read? (← fields.lookup name)

/-- A field that has a default. -/
def optional {α : Type} [FromDocument α] (fields : Fields) (name : String) (default : α) :
    Reading α :=
  match fields.lookup name with
  | some d => read? d
  | none => return default

end FromDocument

end PipelineArchive
