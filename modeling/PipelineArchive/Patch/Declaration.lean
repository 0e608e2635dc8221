import PipelineArchive.Text.Blank

/-!
# Declarations of GLSL

A uniform or buffer declaration starts a line, after spaces and tabs. It consists of an
optional layout, words before the keyword `uniform` or `buffer`, and everything up to the
brace of a block or the end of the statement. `Declaration.read?` reads one at the start of a
line, and `Declaration.mapText` replaces the declarations of a text.
-/

set_option autoImplicit false

namespace PipelineArchive.Patch

open Text

/-- A declaration, cut into its parts. -/
structure Declaration where
  /-- The spaces and tabs before it. -/
  indent : List Char
  /-- The layout as it is written, with the blanks after it; empty without a layout. -/
  opening : List Char
  /-- What stands between the parentheses of the layout. -/
  qualifiers : List Char
  /-- From the first word to the last character that is not blank. -/
  head : List Char
  /-- The blanks before the terminator. -/
  gap : List Char
  /-- The brace of a block or the end of the statement. -/
  terminator : Char
  deriving DecidableEq, Repr

namespace Declaration

/-- The characters of a declaration. -/
def text (d : Declaration) : List Char :=
  d.indent ++ d.opening ++ d.head ++ d.gap ++ [d.terminator]

/-! ## Reading -/

/-- A layout at the start of a text: its qualifiers, and the text after the blanks that
follow it. -/
def layout? (text : List Char) : Option (List Char × List Char) :=
  match after? "layout".toList text with
  | none => none
  | some rest =>
      match trimStart rest with
      | '(' :: rest =>
          match rest.dropWhile (· ≠ ')') with
          | ')' :: after => some (rest.takeWhile (· ≠ ')'), trimStart after)
          | _ => none
      | _ => none

/-- Whether a text starts with a word that is not continued. -/
def startsWithWord (word text : List Char) : Bool :=
  match after? word text with
  | none => false
  | some [] => true
  | some (c :: _) => !isWord c

/-- Whether a text starts with the keyword of a declaration. -/
def startsWithKeyword (text : List Char) : Bool :=
  startsWithWord "uniform".toList text || startsWithWord "buffer".toList text

/-- A place in the words before a keyword. -/
inductive WordPlace where
  | start
  | inside
  | blank
  deriving DecidableEq, Repr

/-- The words, each with blanks after it, that stand before the first keyword. -/
def words? : WordPlace → List Char → Option (List Char)
  | _, [] => none
  | .inside, c :: rest =>
      if isWord c then (words? .inside rest).map (c :: ·)
      else if isBlank c then (words? .blank rest).map (c :: ·)
      else none
  | .start, c :: rest =>
      if startsWithKeyword (c :: rest) then some []
      else if isWord c then (words? .inside rest).map (c :: ·)
      else none
  | .blank, c :: rest =>
      if startsWithKeyword (c :: rest) then some []
      else if isWord c then (words? .inside rest).map (c :: ·)
      else if isBlank c then (words? .blank rest).map (c :: ·)
      else none

/-- Whether a character ends a declaration. -/
def isTerminator (c : Char) : Bool := c == ';' || c == '{'

/-- The spaces and tabs at the start of a text. -/
def isIndent (c : Char) : Bool := c == ' ' || c == '\t'

/-- The declaration at the start of a line, if there is one. -/
def read? (line : List Char) : Option Declaration :=
  let indent := line.takeWhile isIndent
  let unindented := line.dropWhile isIndent
  let (qualifiers, rest) := (layout? unindented).getD ([], unindented)
  let opening := unindented.take (unindented.length - rest.length)
  match words? .start rest with
  | none => none
  | some words =>
      let body := (rest.drop words.length).takeWhile fun c => !isTerminator c
      match (rest.drop words.length).dropWhile fun c => !isTerminator c with
      | [] => none
      | terminator :: _ =>
          some ⟨indent, opening, qualifiers, words ++ trimEnd body, trailingBlanks body, terminator⟩

/-- A text with its declarations replaced. A declaration must start a line; the first `skip`
characters belong to a declaration that has been replaced. -/
def mapFrom (replace : Declaration → List Char) : Bool → Nat → List Char → List Char
  | _, _, [] => []
  | _, skip + 1, _ :: rest => mapFrom replace false skip rest
  | atLineStart, 0, c :: rest =>
      match if atLineStart then read? (c :: rest) else none with
      | some d => replace d ++ mapFrom replace false (d.text.length - 1) rest
      | none => c :: mapFrom replace (c == '\n') 0 rest

/-- A text with its declarations replaced. -/
def mapText (replace : Declaration → List Char) (text : List Char) : List Char :=
  mapFrom replace true 0 text

/-! ## The declared name -/

/-- The number of characters of an array suffix, with the blanks before it, at the start of a
text; zero where there is none. -/
def suffixLength (text : List Char) : Nat :=
  match trimStart text with
  | '[' :: inner =>
      match inner.dropWhile (· ≠ ']') with
      | ']' :: rest => text.length - rest.length
      | _ => 0
  | _ => 0

/-- A text without its array suffixes, the first `skip` characters of which belong to one. -/
def withoutSuffixesFrom : Nat → List Char → List Char
  | _, [] => []
  | skip + 1, _ :: rest => withoutSuffixesFrom skip rest
  | 0, c :: rest =>
      match suffixLength (c :: rest) with
      | 0 => c :: withoutSuffixesFrom 0 rest
      | length + 1 => withoutSuffixesFrom length rest

/-- Where no array suffix starts, a character is kept. -/
theorem withoutSuffixesFrom_cons {c : Char} {rest : List Char}
    (h : suffixLength (c :: rest) = 0) :
    withoutSuffixesFrom 0 (c :: rest) = c :: withoutSuffixesFrom 0 rest := by
  have hstep : withoutSuffixesFrom 0 (c :: rest) =
      match suffixLength (c :: rest) with
      | 0 => c :: withoutSuffixesFrom 0 rest
      | length + 1 => withoutSuffixesFrom length rest := rfl
  rw [hstep, h]

/-- The name of a block or variable: the last word before any array suffix. -/
def name? (d : Declaration) : Option String :=
  (lastWord? (withoutSuffixesFrom 0 d.head)).map String.ofList

/-! ## Changing the layout -/

/-- Whether a qualifier gives a set or a binding. -/
def isPlace (qualifier : List Char) : Bool :=
  let key := trim (qualifier.takeWhile (· ≠ '='))
  key == "set".toList || key == "binding".toList

/-- The qualifiers that remain when sets and bindings are taken out. -/
def keptQualifiers (d : Declaration) : List (List Char) :=
  ((splitOn ',' d.qualifiers).map trim).filter fun q => !q.isEmpty && !isPlace q

/-- The declaration with a binding as its last qualifier. -/
def withBinding (d : Declaration) (unit : UInt32) : List Char :=
  let qualifiers := d.keptQualifiers ++ [s!"binding = {unit.toNat}".toList]
  d.indent ++ "layout(".toList ++ joinWith ", ".toList qualifiers ++ ") ".toList
    ++ d.head ++ d.gap ++ [d.terminator]

/-- The declaration with the binding that its name has, or as it is written. -/
def rebound (units : String → Option UInt32) (d : Declaration) : List Char :=
  match d.name?.bind units with
  | some unit => d.withBinding unit
  | none => d.text

end Declaration

/-- A text in which every declaration of a known name has the binding of that name. -/
def assignBindings (units : String → Option UInt32) (text : List Char) : List Char :=
  Declaration.mapText (Declaration.rebound units) text

end PipelineArchive.Patch
