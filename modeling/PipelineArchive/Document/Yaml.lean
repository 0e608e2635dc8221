import PipelineArchive.Document.Basic
import PipelineArchive.Text.Blank

/-!
# YAML documents

`Yaml.document?` reads one document of block and flow collections, plain and quoted scalars and
comments; what nests too deep is an unreadable part of it. Anchors, tags, block scalars and
directives are refused. A line ends with a line feed, a carriage return or both, a next line, or
a separator of lines or paragraphs. A reader works at a place, a column and the characters from
there on, since the nesting of block collections is given by columns.
-/

set_option autoImplicit false

namespace PipelineArchive.Yaml

/-! ## Characters -/

/-- Whether a character may stand in a text. -/
def isAllowed (c : Char) : Bool :=
  let n := c.toNat
  n == 0x9 || n == 0xA || n == 0xD || (0x20 ≤ n && n ≤ 0x7E) || n == 0x85
    || (0xA0 ≤ n && n ≤ 0xFFFD && n != 0xFEFF) || 0x10000 ≤ n

/-- Characters with a line feed for each line break that is not a separator of its own, those
given already last first. -/
def unifyBreaks (done : List Char) : List Char → List Char
  | [] => done.reverse
  | '\r' :: '\n' :: rest => unifyBreaks ('\n' :: done) rest
  | c :: rest => unifyBreaks ((if c == '\r' || c == '\u0085' then '\n' else c) :: done) rest

/-- Whether a character breaks a line: a line feed, or a separator of lines or paragraphs. -/
def isBreak (c : Char) : Bool := c == '\n' || c == '\u2028' || c == '\u2029'

def isSpace (c : Char) : Bool := c == ' ' || c == '\t'
def isFlowMark (c : Char) : Bool := ",[]\x7b\x7d".toList.contains c

/-- The characters that no plain scalar of a flow collection has behind a colon. -/
def isFlowSign (c : Char) : Bool := isFlowMark c || c == '?'

/-- Whether a scalar mark is followed by space, a line break or the end. -/
def endsHere (rest : List Char) : Bool := rest.head?.all fun c => isSpace c || isBreak c

/-! ## Places -/

/-- A place in a text: its column and the characters from there on. Tabs may stand before the
next token where no block collection can start. -/
structure Place where
  column : Nat
  rest : List Char
  allowsTabs : Bool

/-- A reader of a value at a place. -/
abbrev Reader (α : Type) := Place → Option (α × Place)

/-- The place behind a token of `count` characters on the same line. -/
def Place.advance (p : Place) (count : Nat) : Place := ⟨p.column + count, p.rest.drop count, true⟩

/-- The place after spaces, line breaks and comments. Behind a line break tabs are allowed in
flow collections only. -/
def skipFrom (inFlow allowsTabs inComment : Bool) (column : Nat) : List Char → Place
  | [] => ⟨column, [], allowsTabs⟩
  | c :: rest =>
      if isBreak c then skipFrom inFlow inFlow false 0 rest
      else if inComment || c == ' ' || (c == '\t' && allowsTabs) then
        skipFrom inFlow allowsTabs inComment (column + 1) rest
      else if c == '#' then skipFrom inFlow allowsTabs true (column + 1) rest
      else ⟨column, c :: rest, allowsTabs⟩

/-- The next place of a block collection that holds neither space nor a comment. -/
def Place.skip (p : Place) : Place := skipFrom false p.allowsTabs false p.column p.rest

/-- The next place of a flow collection that holds neither space nor a comment. -/
def Place.skipInFlow (p : Place) : Place := skipFrom true true false p.column p.rest

/-- The place after spaces on the same line. -/
def Place.skipSpaces (p : Place) : Place := p.advance (p.rest.takeWhile isSpace).length

/-- The place after spaces and line breaks from a column on; behind a line break no tab may stand
before the column `least`. -/
def skipBlankFrom (least : Nat) (isBroken : Bool) (column : Nat) : List Char → Option Place
  | [] => some ⟨column, [], !isBroken⟩
  | c :: rest =>
      if isBreak c then skipBlankFrom least true 0 rest
      else if isSpace c then
        if c == '\t' && isBroken && column < least then none
        else skipBlankFrom least isBroken (column + 1) rest
      else some ⟨column, c :: rest, !isBroken⟩

/-- The line breaks before a place that follows in a text. -/
def breaksBefore (start stop : Place) : List Char :=
  (start.rest.take (start.rest.length - stop.rest.length)).filter isBreak

/-- Whether a place that follows in a text stands on the same line. -/
def onSameLine (start stop : Place) : Bool := (breaksBefore start stop).isEmpty

/-! ## Scalars -/

/-- The characters of a plain scalar up to the end of its line. It ends before a colon that
ends a key, a comment, and in flow collections before their marks. -/
def plainLine (inFlow afterSpace : Bool) : List Char → List Char
  | [] => []
  | c :: rest =>
      if isBreak c then []
      else if c == '#' && afterSpace then []
      else if c == ':' && (endsHere rest || (inFlow && rest.head?.any isFlowSign)) then []
      else if inFlow && isFlowMark c then []
      else c :: plainLine inFlow (isSpace c) rest

/-- A list of characters without spaces at its end. -/
def trimSpaces (cs : List Char) : List Char := (cs.reverse.dropWhile isSpace).reverse

/-- Whether a plain scalar may start at a place. -/
def startsPlain (inFlow : Bool) (rest : List Char) : Bool :=
  match rest with
  | [] => false
  | c :: rest =>
      if c == '-' then !endsHere rest
      else if c == '?' || c == ':' then !inFlow && !endsHere rest
      else !isSpace c && !",[]\x7b\x7d#&*!|>'\"%@`".toList.contains c

/-- What stands for the line breaks inside a scalar: a space for one line feed, and for several
breaks all but the first. A separator in front is kept. -/
def folded : List Char → List Char
  | ['\n'] => [' ']
  | '\n' :: breaks => breaks
  | breaks => breaks

/-- The lines that continue a plain scalar, which in block collections stand at the column
`least` or further, and the place after them and the blanks behind. A comment is no such
line. -/
def plainMore (inFlow : Bool) (least : Nat) (p : Place) : Option (List Char × Place) :=
  match skipBlankFrom least false p.column p.rest with
  | none => none
  | some next =>
      let line := if next.rest.head? == some '#' then [] else plainLine inFlow false next.rest
      let after := next.advance line.length
      if next.allowsTabs ∨ line.isEmpty ∨ (!inFlow && next.column < least) then some ([], next)
      else if _h : after.rest.length < p.rest.length then
        (plainMore inFlow least after).map fun (more, q) =>
          (folded (breaksBefore p next) ++ trimSpaces line ++ more, q)
      else none
termination_by p.rest.length
decreasing_by exact _h

/-- A plain scalar and the place after it and the blanks behind. -/
def plain (inFlow : Bool) (least : Nat) : Reader (List Char) := fun p =>
  if startsPlain inFlow p.rest then
    let line := plainLine inFlow false p.rest
    (plainMore inFlow least (p.advance line.length)).map fun (more, q) =>
      (trimSpaces line ++ more, q)
  else none

/-- The character of a one-letter escape in double quotes. -/
def letterEscape? : Char → Option Char
  | '0' => some '\x00'
  | 'a' => some '\x07'
  | 'b' => some '\x08'
  | 't' | '\t' => some '\t'
  | 'n' => some '\n'
  | 'v' => some '\x0b'
  | 'f' => some '\x0c'
  | 'r' => some '\r'
  | 'e' => some '\x1b'
  | ' ' => some ' '
  | '"' => some '"'
  | '/' => some '/'
  | '\\' => some '\\'
  | 'N' => some '\u0085'
  | '_' => some '\u00a0'
  | 'L' => some '\u2028'
  | 'P' => some '\u2029'
  | _ => none

/-- How many hexadecimal digits follow an escape by number. -/
def numberEscape? : Char → Option Nat
  | 'x' => some 2
  | 'u' => some 4
  | 'U' => some 8
  | _ => none

/-- The spaces and breaks at the head of a text, as the fold that stands for them. -/
def fold (cs : List Char) : List Char :=
  let blank := cs.takeWhile fun c => isSpace c || isBreak c
  let breaks := blank.filter isBreak
  if breaks.isEmpty then blank else folded breaks

/-- The characters in double quotes up to the closing quote. -/
def doubleQuoted (p : Place) : Option (List Char × Place) :=
  match p.rest with
  | [] => none
  | c :: rest =>
      if c == '"' then some ([], p.advance 1)
      else
        let (piece, after) : Option (List Char) × Place :=
          if c == '\\' then
            match rest with
            | [] => (none, p)
            | e :: rest =>
                if isBreak e then
                  let blank := rest.takeWhile fun c => isSpace c || isBreak c
                  (some (blank.filter isBreak), p.advance (2 + blank.length))
                else
                  match numberEscape? e with
                  | some width =>
                      ((Document.digits? 16 (rest.take width)).bind fun n =>
                        if rest.length < width ∨ ¬ n.isValidChar then none else some [Char.ofNat n],
                        p.advance (2 + width))
                  | none => ((letterEscape? e).map fun c => [c], p.advance 2)
          else if isSpace c || isBreak c then
            let blank := p.rest.takeWhile fun c => isSpace c || isBreak c
            (some (fold p.rest), p.advance blank.length)
          else (some [c], p.advance 1)
        match piece with
        | none => none
        | some piece =>
            if after.rest.length < p.rest.length then
              (doubleQuoted after).map fun (cs, q) => (piece ++ cs, q)
            else none
termination_by p.rest.length

/-- The characters in single quotes up to the closing quote; two quotes stand for one. -/
def singleQuoted (p : Place) : Option (List Char × Place) :=
  match p.rest with
  | [] => none
  | '\'' :: '\'' :: _ =>
      let after := p.advance 2
      if after.rest.length < p.rest.length then
        (singleQuoted after).map fun (cs, q) => ('\'' :: cs, q)
      else none
  | '\'' :: _ => some ([], p.advance 1)
  | c :: _ =>
      let blank := p.rest.takeWhile fun c => isSpace c || isBreak c
      let (piece, after) :=
        if blank.isEmpty then ([c], p.advance 1) else (fold p.rest, p.advance blank.length)
      if after.rest.length < p.rest.length then
        (singleQuoted after).map fun (cs, q) => (piece ++ cs, q)
      else none
termination_by p.rest.length

/-- A scalar: text in quotes, or a plain one whose type is open. -/
def scalar (inFlow : Bool) (least : Nat) : Reader Document := fun p =>
  match p.rest with
  | '"' :: _ => (doubleQuoted (p.advance 1)).map fun (cs, q) => (.text (String.ofList cs), q)
  | '\'' :: _ => (singleQuoted (p.advance 1)).map fun (cs, q) => (.text (String.ofList cs), q)
  | _ => (plain inFlow least p).map fun (cs, q) => (.plain (String.ofList cs), q)

/-- The key that a document is; a collection names nothing. -/
def keyOf : Document → Document.Key
  | .text s => .text s
  | .plain s => .plain s
  | _ => .nameless

/-- Whether a key that starts at one place may end at another one: on the same line and not too
far away. -/
def isKeySpan (start stop : Place) : Bool :=
  onSameLine start stop && start.rest.length - stop.rest.length ≤ 1024

/-! ## Flow collections -/

/-- The items of a flow collection up to its closing mark; a comma may follow the last. -/
def flowItems {α : Type} (item : Reader α) (close : Char) (p : Place) :
    Option (List α × Place) :=
  let start := p.skipInFlow
  match start.rest with
  | [] => none
  | c :: _ =>
      if c == close then some ([], start.advance 1)
      else
        match item start with
        | none => none
        | some (value, after) =>
            let after := after.skipInFlow
            match after.rest with
            | [] => none
            | d :: _ =>
                if d == close then some ([value], after.advance 1)
                else
                  let next := after.advance 1
                  if _h : d == ',' ∧ next.rest.length < p.rest.length then
                    (flowItems item close next).map fun (values, q) => (value :: values, q)
                  else none
termination_by p.rest.length
decreasing_by exact _h.2

/-- A value of a flow collection that may be left out. -/
def flowOptional (value : Reader Document) : Reader Document := fun p =>
  let start := p.skipInFlow
  match start.rest with
  | ',' :: _ | '\x7d' :: _ | ']' :: _ | ':' :: _ => some (.plain "", start)
  | _ => value start

/-- Whether the colon of a flow collection stands at a place, after a key that starts at
another one. After a plain key the colon is set off. -/
def followsKey (start colon : Place) : Bool :=
  match start.rest, colon.rest with
  | first :: _, ':' :: rest => "\"'[\x7b:".toList.contains first || endsHere rest
  | _, _ => false

/-- A key of a flow collection and its value after a colon; `none` in place of the value if no
colon stands there. A question mark may stand before a key, which may then be left out and end
anywhere; another key ends with its colon on one line. -/
def flowPair (value : Reader Document) : Reader (Document × Option Document) := fun p => do
  let isMarked := p.rest.head? == some '?'
  let start := if isMarked then (p.advance 1).skipInFlow else p
  let (key, after) ← if isMarked then flowOptional value start else value start
  let colon := after.skipInFlow
  if followsKey start colon && (isMarked || isKeySpan start colon) then
    let (document, q) ← flowOptional value (colon.advance 1)
    return ((key, some document), q)
  else return ((key, if isMarked then some (.plain "") else none), after)

/-- A key of a flow map and its value, which may be left out. -/
def flowEntry (value : Reader Document) : Reader (Document.Key × Document) := fun p =>
  (flowPair value p).map fun ((key, document), q) => ((keyOf key, document.getD (.plain "")), q)

/-- An item of a flow list; a key with a value is a map of one entry. -/
def flowItem (value : Reader Document) : Reader Document := fun p =>
  (flowPair value p).map fun ((item, document), q) =>
    (document.elim item fun document => .map [(keyOf item, document)], q)

/-- A flow collection or scalar in which collections nest to the given depth, inside a block
collection whose parts start at the column `least` or further. -/
def flowValue (least : Nat) : Nat → Reader Document
  | depth, p =>
    match p.rest with
    | '[' :: _ =>
        match depth with
        | 0 => none
        | depth + 1 =>
            (flowItems (flowItem (flowValue least depth)) ']' (p.advance 1)).map
              fun (items, q) => (.list items, q)
    | '\x7b' :: _ =>
        match depth with
        | 0 => none
        | depth + 1 =>
            (flowItems (flowEntry (flowValue least depth)) '\x7d' (p.advance 1)).map
              fun (entries, q) => (.map entries, q)
    | _ => scalar true least p

/-! ## Block collections -/

/-- Whether a mark of a block collection stands at a place: a dash before an item, a question mark
before a key, or a colon before the value of such a key. -/
def startsWith (mark : Char) (p : Place) : Bool :=
  match p.rest with
  | c :: rest => c == mark && endsHere rest
  | [] => false

/-- Whether an item of a block list starts at a place. -/
def startsItem (p : Place) : Bool := startsWith '-' p

/-- The place behind a mark of a block collection, where another collection can start. -/
def Place.afterMark (p : Place) : Place := ⟨p.column + 1, p.rest.drop 1, false⟩

/-- Whether a flow collection starts at a place. -/
def startsFlow (p : Place) : Bool := p.rest.head?.any fun c => c == '[' || c == '\x7b'

/-- The key at a place and the place after its colon, if a key stands there. -/
def blockKey? (flow : Reader Document) (p : Place) : Option (Document.Key × Place) := do
  let (key, after) ← match p.rest with
    | '"' :: _ | '\'' :: _ => scalar false 0 p
    | _ =>
        if startsFlow p then flow p
        else if startsPlain false p.rest then
          let line := plainLine false false p.rest
          some (.plain (String.ofList (trimSpaces line)), p.advance line.length)
        else none
  guard (onSameLine p after)
  let colon := after.skipSpaces
  match colon.rest with
  | ':' :: rest =>
      if isKeySpan p colon && endsHere rest then some (keyOf key, colon.advance 1) else none
  | _ => none

/-- The items of a block list at a column. -/
def blockItems (item : Nat → Reader Document) (column : Nat) (p : Place) :
    Option (List Document × Place) :=
  match item (column + 1) p.afterMark with
  | none => none
  | some (document, after) =>
      let next := after.skip
      if _h : (next.column = column ∧ startsItem next) ∧ next.rest.length < p.rest.length then
        (blockItems item column next).map fun (items, q) => (document :: items, q)
      else if next.rest.isEmpty ∨ next.column ≤ column then some ([document], next)
      else none
termination_by p.rest.length
decreasing_by exact _h.2

/-- The value of a key at a column: on the line of the key, or on the lines after it. -/
def entryValue (block flow : Nat → Reader Document) (column : Nat) : Reader Document := fun p =>
  let next := p.skip
  if onSameLine p next ∧ ¬ next.rest.isEmpty then
    if startsFlow next then flow (column + 1) next else scalar false (column + 1) next
  else if next.column = column ∧ startsItem next then block column next
  else block (column + 1) next

/-- The value behind a mark at a column. -/
def markedValue (block : Nat → Reader Document) (column : Nat) : Reader Document := fun p =>
  let next := p.afterMark.skip
  if next.column = column ∧ startsItem next then block column next
  else block (column + 1) p.afterMark

/-- An entry of a block map at a column. Its key stands before a colon, or behind a question mark;
the value of such a key stands behind a colon in the same column, and may be left out. -/
def blockEntry (block flow : Nat → Reader Document) (column : Nat) :
    Reader (Document.Key × Document) := fun p => do
  if startsWith '?' p then
    let (key, after) ← markedValue block column p
    let next := after.skip
    if next.column = column ∧ startsWith ':' next then
      let (document, q) ← markedValue block column next
      return ((keyOf key, document), q)
    else return ((keyOf key, .plain ""), next)
  else
    let (key, after) ← blockKey? (flow (column + 1)) p
    let (document, q) ← entryValue block flow column after
    return ((key, document), q)

/-- The entries of a block map at a column. -/
def blockEntries (block flow : Nat → Reader Document) (column : Nat) (p : Place) :
    Option (List (Document.Key × Document) × Place) :=
  match blockEntry block flow column p with
  | none => none
  | some (entry, after) =>
      let next := after.skip
      if next.rest.isEmpty ∨ next.column < column then some ([entry], next)
      else if _h : next.column = column ∧ next.rest.length < p.rest.length then
        if startsItem next then some ([entry], next)
        else
          (blockEntries block flow column next).map fun (entries, q) => (entry :: entries, q)
      else none
termination_by p.rest.length
decreasing_by exact _h.2

/-- A value whose first character stands at the column `least` or further; nothing there is
an empty plain scalar. -/
def blockValue : Nat → Nat → Reader Document
  | depth, least, p =>
    let start := p.skip
    if start.rest.isEmpty ∨ start.column < least then some (.plain "", start)
    else if startsItem start then
      match depth with
      | 0 => none
      | depth + 1 =>
          (blockItems (blockValue depth) start.column start).map fun (items, q) => (.list items, q)
    else if startsWith '?' start || (blockKey? (flowValue least depth) start).isSome then
      match depth with
      | 0 => none
      | depth + 1 =>
          (blockEntries (blockValue depth) (flowValue · depth) start.column start).map
            fun (entries, q) => (.map entries, q)
    else if startsFlow start then flowValue least depth start
    else scalar false least start

/-! ## Documents -/

/-- Whether a mark of three characters stands at the start of a line. -/
def isMark (mark : List Char) (line : List Char) : Bool :=
  mark.isPrefixOf line && endsHere (line.drop mark.length)

/-- The mark in front of a document. -/
def startMark : List Char := ['-', '-', '-']

/-- The mark behind a document. -/
def endMark : List Char := ['.', '.', '.']

/-- The characters before the first line with a mark, after those that are passed already, last
first, and the characters after the mark, if there is one. -/
def splitMark (mark : List Char) (atLineStart : Bool) (passed : List Char) :
    List Char → List Char × Option (List Char)
  | [] => (passed.reverse, none)
  | c :: rest =>
      if atLineStart && isMark mark (c :: rest) then (passed.reverse, some (rest.drop 2))
      else splitMark mark (isBreak c) (c :: passed) rest

/-- Whether nothing but spaces and comments is left. -/
def isBlank (allowsTabs : Bool) (cs : List Char) : Bool :=
  (skipFrom false allowsTabs false 0 cs).rest.isEmpty

/-- The lines of a text. -/
def lines (cs : List Char) : List (List Char) :=
  Text.splitOn '\n' (cs.map fun c => if isBreak c then '\n' else c)

/-- Whether nothing but spaces, comments and further marks stands behind the mark of an end. -/
def endsAll (cs : List Char) : Bool :=
  match lines cs with
  | [] => true
  | first :: lines =>
      isBlank true first && lines.all fun line =>
        if isMark endMark line then isBlank true (line.drop endMark.length)
        else isBlank false line

/-- How deep collections may nest. -/
def maxDepth : Nat := 128

/-- The document that a reader reads up to the end of the text. -/
def whole? (reader : Reader Document) (p : Place) : Option Document :=
  match reader p with
  | some (d, q) => if (q.skip).rest.isEmpty then some (d.clipped maxDepth) else none
  | none => none

/-- The document that characters without marks are; a blank one is an empty scalar. -/
def content? (cs : List Char) : Option Document :=
  whole? (blockValue (cs.length + 1) 0) ⟨0, cs, false⟩

/-- The document behind a mark, on the line of which no block collection starts. -/
def markedContent? (cs : List Char) : Option Document :=
  let start : Place := ⟨startMark.length, cs, true⟩
  let next := start.skip
  if onSameLine start next ∧ ¬ next.rest.isEmpty then
    whole? (if startsFlow next then flowValue 0 (cs.length + 1) else scalar false 0) next
  else whole? (blockValue (cs.length + 1) 0) next

/-- The document that characters are up to the mark behind it. -/
def body? (isEnded : Bool) (cs : List Char) : Option Document :=
  match splitMark startMark true [] cs with
  | (_, none) => if isEnded && isBlank false cs then none else content? cs
  | (before, some rest) =>
      if isBlank false before && (splitMark startMark false [] rest).2.isNone then
        markedContent? rest
      else none

/-- The document that a text is, if it is one YAML document. -/
def document? (text : String) : Option Document :=
  let cs := match text.toList with
    | '\uFEFF' :: rest => rest
    | cs => cs
  if cs.all isAllowed then
    match splitMark endMark true [] (unifyBreaks [] cs) with
    | (body, none) => body? false body
    | (body, some rest) => if endsAll rest then body? true body else none
  else none

end PipelineArchive.Yaml
