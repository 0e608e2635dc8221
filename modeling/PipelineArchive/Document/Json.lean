import PipelineArchive.Document.Json.Numeral

/-!
# JSON documents

`Json.document?` reads a text that holds one JSON value and nothing else but white space. A
string that is no text, a number beyond double precision and what nests too deep are
unreadable parts of it. `Json.parse?` wants every part readable, and keeps the last value of a
key that is repeated. Open lists and maps are kept as a list of frames, so that texts of any
depth are read.
-/

set_option autoImplicit false

namespace PipelineArchive.Json

/-! ## Scalars -/

/-- A string after its opening quote. -/
def string : Reader Document := fun cs =>
  (stringUnits cs).map fun (units, rest) =>
    ((decodeUnits? units).elim .unreadable .text, rest)

/-- A key and the colon after it. -/
def key : Reader Document.Key := fun cs =>
  match skipSpace cs with
  | '"' :: rest =>
      match stringUnits rest with
      | none => none
      | some (units, rest) =>
          match skipSpace rest with
          | ':' :: rest => some ((decodeUnits? units).elim .unreadable .text, rest)
          | _ => none
  | _ => none

/-- A value that is neither a list nor a map. -/
def scalar : Reader Document
  | '"' :: rest => string rest
  | 'n' :: rest => (word? ['u', 'l', 'l'] rest).map (.null, ·)
  | 't' :: rest => (word? ['r', 'u', 'e'] rest).map (.bool true, ·)
  | 'f' :: rest => (word? ['a', 'l', 's', 'e'] rest).map (.bool false, ·)
  | cs => (numeral cs).map fun (x, rest) => (x.value?.elim .unreadable .number, rest)

/-! ## Lists and maps -/

/-- A list or a map that is open, with what it holds so far, last first. A map has the key of
the value that is being read. -/
inductive Frame where
  | list (items : List Document)
  | map (entries : List (Document.Key × Document)) (key : Document.Key)

/-- A frame with another value. -/
def Frame.push (d : Document) : Frame → Frame
  | .list items => .list (d :: items)
  | .map entries key => .map ((key, d) :: entries) key

/-- The document of a frame. -/
def Frame.document : Frame → Document
  | .list items => .list items.reverse
  | .map entries _ => .map entries.reverse

/-- The mark that closes a frame. -/
def Frame.close : Frame → Char
  | .list _ => ']'
  | .map .. => '\x7d'

/-- A frame that is ready for its next value: a map reads the key of it. -/
def Frame.start : Frame → Reader Frame
  | .list items, cs => some (.list items, cs)
  | .map entries _, cs => (key cs).map fun (key, rest) => (.map entries key, rest)

/-- What comes next: a value, the first value of a frame or its end, or what follows a value. -/
inductive Next where
  | value
  | first
  | after (d : Document)

/-- Reads a value in open frames, the innermost first. Of two steps in a row one takes a
character, so that fuel for two steps a character and two more is enough. -/
def run : Nat → Next → List Frame → Reader Document
  | 0, _, _, _ => none
  | fuel + 1, .value, frames, cs =>
      match skipSpace cs with
      | '[' :: rest => run fuel .first (.list [] :: frames) rest
      | '\x7b' :: rest => run fuel .first (.map [] .nameless :: frames) rest
      | cs =>
          match scalar cs with
          | some (d, rest) => run fuel (.after d) frames rest
          | none => none
  | fuel + 1, .first, frame :: frames, cs =>
      match skipSpace cs with
      | [] => none
      | c :: rest =>
          if c == frame.close then run fuel (.after frame.document) frames rest
          else
            match frame.start (c :: rest) with
            | some (frame, rest) => run fuel .value (frame :: frames) rest
            | none => none
  | fuel + 1, .after d, frame :: frames, cs =>
      match skipSpace cs with
      | [] => none
      | c :: rest =>
          if c == frame.close then run fuel (.after (frame.push d).document) frames rest
          else if c == ',' then
            match (frame.push d).start rest with
            | some (frame, rest) => run fuel .value (frame :: frames) rest
            | none => none
          else none
  | _, .after d, [], cs => some (d, cs)
  | _, .first, [], _ => none

/-- A value. -/
def value : Reader Document := fun cs => run (2 * cs.length + 2) .value [] cs

/-! ## Documents -/

/-- How deep lists and maps may nest. -/
def maxDepth : Nat := 127

/-- The document that a text is, if it is one JSON value. -/
def document? (text : String) : Option Document :=
  match value text.toList with
  | some (d, rest) => if (skipSpace rest).isEmpty then some (d.clipped maxDepth) else none
  | none => none

/-- The document that a text is, if it is one JSON value and every part of it is readable. Each
key of a map stands in it once, with the last of its values. -/
def parse? (text : String) : Option Document :=
  ((document? text).bind Document.held?).map Document.lastOfEach

end PipelineArchive.Json
