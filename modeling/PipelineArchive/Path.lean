import PipelineArchive.Text.Blank

/-!
# Paths

A path is a text whose parts are separated by slashes. Empty parts and parts of one dot count
for nothing, save that a path may start at the root.
-/

set_option autoImplicit false

namespace PipelineArchive.Path

/-- Whether a path starts at the root. -/
def isAbsolute (path : String) : Bool := path.toList.head? == some '/'

/-- The parts of a path that count. -/
def parts (path : String) : List String :=
  ((Text.splitOn '/' path.toList).filter fun part => !part.isEmpty && part != ['.']).map
    String.ofList

/-- The last part of a path, unless it leads upward. -/
def fileName? (path : String) : Option String :=
  (parts path).getLast?.filter fun part => part != ".."

/-- What follows the last dot of a file name; a dot at its start does not count. -/
def extension? (path : String) : Option String :=
  match fileName? path with
  | none => none
  | some name =>
      let reversed := name.toList.reverse
      match reversed.dropWhile (· ≠ '.') with
      | [] | [_] => none
      | _ => some (String.ofList (reversed.takeWhile (· ≠ '.')).reverse)

/-- The path without its last part; a path without parts is in the current directory. -/
def directory (path : String) : String :=
  match parts path with
  | [] => if isAbsolute path then "/" else "."
  | parts => (if isAbsolute path then "/" else "") ++ "/".intercalate parts.dropLast

/-- The path of a file in a directory; an absolute path stays as it is. -/
def join (directory file : String) : String :=
  if isAbsolute file || directory.isEmpty then file
  else if directory.toList.getLast? == some '/' then directory ++ file
  else directory ++ "/" ++ file

end PipelineArchive.Path
