import PipelineArchive.Bytes
import PipelineArchive.Path

/-!
# Directories in memory

A directory with its files, on which programs can be run. Paths lead from the directory to
files and directories below it as they do on a disk, with the same errors.
-/

set_option autoImplicit false

namespace PipelineArchive

/-- The files below a directory by the parts of their paths; a directory that may be empty is
listed without content. -/
structure Directory where
  files : List (List String × Option Bytes)
  deriving DecidableEq, Repr

/-- What a path leads to. -/
inductive PathTarget where
  | directory
  | file (parts : List String) (content : Bytes)
  /-- Nothing yet, in a directory that exists. -/
  | vacant (parts : List String)
  deriving DecidableEq, Repr

/-- Why a path leads nowhere, or not to a file. -/
inductive PathFault where
  | missing
  | notDirectory
  | isDirectory
  | nul
  deriving DecidableEq, Repr

/-- The text of a fault. -/
def PathFault.message : PathFault → String
  | missing => "No such file or directory (os error 2)"
  | notDirectory => "Not a directory (os error 20)"
  | isDirectory => "Is a directory (os error 21)"
  | nul => "file name contained an unexpected NUL byte"

namespace Directory

/-- The content of a file. -/
def content? (d : Directory) (parts : List String) : Option Bytes := (d.files.lookup parts).join

/-- Whether there is a directory at the end of a path. -/
def hasDirectory (d : Directory) (parts : List String) : Bool :=
  parts.isEmpty || d.files.any fun (other, content) =>
    parts.isPrefixOf other && (parts.length < other.length || content.isNone)

/-- Whether a part of a path stays where it is. -/
def isStay (part : String) : Bool := part.isEmpty || part == "."

/-- Follows the parts of a path from a directory below; nothing is known outside. -/
def follow (d : Directory) : List String → List String → Except PathFault PathTarget
  | _, [] => .ok .directory
  | place, part :: rest =>
      if isStay part then d.follow place rest
      else if part = ".." then
        if place.isEmpty then
          if rest.all fun part => isStay part || part == ".." then .ok .directory
          else .error .missing
        else d.follow place.dropLast rest
      else
        let next := place ++ [part]
        if d.hasDirectory next then d.follow next rest
        else
          match d.content? next, rest with
          | some content, [] => .ok (.file next content)
          | some _, _ => .error .notDirectory
          | none, [] => .ok (.vacant next)
          | none, _ => .error .missing

/-- What a path leads to. -/
def find (d : Directory) (path : String) : Except PathFault PathTarget :=
  let parts := Text.splitOn '/' path.toList
  if path.isEmpty then .error .missing
  else if path.toList.contains '\x00' then .error .nul
  else if Path.isAbsolute path then
    if (Path.parts path).isEmpty then .ok .directory else .error .missing
  else d.follow [] (parts.map String.ofList)

/-- Reads a file. -/
def read (path : String) : StateM Directory (Except String Bytes) := fun d =>
  match d.find path with
  | .ok (.file _ content) => (.ok content, d)
  | .ok .directory => (.error PathFault.isDirectory.message, d)
  | .ok (.vacant _) => (.error PathFault.missing.message, d)
  | .error fault => (.error fault.message, d)

/-- A directory with a file in place of any at its path. -/
def insert (d : Directory) (parts : List String) (content : Bytes) : Directory :=
  ⟨(parts, some content) :: d.files.filter fun (other, _) => other != parts⟩

/-- Writes a file, in place of any at its path. -/
def write (path : String) (bytes : Bytes) : StateM Directory (Except String Unit) := fun d =>
  match d.find path with
  | .ok (.file parts _) | .ok (.vacant parts) => (.ok (), d.insert parts bytes)
  | .ok .directory => (.error PathFault.isDirectory.message, d)
  | .error fault => (.error fault.message, d)

end Directory

end PipelineArchive
