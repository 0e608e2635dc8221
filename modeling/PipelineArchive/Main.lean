import PipelineArchive.CommandLine
import PipelineArchive.Inspection

/-!
# Programs

The archiver, and the inspection of archives when the program is called by that name.
-/

set_option autoImplicit false

namespace PipelineArchive

/-- The text of an error of the operating system. -/
def systemMessage : IO.Error → String
  | .noFileOrDirectory .. => "No such file or directory (os error 2)"
  | .permissionDenied .. => "Permission denied (os error 13)"
  | .inappropriateType .. => "Is a directory (os error 21)"
  | error => toString error

/-- Reads a file. -/
def readFile (path : String) : IO (Except String Bytes) := do
  try return .ok (← IO.FS.readBinFile path).data.toList
  catch error => return .error (systemMessage error)

/-- Writes a file. -/
def writeFile (path : String) (bytes : Bytes) : IO (Except String Unit) := do
  try
    IO.FS.writeBinFile path ⟨bytes.toArray⟩
    return .ok ()
  catch error => return .error (systemMessage error)

end PipelineArchive

open PipelineArchive in
/-- Runs the program that the executable is named for. -/
def main (arguments : List String) : IO UInt32 := do
  if Path.fileName? (toString (← IO.appPath)) == some Inspection.programName then
    let report ← Inspection.run readFile arguments
    IO.print report.out
    IO.eprint report.err
    return report.exitCode.toUInt32
  else
    let (code, texts) ← CommandLine.execute ⟨readFile, writeFile⟩ arguments
    for text in texts do IO.eprintln text
    return code.toUInt32
