import PipelineArchive.Container.Verification
import PipelineArchive.Text.Quoted

/-!
# Inspecting archives

The report on an archive: its directory, what its pipelines and signatures hold, and its
shaders, ended by a check of all references. The report stops where something cannot be read.
-/

set_option autoImplicit false

namespace PipelineArchive

/-- What a program leaves behind. -/
structure Report where
  exitCode : UInt8
  out : String
  err : String
  deriving DecidableEq, Repr

namespace Inspection

open Container

/-- The text of a list. -/
def listText (items : List String) : String := "[" ++ ", ".intercalate items ++ "]"

/-- The text of a list of positions. -/
def indicesText (indices : List UInt32) : String := listText (indices.map fun i => toString i.toNat)

/-- The text of an optional position. -/
def optionText : Option UInt32 → String
  | none => "None"
  | some index => s!"Some({index.toNat})"

/-- The lines on a pipeline. -/
def pipelineLine (p : Archive.PipelineView) : String :=
  let devices := Backend.all.filterMap fun b =>
    (p.device.get b).map fun d => s!"{b.tag} {indicesText d.shaders}"
  s!"    signatures {indicesText p.signatures}, render pass {optionText p.renderPass}, shaders: "
    ++ ", ".intercalate devices

/-- The line on a signature. -/
def signatureLine (s : Archive.SignatureView) : String :=
  let tags := (Backend.all.filter fun b => (s.device.get b).isSome).map Backend.tag
  "    backends: " ++ ", ".intercalate tags

/-- The lines on an entry of a chunk of names. A record that reads as a pipeline is shown as
one, whatever its chunk. -/
def entryLines (a : Archive) (kind : ChunkKind) (entry : NamedEntry) : List String :=
  let line := s!"  {Text.quoted entry.name}: {entry.size.toNat} bytes at {entry.offset.toNat}"
  match a.pipeline kind entry.name with
  | .ok pipeline => [line, pipelineLine pipeline]
  | .error _ =>
      if kind = .signatures then
        match a.signature entry.name with
        | .ok signature => [line, signatureLine signature]
        | .error _ => [line]
      else [line]

/-- The lines on a chunk. -/
def chunkLines (a : Archive) (header : ChunkHeader) : List String :=
  s!"[{header.kind.display}] {header.size.toNat} bytes at {header.offset.toNat}"
    :: (a.entries header.kind).flatMap (entryLines a header.kind)

/-- The lines on the shaders of a backend. -/
def shaderLines (b : Backend) (shaders : List Archive.ShaderView) : List String :=
  if shaders.isEmpty then []
  else
    s!"{b.display} shaders:" :: shaders.zipIdx.map fun (s, index) =>
      s!"  #{index}: {s.stage.display} '{s.entryPoint}', {s.code.length} bytes"

/-- The lines on the shaders of some backends, and the error that ends them. -/
def shadersLines (a : Archive) : List Backend → List String × Option String
  | [] => ([], none)
  | b :: rest =>
      match a.shaders b with
      | .error e => ([], some s!"Cannot read {b.display} shaders: {e.message}")
      | .ok shaders =>
          let (lines, error?) := shadersLines a rest
          (shaderLines b shaders ++ lines, error?)

/-- Lines, each ended by a line feed. -/
def linesText (lines : List String) : String := String.join (lines.map (· ++ "\n"))

/-- The lines on an archive, and the error that ends them. -/
def lines (path : String) (a : Archive) : List String × Option String :=
  let head := s!"Archive '{path}': version {a.header.version.toNat}, {a.data.length} bytes"
  let built := a.debugInfo?.toList.map fun info =>
    s!"Built by {info.builder} (format version {info.version.toNat})"
  let chunks := a.chunks.flatMap fun (header, _) => chunkLines a header
  let (shaders, error?) := shadersLines a Backend.all
  let start := head :: built ++ chunks ++ shaders
  match error?, a.verify with
  | some error, _ => (start, some error)
  | none, .error e => (start, some s!"Offset check failed: {e.message}")
  | none, .ok () => (start ++ ["All offsets are valid"], none)

/-- The report that an error leaves. -/
def failure (out message : String) : Report := ⟨1, out, s!"Error: {message}\n"⟩

/-- The report on the bytes of a file, or on the error that reading it ends with. -/
def ofFile (path : String) (content : Except String Bytes) : Report :=
  match content with
  | .error message => failure "" s!"Cannot read archive '{path}': {message}"
  | .ok data =>
      match Archive.ofBytes data with
      | .error e => failure "" s!"'{path}' is not a valid archive: {e.message}"
      | .ok archive =>
          match lines path archive with
          | (lines, some error) => failure (linesText lines) error
          | (lines, none) => ⟨0, linesText lines, ""⟩

/-- The name of the program. -/
def programName : String := "inspect_archive"

/-- The report on a call with other than one argument. -/
def usage : Report :=
  ⟨1, "", s!"Usage: {programName} <archive.bin>\n"
    ++ "Verifies a pipeline state archive and dumps its directory to stdout\n"⟩

/-- Runs the program with its arguments. -/
def run {m : Type → Type} [Monad m] (read : String → m (Except String Bytes)) :
    List String → m Report
  | [path] => do return ofFile path (← read path)
  | _ => return usage

end Inspection

end PipelineArchive
