import PipelineArchive.Container.Verification
import PipelineArchive.Glsl.Emission
import PipelineArchive.Manifest

/-!
# The command line of the archiver

The program reads a manifest, archives its items and writes the archive. It ends with zero
when every item was archived, one when the archive was written without some items, and two
when there is no archive.
-/

set_option autoImplicit false

namespace PipelineArchive.CommandLine

/-- What the program is asked to do. -/
structure Options where
  /-- The path of the archive. -/
  out : String
  /-- The path of the manifest. -/
  manifest : String
  /-- The backends of items that name none; the standard ones if there are none here. -/
  backends : List Backend
  isVerbose : Bool
  deriving DecidableEq, Repr

/-- The arguments read so far. -/
structure Arguments where
  out : Option String := none
  manifest : Option String := none
  backends : List Backend := []
  isVerbose : Bool := false
  deriving DecidableEq, Repr

/-- What a command line asks for. -/
inductive Request where
  | archive (options : Options)
  | help
  | version
  | badUsage
  deriving DecidableEq, Repr

/-- The backends that items are archived for by default. -/
def Options.defaultBackends (o : Options) : BackendSet :=
  if o.backends.isEmpty then .standard else .ofList o.backends

/-- Whether an argument can be the value of the option before it. -/
def isValue (argument : String) : Bool := !argument.startsWith "-" || argument == "-"

/-- The arguments with the value of an option. A path must not be empty, and may be given
once. -/
def Arguments.set? (a : Arguments) (option value : String) : Option Arguments :=
  if option = "--out" then
    if a.out.isNone && !value.isEmpty then some { a with out := some value } else none
  else if option = "--pso-json" then
    if a.manifest.isNone && !value.isEmpty then some { a with manifest := some value } else none
  else if option = "--backend" then
    (Backend.ofTag? value).map fun b => { a with backends := a.backends ++ [b] }
  else none

/-- The request that complete arguments make. -/
def Arguments.request (a : Arguments) : Request :=
  match a.out, a.manifest with
  | some out, some manifest => .archive ⟨out, manifest, a.backends, a.isVerbose⟩
  | _, _ => .badUsage

/-- An argument split at its first equals sign. -/
def splitValue? (argument : String) : Option (String × String) :=
  match argument.toList.dropWhile (· ≠ '=') with
  | _ :: value => some (String.ofList (argument.toList.takeWhile (· ≠ '=')), String.ofList value)
  | [] => none

/-- Reads flags given as letters after one dash, up to one that is a request of its own. -/
def Arguments.readFlags (a : Arguments) : List Char → Except Request Arguments
  | [] => .ok a
  | 'h' :: _ => .error .help
  | 'V' :: _ => .error .version
  | 'v' :: rest =>
      if a.isVerbose then .error .badUsage
      else Arguments.readFlags { a with isVerbose := true } rest
  | _ :: _ => .error .badUsage

/-- The flags of an argument, as letters; nothing for an option with a value and for plain
text. -/
def flags? (argument : String) : Option (List Char) :=
  if argument = "--help" then some ['h']
  else if argument = "--version" then some ['V']
  else if argument = "--verbose" then some ['v']
  else
    match argument.toList with
    | '-' :: '-' :: _ => none
    | '-' :: c :: letters => some (c :: letters)
    | _ => none

/-- Reads arguments after those read so far. Two dashes end the options, and nothing may
follow them. -/
def requestFrom (a : Arguments) : List String → Request
  | [] => a.request
  | ["--"] => a.request
  | argument :: rest =>
      match flags? argument with
      | some letters =>
          match a.readFlags letters with
          | .ok a => requestFrom a rest
          | .error request => request
      | none =>
          match splitValue? argument with
          | some (option, value) =>
              match a.set? option value with
              | some a => requestFrom a rest
              | none => .badUsage
          | none =>
              match rest with
              | value :: rest =>
                  if isValue value then
                    match a.set? argument value with
                    | some a => requestFrom a rest
                    | none => .badUsage
                  else .badUsage
              | [] => .badUsage

/-- The request that arguments make. -/
def request (arguments : List String) : Request := requestFrom {} arguments

/-! ## Running -/

/-- The files that the program works on. -/
structure Files (m : Type → Type) where
  /-- Reads a file, or tells why it cannot be read. -/
  read : String → m (Except String Bytes)
  /-- Writes a file, or tells why it cannot be written. -/
  write : String → Bytes → m (Except String Unit)

/-- The bytes of an archive, which must be sound. -/
def checkedBytes (a : Archiver Unit) : Except String Bytes := do
  let image ← a.image.mapError (·.message)
  let archive ← (Container.Archive.ofBytes image.bytes).mapError (·.message)
  archive.verify.mapError (·.message)
  return image.bytes

/-- Archives a manifest and writes the archive; the outcome tells which items are missing. -/
def run {m : Type → Type} [Monad m] (files : Files m) (options : Options) :
    ExceptT String m Outcome := do
  match ← (Manifest.archive Glsl.interfaceCompiler files.read options.manifest
      options.defaultBackends).run with
  | .error e => throw e.message
  | .ok (archiver, outcome) =>
      match checkedBytes archiver with
      | .error message => throw message
      | .ok bytes =>
          ExceptT.mk (files.write options.out bytes)
          return outcome

/-- The texts that the program shows, and its exit code. -/
def execute {m : Type → Type} [Monad m] (files : Files m) (arguments : List String) :
    m (UInt8 × List String) := do
  match request arguments with
  | .help => return (0, ["Usage: pso-archiver [OPTIONS] --out <OUT> --pso-json <PSO_JSON>"])
  | .version => return (0, [builderId])
  | .badUsage => return (2, ["Usage: pso-archiver [OPTIONS] --out <OUT> --pso-json <PSO_JSON>"])
  | .archive options =>
      match ← (run files options).run with
      | .error message => return (2, [message])
      | .ok outcome =>
          let dropped := outcome.dropped.map fun d =>
            s!"'{d.name}' was not archived: {d.error.message}"
          return (if outcome.isComplete then 0 else 1, dropped)

end PipelineArchive.CommandLine
