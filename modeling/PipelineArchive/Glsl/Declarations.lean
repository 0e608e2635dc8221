import PipelineArchive.Glsl.Basic
import PipelineArchive.Glsl.Names
import PipelineArchive.Glsl.Token

/-!
# Declarations of a shader

The global declarations of a GLSL text and what they say about its resources and attributes.
Statements are not understood, save that every function they call must be known. A text
without an entry point is refused, and so is a vertex shader that sets no position.
-/

set_option autoImplicit false

namespace PipelineArchive.Glsl

/-- A global declaration: the tokens before its braces, those inside if there are braces, and
those after. -/
structure GlobalItem where
  head : List Token
  body : Option (List Token)
  tail : List Token
  deriving DecidableEq, Repr

/-- The part of a declaration that is being read. Tokens are kept last one first; a body is
kept with the number of braces that are open. -/
inductive ItemPlace where
  | head (tokens : List Token)
  | body (head tokens : List Token) (depth : Nat)
  | tail (head body tokens : List Token)
  deriving Repr

/-- Whether the tokens before a body belong to a function: they end with its parameters. -/
def endsParameters (reversed : List Token) : Bool := reversed.head? == some (.symbol ')')

/-- The declarations of a row of tokens; a declaration must be finished. -/
def itemsFrom : ItemPlace → List Token → Option (List GlobalItem)
  | .head [], [] => some []
  | _, [] => none
  | .head head, t :: rest =>
      if t = .symbol ';' then
        (itemsFrom (.head []) rest).map (⟨head.reverse, none, []⟩ :: ·)
      else if t = .symbol '{' then itemsFrom (.body head [] 0) rest
      else itemsFrom (.head (t :: head)) rest
  | .body head body depth, t :: rest =>
      if t = .symbol '{' then itemsFrom (.body head (t :: body) (depth + 1)) rest
      else if t = .symbol '}' then
        match depth with
        | depth + 1 => itemsFrom (.body head (t :: body) depth) rest
        | 0 =>
            if endsParameters head then
              (itemsFrom (.head []) rest).map (⟨head.reverse, some body.reverse, []⟩ :: ·)
            else itemsFrom (.tail head body []) rest
      else itemsFrom (.body head (t :: body) depth) rest
  | .tail head body tail, t :: rest =>
      if t = .symbol ';' then
        (itemsFrom (.head []) rest).map (⟨head.reverse, some body.reverse, tail.reverse⟩ :: ·)
      else itemsFrom (.tail head body (t :: tail)) rest

namespace GlobalItem

/-- The qualifiers of a layout and the tokens after it. -/
def splitLayout : List Token → List Token × List Token
  | .word "layout" :: .symbol '(' :: rest =>
      (rest.takeWhile (· ≠ .symbol ')'), (rest.dropWhile (· ≠ .symbol ')')).drop 1)
  | tokens => ([], tokens)

/-- The number that a qualifier has. -/
def qualifier? (name : String) : List Token → Option UInt32
  | .word key :: .symbol '=' :: .word value :: rest =>
      if key = name then decimalU32? value.toList else qualifier? name rest
  | _ :: rest => qualifier? name rest
  | [] => none

/-- The qualifiers of the layout of a declaration. -/
def layout (i : GlobalItem) : List Token := (splitLayout i.head).1

/-- The words before the braces that are not part of the layout. -/
def words (i : GlobalItem) : List String :=
  (splitLayout i.head).2.filterMap fun
    | .word w => some w
    | .symbol _ => none

/-- The name of the function that a declaration with a body defines. -/
def functionName? (i : GlobalItem) : Option String :=
  if i.body.isSome && endsParameters i.head.reverse then
    let before := (splitLayout i.head).2.takeWhile (· ≠ .symbol '(')
    match before.getLast? with
    | some (.word w) => some w
    | _ => none
  else none

/-- The resource type of a variable of an opaque type. -/
def opaqueType? (type : String) : Option ResourceType :=
  let base := if type.startsWith "i" && !type.startsWith "image" || type.startsWith "u"
    then (type.drop 1).toString else type
  if base.startsWith "texture" then some .textureSrv
  else if base.startsWith "image" then some .textureUav
  else if base = "sampler" || base = "samplerShadow" then some .sampler
  else none

/-- The resource that a declaration declares. -/
def boundVariable? (i : GlobalItem) : Option Variable :=
  let typed? : Option (ResourceType × String) :=
    match i.words.getLast? with
    | none => none
    | some name =>
        if i.words.contains "uniform" then
          if i.body.isSome then some (.constantBuffer, name)
          else
            ((i.words.filter fun w => w != "uniform").dropLast.getLast?.bind opaqueType?).map
              fun type => (type, name)
        else if i.words.contains "buffer" && i.body.isSome then
          some (if i.words.contains "readonly" then .bufferSrv else .bufferUav, name)
        else none
  typed?.map fun (resourceType, name) => {
    name
    resourceType
    set := (qualifier? "set" i.layout).getD 0
    binding := (qualifier? "binding" i.layout).getD 0 }

/-- The attribute that a declaration declares. -/
def input? (i : GlobalItem) : Option VertexInput :=
  if i.words.contains "in" && i.body.isNone then
    match i.words.getLast?, qualifier? "location" i.layout with
    | some name, some location => some ⟨name, none, location⟩
    | _, _ => none
  else none

end GlobalItem

/-- The words that a parenthesis follows. -/
def calledWords : List Token → List String
  | .word w :: .symbol '(' :: rest => w :: calledWords rest
  | _ :: rest => calledWords rest
  | [] => []

/-- The structures that declarations define. -/
def structNames (items : List GlobalItem) : List String :=
  items.filterMap fun i =>
    match i.head with
    | [.word "struct", .word name] => some name
    | _ => none

/-- Whether a vertex shader gives the position of its vertex, by its own text or a macro. -/
def setsPosition (macros : List ShaderMacro) (text : String) : Bool :=
  (text :: macros.map (·.definition)).any fun text => mentions text "gl_Position"

/-- Reads what a shader declares. -/
def parse (stage : Stage) (macros : List ShaderMacro) (text : String) :
    Except String Interface := do
  let some items := itemsFrom (.head []) (tokens text)
    | throw "error: unexpected end of file"
  let functions := items.filterMap GlobalItem.functionName?
  unless functions.contains "main" do throw "error: no entry point"
  let known := functions ++ structNames items ++ macros.map (·.name)
  let called := items.flatMap fun i =>
    if (GlobalItem.functionName? i).isSome then calledWords (i.body.getD []) else []
  if let some name := called.find? fun w => !isKnownCallable w && !known.contains w then
    throw s!"error: unknown function '{name}'"
  unless stage ≠ .vertex || setsPosition macros text do throw "error: no position"
  return {
    stage
    resources := items.filterMap GlobalItem.boundVariable?
    inputs := if stage = .vertex then items.filterMap GlobalItem.input? else [] }

end PipelineArchive.Glsl
