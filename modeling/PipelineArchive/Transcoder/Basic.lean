import PipelineArchive.Compiled
import PipelineArchive.Config
import PipelineArchive.Error

/-!
# Transcoders and their registry

A transcoder turns a shader into the native code of a backend. What it does may depend on a
state of its own, which every call hands on. The registry knows one transcoder for each route,
a pair of a backend and an input language.
-/

set_option autoImplicit false

namespace PipelineArchive

/-- What a transcoder declares about itself. -/
structure Capabilities where
  /-- Several calls may run at once. -/
  isReentrant : Bool := true
  /-- SPIR-V made from HLSL has been legalized. -/
  legalizesSpirv : Bool := false
  deriving DecidableEq, Repr

/-- Native code as a transcoder gives it; the reflection may be left to a second call. -/
structure Transcoded where
  code : Bytes
  entryPoint : String
  reflection : Option Reflection
  deriving DecidableEq, Repr

/-- A compiler for one backend with a state of type `σ`. A failure is the compiler's text. -/
structure Transcoder (σ : Type) where
  capabilities : Capabilities
  /-- Compiles a shader. -/
  compile : Backend → Config → Shader → σ → Except String Transcoded × σ
  /-- Tells what native code declares. -/
  reflect : Bytes → ShaderStage → σ → Except String Reflection × σ

namespace Transcoder

variable {σ : Type}

/-- A transcoder that keeps no state. -/
def stateless (compile : Backend → Config → Shader → Except String Transcoded)
    (reflect : Bytes → ShaderStage → Except String Reflection) : Transcoder σ where
  capabilities := {}
  compile := fun backend config shader state => (compile backend config shader, state)
  reflect := fun code stage state => (reflect code stage, state)

/-- Compiles a shader, and asks for its reflection if the compiler gave none. -/
def run (t : Transcoder σ) (backend : Backend) (config : Config) (shader : Shader) (state : σ) :
    Except String (Bytes × String × Reflection) × σ :=
  match t.compile backend config shader state with
  | (.error message, state) => (.error message, state)
  | (.ok transcoded, state) =>
      match transcoded.reflection with
      | some reflection => (.ok (transcoded.code, transcoded.entryPoint, reflection), state)
      | none =>
          match t.reflect transcoded.code shader.stage state with
          | (.error message, state) => (.error message, state)
          | (.ok reflection, state) =>
              (.ok (transcoded.code, transcoded.entryPoint, reflection), state)

end Transcoder

/-! ## Routes -/

/-- A backend and the language of its input. -/
abbrev Route : Type := Backend × InputLanguage

namespace Route

/-- Whether a backend takes shaders in a language: Vulkan takes every language, Direct3D only
HLSL, and the others all but SPIR-V. -/
def isAccepted (route : Route) : Bool :=
  match route.1 with
  | .vulkan => true
  | .d3d11 | .d3d12 => route.2 == .hlsl
  | .gl | .gles | .metalMacos | .metalIos => route.2 != .spirv

/-- All routes in order. -/
def all : List Route := Backend.all.flatMap fun b => InputLanguage.all.map fun l => (b, l)

/-- The name of a backend in descriptions of routes. -/
def backendName : Backend → String
  | .d3d11 => "D3D11"
  | .d3d12 => "D3D12"
  | .gl => "Gl"
  | .gles => "Gles"
  | .vulkan => "Vulkan"
  | .metalMacos => "MetalMacos"
  | .metalIos => "MetalIos"

/-- The name of a language in descriptions of routes. -/
def languageName : InputLanguage → String
  | .hlsl => "Hlsl"
  | .glsl => "Glsl"
  | .glslVerbatim => "GlslVerbatim"
  | .spirv => "Spirv"

/-- The text of a route. -/
def describe (route : Route) : String := s!"({backendName route.1}, {languageName route.2})"

end Route

/-- The transcoders by route. -/
structure Registry (σ : Type) where
  routes : List (Route × Transcoder σ)

namespace Registry

variable {σ : Type}

/-- The registry without transcoders. -/
def empty : Registry σ := ⟨[]⟩

/-- The transcoder of a route. -/
def find? (r : Registry σ) (route : Route) : Option (Transcoder σ) := r.routes.lookup route

/-- Whether a route has a transcoder. -/
def supports (r : Registry σ) (route : Route) : Bool := (r.find? route).isSome

/-- A registry with a transcoder for a route, in place of any other. -/
def insert (r : Registry σ) (route : Route) (t : Transcoder σ) : Registry σ :=
  ⟨(route, t) :: r.routes.filter fun (other, _) => other != route⟩

/-- A registry with a transcoder for a route that the backend accepts. -/
def register (r : Registry σ) (route : Route) (t : Transcoder σ) :
    Except ArchiveError (Registry σ) :=
  if route.isAccepted then .ok (r.insert route t)
  else .error (.unsupportedInput route.1 route.2)

/-- The text of a registry: its routes in order. -/
def describe (r : Registry σ) : String :=
  let routes := (Route.all.filter r.supports).map Route.describe
  "TranscoderRegistry \x7b routes: [" ++ ", ".intercalate routes ++ "] \x7d"

end Registry

end PipelineArchive
