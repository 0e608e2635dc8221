import PipelineArchive.Compiled

/-!
# The cache of compiled shaders

A shader that several pipelines use is compiled once for each backend. Shaders are known by
their keys, so that the debug name makes no difference.
-/

set_option autoImplicit false

namespace PipelineArchive

/-- Compiled shaders by backend and key. -/
structure TranscodeCache where
  shaders : List ((Backend × Bytes) × CompiledShader)
  deriving DecidableEq, Repr

namespace TranscodeCache

/-- The cache without shaders. -/
def empty : TranscodeCache := ⟨[]⟩

/-- The compiled shader of a key. -/
def get? (c : TranscodeCache) (b : Backend) (key : Bytes) : Option CompiledShader :=
  c.shaders.lookup (b, key)

/-- A cache with a compiled shader. -/
def insert (c : TranscodeCache) (b : Backend) (key : Bytes) (compiled : CompiledShader) :
    TranscodeCache :=
  ⟨((b, key), compiled) :: c.shaders⟩

/-- A cache with the shaders of another one. -/
def append (c new : TranscodeCache) : TranscodeCache := ⟨new.shaders ++ c.shaders⟩

end TranscodeCache

end PipelineArchive
