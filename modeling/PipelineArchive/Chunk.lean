import PipelineArchive.Encoding

/-!
# Kinds of chunks

An archive consists of chunks, at most one of each kind. All kinds but the debug
information and the shader tables hold named records.
-/

set_option autoImplicit false

namespace PipelineArchive

/-- The kind of a chunk. -/
inductive ChunkKind where
  | debugInfo
  | signatures
  | graphicsPipelines
  | computePipelines
  | rayTracingPipelines
  | tilePipelines
  | renderPasses
  | shaders
  deriving DecidableEq, Repr

namespace ChunkKind

/-- All kinds in the order of their ordinals. -/
def all : List ChunkKind :=
  [debugInfo, signatures, graphicsPipelines, computePipelines, rayTracingPipelines,
    tilePipelines, renderPasses, shaders]

/-- The stable number of a kind. -/
def ordinal (k : ChunkKind) : Nat := k.ctorIdx

/-- The kind with a given number, if there is one. -/
def ofOrdinal? (n : Nat) : Option ChunkKind := all[n]?

/-- The name of a record of the kind, or of the chunk where it holds no named records. -/
def display : ChunkKind → String
  | debugInfo => "archive debug info"
  | signatures => "resource signature"
  | graphicsPipelines => "graphics pipeline"
  | computePipelines => "compute pipeline"
  | rayTracingPipelines => "ray tracing pipeline"
  | tilePipelines => "tile pipeline"
  | renderPasses => "render pass"
  | shaders => "shaders"

/-- Whether the chunk holds named records. -/
def isNamed (k : ChunkKind) : Bool := k != debugInfo && k != shaders

/-- Whether the chunk holds pipelines. -/
def isPipeline (k : ChunkKind) : Bool := k.isNamed && k != signatures && k != renderPasses

instance : Encode ChunkKind := ⟨fun k => Bytes.ofU32 (UInt32.ofNat k.ordinal)⟩

theorem mem_all (k : ChunkKind) : k ∈ all := by cases k <;> simp [all]

theorem ordinal_injective {k l : ChunkKind} (h : k.ordinal = l.ordinal) : k = l := by
  cases k <;> cases l <;> first | rfl | exact absurd h (by decide)

end ChunkKind

end PipelineArchive
