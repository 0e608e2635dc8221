import PipelineArchive.Encoding

/-!
# Shader stages

A shader runs in one stage of a pipeline. A resource is visible to a set of stages, given as a
bit mask. A stage is encoded as the mask of the set that holds it alone.
-/

set_option autoImplicit false

namespace PipelineArchive

/-- The pipeline stage a shader runs in. -/
inductive ShaderStage where
  | vertex
  | pixel
  | geometry
  | hull
  | domain
  | compute
  | amplification
  | mesh
  | rayGen
  | rayMiss
  | rayClosestHit
  | rayAnyHit
  | rayIntersection
  | callable
  | tile
  deriving DecidableEq, Repr

namespace ShaderStage

/-- All stages in the order of their bits. -/
def all : List ShaderStage :=
  [vertex, pixel, geometry, hull, domain, compute, amplification, mesh, rayGen, rayMiss,
    rayClosestHit, rayAnyHit, rayIntersection, callable, tile]

/-- The position of the stage's bit. -/
def ordinal (s : ShaderStage) : Nat := s.ctorIdx

/-- The name shown in messages. -/
def display : ShaderStage → String
  | vertex => "vertex"
  | pixel => "pixel"
  | geometry => "geometry"
  | hull => "hull"
  | domain => "domain"
  | compute => "compute"
  | amplification => "amplification"
  | mesh => "mesh"
  | rayGen => "ray generation"
  | rayMiss => "ray miss"
  | rayClosestHit => "ray closest hit"
  | rayAnyHit => "ray any hit"
  | rayIntersection => "ray intersection"
  | callable => "callable"
  | tile => "tile"

/-- Whether the stage belongs to ray tracing pipelines. -/
def isRayTracing : ShaderStage → Bool
  | rayGen | rayMiss | rayClosestHit | rayAnyHit | rayIntersection | callable => true
  | _ => false

theorem mem_all (s : ShaderStage) : s ∈ all := by cases s <;> simp [all]

end ShaderStage

/-- A set of stages as a bit mask; bits without a stage are kept. -/
structure StageSet where
  bits : UInt32
  deriving DecidableEq, Repr

namespace StageSet

/-- The set without members. -/
def empty : StageSet := ⟨0⟩

/-- The set of one stage. -/
def singleton (s : ShaderStage) : StageSet := ⟨1 <<< UInt32.ofNat s.ordinal⟩

/-- The members of either set. -/
def union (s t : StageSet) : StageSet := ⟨s.bits ||| t.bits⟩

/-- Whether every bit of `t` is in `s`. -/
def includes (s t : StageSet) : Bool := s.bits &&& t.bits == t.bits

/-- Whether the sets share a bit. -/
def intersects (s t : StageSet) : Bool := s.bits &&& t.bits != 0

/-- Whether a stage belongs to the set. -/
def contains (s : StageSet) (stage : ShaderStage) : Bool := s.includes (singleton stage)

/-- The members in the order of their bits. -/
def toList (s : StageSet) : List ShaderStage := ShaderStage.all.filter s.contains

/-- The set of the listed stages. -/
def ofList (stages : List ShaderStage) : StageSet :=
  stages.foldl (fun s stage => s.union (singleton stage)) empty

instance : Encode StageSet := ⟨fun s => encode s.bits⟩

end StageSet

instance : Encode ShaderStage := ⟨fun s => encode (StageSet.singleton s)⟩

end PipelineArchive
