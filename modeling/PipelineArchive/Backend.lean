import PipelineArchive.Encoding

/-!
# Backends

An archive carries data for seven graphics backends. Their ordinals are written into the
archive. `BackendSet` is a set of backends as a bit mask, and `PerBackend α` holds one value
for every backend.
-/

set_option autoImplicit false

namespace PipelineArchive

/-- A graphics interface with a native shader format and a binding model of its own. -/
inductive Backend where
  | d3d11
  | d3d12
  | gl
  | gles
  | vulkan
  | metalMacos
  | metalIos
  deriving DecidableEq, Repr

namespace Backend

/-- All backends in the order of their ordinals. -/
def all : List Backend := [d3d11, d3d12, gl, gles, vulkan, metalMacos, metalIos]

/-- The stable number of a backend. -/
def ordinal (b : Backend) : Nat := b.ctorIdx

/-- The backend with a given number, if there is one. -/
def ofOrdinal? (n : Nat) : Option Backend := all[n]?

/-- The lower-case name used on the command line. -/
def tag : Backend → String
  | d3d11 => "d3d11"
  | d3d12 => "d3d12"
  | gl => "gl"
  | gles => "gles"
  | vulkan => "vulkan"
  | metalMacos => "metal_macos"
  | metalIos => "metal_ios"

/-- The name shown in messages. -/
def display : Backend → String
  | d3d11 => "Direct3D11"
  | d3d12 => "Direct3D12"
  | gl => "OpenGL"
  | gles => "OpenGLES"
  | vulkan => "Vulkan"
  | metalMacos => "Metal (macOS)"
  | metalIos => "Metal (iOS)"

/-- Whether a backend takes GLSL source. -/
def isGl (b : Backend) : Bool := b == gl || b == gles

/-- Whether a backend takes Metal source. -/
def isMetal (b : Backend) : Bool := b == metalMacos || b == metalIos

/-- The backend that a tag names, in any mix of ASCII cases. -/
def ofTag? (s : String) : Option Backend :=
  let lowered := String.ofList (s.toList.map Char.toLower)
  all.find? fun b => b.tag == lowered

/-- The text of the refusal of an unknown tag. -/
def unknownTagMessage (s : String) : String :=
  s!"unknown backend '{s}' (expected one of d3d11, d3d12, gl, gles, vulkan, metal_macos, metal_ios)"

instance : Encode Backend := ⟨fun b => Bytes.ofU32 (UInt32.ofNat b.ordinal)⟩

theorem mem_all (b : Backend) : b ∈ all := by cases b <;> simp [all]

end Backend

/-! ## Sets of backends -/

/-- A set of backends as a bit mask; bits without a backend are kept. -/
structure BackendSet where
  bits : UInt32
  deriving DecidableEq, Repr

namespace BackendSet

/-- The set without members. -/
def empty : BackendSet := ⟨0⟩

/-- The set of one backend. -/
def singleton (b : Backend) : BackendSet := ⟨1 <<< UInt32.ofNat b.ordinal⟩

/-- The members of either set. -/
def union (s t : BackendSet) : BackendSet := ⟨s.bits ||| t.bits⟩

/-- Whether every bit of `t` is in `s`. -/
def includes (s t : BackendSet) : Bool := s.bits &&& t.bits == t.bits

/-- Whether a backend belongs to the set. -/
def contains (s : BackendSet) (b : Backend) : Bool := s.includes (singleton b)

/-- Whether the mask has no bit at all. -/
def isEmpty (s : BackendSet) : Bool := s.bits == 0

/-- The members in the order of their ordinals. -/
def toList (s : BackendSet) : List Backend := Backend.all.filter s.contains

/-- The set of the listed backends. -/
def ofList (bs : List Backend) : BackendSet :=
  bs.foldl (fun s b => s.union (singleton b)) empty

/-- The backends that shaders can be compiled for without further compilers. -/
def standard : BackendSet :=
  ofList [.vulkan, .gl, .gles, .metalMacos, .metalIos]

end BackendSet

/-! ## One value for every backend -/

/-- A value for every backend. -/
structure PerBackend (α : Type) where
  d3d11 : α
  d3d12 : α
  gl : α
  gles : α
  vulkan : α
  metalMacos : α
  metalIos : α
  deriving DecidableEq, Repr

namespace PerBackend

variable {α β : Type}

/-- The value of one backend. -/
def get (p : PerBackend α) : Backend → α
  | .d3d11 => p.d3d11
  | .d3d12 => p.d3d12
  | .gl => p.gl
  | .gles => p.gles
  | .vulkan => p.vulkan
  | .metalMacos => p.metalMacos
  | .metalIos => p.metalIos

/-- The values that a function gives to the backends. -/
def ofFn (f : Backend → α) : PerBackend α :=
  ⟨f .d3d11, f .d3d12, f .gl, f .gles, f .vulkan, f .metalMacos, f .metalIos⟩

/-- The values that a function gives to the backends one after another. -/
def ofFnM {m : Type → Type} [Monad m] (f : Backend → m α) : m (PerBackend α) := do
  return ⟨← f .d3d11, ← f .d3d12, ← f .gl, ← f .gles, ← f .vulkan, ← f .metalMacos, ← f .metalIos⟩

/-- The same value for every backend. -/
def replicate (value : α) : PerBackend α := ofFn fun _ => value

/-- The values of every backend after a function. -/
def map (f : α → β) (p : PerBackend α) : PerBackend β := ofFn fun b => f (p.get b)

/-- The values with that of one backend replaced. -/
def set (p : PerBackend α) (b : Backend) (value : α) : PerBackend α :=
  ofFn fun other => if other = b then value else p.get other

/-- The values in the order of the backends' ordinals. -/
def toList (p : PerBackend α) : List α := Backend.all.map p.get

@[simp] theorem get_ofFn (f : Backend → α) (b : Backend) : (ofFn f).get b = f b := by
  cases b <;> rfl

@[simp] theorem get_replicate (value : α) (b : Backend) : (replicate value).get b = value :=
  get_ofFn _ b

@[simp] theorem get_map (f : α → β) (p : PerBackend α) (b : Backend) :
    (p.map f).get b = f (p.get b) := get_ofFn _ b

@[simp] theorem get_set (p : PerBackend α) (b other : Backend) (value : α) :
    (p.set b value).get other = if other = b then value else p.get other := get_ofFn _ other

/-- Two families agree where they agree on every backend. -/
theorem ext_get {p q : PerBackend α} (h : ∀ b, p.get b = q.get b) : p = q := by
  cases p
  cases q
  have h0 := h .d3d11
  have h1 := h .d3d12
  have h2 := h .gl
  have h3 := h .gles
  have h4 := h .vulkan
  have h5 := h .metalMacos
  have h6 := h .metalIos
  simp_all [get]

/-- The backends whose optional value is present. -/
def present (p : PerBackend (Option α)) : BackendSet :=
  .ofList (Backend.all.filter fun b => (p.get b).isSome)

end PerBackend

end PipelineArchive
