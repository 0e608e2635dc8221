import PipelineArchive.Bytes

/-!
# Stores of shaders

The shaders of one backend, each stored once. A pipeline refers to a shader by its position,
and the store finds the position of a shader by its content. `compact` drops the shaders that
are not kept and tells where the others have gone.
-/

set_option autoImplicit false

namespace PipelineArchive

/-- The shaders of one backend in archive order, and the position of each by its content. -/
structure ShaderStore where
  shaders : List Bytes
  positions : List (Bytes × Nat)
  deriving DecidableEq, Repr

namespace ShaderStore

/-- The store without shaders. -/
def empty : ShaderStore := ⟨[], []⟩

/-- The number of shaders. -/
def size (s : ShaderStore) : Nat := s.shaders.length

/-- The shader at a position. -/
def get? (s : ShaderStore) (index : Nat) : Option Bytes := s.shaders[index]?

/-- The position of a shader. -/
def position? (s : ShaderStore) (shader : Bytes) : Option Nat := s.positions.lookup shader

/-- The position of a shader, which is put at the end if it is not there. -/
def intern (s : ShaderStore) (shader : Bytes) : Nat × ShaderStore :=
  match s.position? shader with
  | some index => (index, s)
  | none => (s.size, ⟨s.shaders ++ [shader], (shader, s.size) :: s.positions⟩)

/-- The positions of several shaders. -/
def internAll (s : ShaderStore) : List Bytes → List Nat × ShaderStore
  | [] => ([], s)
  | shader :: rest =>
      let (index, s) := s.intern shader
      let (indices, s) := s.internAll rest
      (index :: indices, s)

/-- Where each position of a store has gone; a shader that was dropped has no place. -/
abbrev Moves : Type := List (Option Nat)

/-- The place that a position has moved to; one without a place stays as it is. -/
def Moves.follow (moves : Moves) (index : Nat) : Nat := (moves[index]?.join).getD index

/-- Interns the shaders whose positions are kept, the first one standing at `index`. -/
def compactFrom (isKept : Nat → Bool) :
    Nat → List Bytes → ShaderStore → Moves × ShaderStore
  | _, [], kept => ([], kept)
  | index, shader :: rest, kept =>
      if isKept index then
        let (place, kept) := kept.intern shader
        let (moves, kept) := compactFrom isKept (index + 1) rest kept
        (some place :: moves, kept)
      else
        let (moves, kept) := compactFrom isKept (index + 1) rest kept
        (none :: moves, kept)

/-- The store of the shaders whose positions are kept, in the order they had, and where each
position has gone. -/
def compact (s : ShaderStore) (isKept : Nat → Bool) : Moves × ShaderStore :=
  compactFrom isKept 0 s.shaders .empty

end ShaderStore

end PipelineArchive
