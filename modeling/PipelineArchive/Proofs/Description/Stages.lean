import PipelineArchive.Description.Stage
import PipelineArchive.Proofs.Masks

/-!
# Sets of stages

A set of stages is a bit mask. Membership of a stage is one bit of it (`contains_eq_getLsbD`),
which gives the members of unions, and says when a set shares a bit with a single stage. Unions may
be taken in any order (`union_right_comm`).
-/

set_option autoImplicit false

namespace PipelineArchive

theorem ShaderStage.ordinal_injective {s t : ShaderStage} (h : s.ordinal = t.ordinal) : s = t := by
  cases s <;> cases t <;> first | rfl | cases h

theorem ShaderStage.ordinal_lt (s : ShaderStage) : s.ordinal < 32 := by
  cases s <;> decide

namespace StageSet

theorem singleton_toBitVec (stage : ShaderStage) :
    (singleton stage).bits.toBitVec = BitVec.twoPow 32 stage.ordinal := by
  cases stage <;> decide

theorem singleton_ne_zero (stage : ShaderStage) : (singleton stage).bits ≠ 0 := by
  cases stage <;> decide

/-- A stage is in a set if its bit is. -/
theorem contains_eq_getLsbD (s : StageSet) (stage : ShaderStage) :
    s.contains stage = s.bits.toBitVec.getLsbD stage.ordinal := by
  unfold contains includes
  rw [and_bit (singleton_toBitVec stage)]
  cases hbit : s.bits.toBitVec.getLsbD stage.ordinal
  · simp [(singleton_ne_zero stage).symm]
  · simp

/-- A set shares a bit with a single stage if the stage is in it. -/
theorem intersects_singleton (s : StageSet) (stage : ShaderStage) :
    s.intersects (singleton stage) = s.contains stage := by
  rw [contains_eq_getLsbD]
  unfold intersects
  rw [and_bit (singleton_toBitVec stage)]
  cases hbit : s.bits.toBitVec.getLsbD stage.ordinal
  · simp
  · simp [singleton_ne_zero]

/-- Sets share a bit whichever is named first. -/
theorem intersects_comm (s t : StageSet) : s.intersects t = t.intersects s := by
  rw [intersects, intersects, UInt32.and_comm]

theorem contains_singleton {s t : ShaderStage} : (singleton s).contains t ↔ t = s := by
  rw [contains_eq_getLsbD, singleton_toBitVec, BitVec.getLsbD_twoPow]
  simp only [Bool.and_eq_true, decide_eq_true_eq]
  constructor
  · rintro ⟨-, h⟩
    exact (ShaderStage.ordinal_injective h).symm
  · rintro rfl
    exact ⟨ShaderStage.ordinal_lt t, rfl⟩

theorem contains_union (s t : StageSet) (stage : ShaderStage) :
    (s.union t).contains stage = (s.contains stage || t.contains stage) := by
  rw [contains_eq_getLsbD, contains_eq_getLsbD, contains_eq_getLsbD]
  exact BitVec.getLsbD_or

theorem empty_union (s : StageSet) : empty.union s = s := by
  simp [union, empty]

/-- Stages that are added one after another may be added in either order. -/
theorem union_right_comm (s t u : StageSet) : (s.union t).union u = (s.union u).union t := by
  simp only [union]
  rw [UInt32.or_assoc, UInt32.or_comm t.bits, ← UInt32.or_assoc]

end StageSet

end PipelineArchive
