import Mathlib.Data.List.Forall2
import Mathlib.Data.List.Nodup
import PipelineArchive.Proofs.Results
import PipelineArchive.Spirv.Interface

/-!
# Literals of decorations

The words that hold the literals of decorations are read as nothing else. Where only such words
differ, a module is split at the same places, and its instructions are the same or decorations
that say the same of the same identifier (`exists_parse_of_kept`). Names, types, constants,
variables and semantics of modules that are alike so are the same, and whatever is made of them;
the literals themselves are seen by `decorationValue?` alone. In a module that was read every
literal belongs to one decoration (`literalsApart_parse`).
-/

set_option autoImplicit false

namespace PipelineArchive.Spirv

open Results

/-! ## Instructions -/

namespace Instruction

/-- The position of the literal of the decoration that an instruction adds. -/
def literal? (i : Instruction) : Option Nat := i.decoration?.bind (·.literal)

theorem literal?_eq_some {i : Instruction} {p : Nat} (h : i.literal? = some p) :
    i.opcode = Op.decorate ∧ p = i.offset + 3 ∧ 2 < i.operands.length := by
  unfold literal? decoration? at h
  split at h
  · rename_i target decoration literals hoperands
    split at h
    · rename_i hopcode
      cases literals with
      | nil => cases h
      | cons literal rest =>
        cases h
        exact ⟨hopcode, rfl, by simp [hoperands]⟩
    · cases h
  · cases h

/-- Instructions that say the same: they are the same, or decorations that differ in their
literals only. -/
def Alike (i j : Instruction) : Prop :=
  i = j ∨ i.opcode = Op.decorate ∧ j.opcode = Op.decorate ∧ i.decoration? = j.decoration?

theorem Alike.decoration?_eq {i j : Instruction} (h : Alike i j) :
    i.decoration? = j.decoration? := by
  rcases h with rfl | ⟨-, -, h⟩
  · rfl
  · exact h

/-- What no decoration has is the same for instructions that say the same. -/
theorem Alike.eq_of_none {β : Type} {f : Instruction → Option β}
    (hf : ∀ i : Instruction, i.opcode = Op.decorate → f i = none) {i j : Instruction}
    (h : Alike i j) : f i = f j := by
  rcases h with rfl | ⟨hi, hj, -⟩
  · rfl
  · rw [hf i hi, hf j hj]

/-- Decorations are the same if their targets and kinds are, and both have literals or none. -/
theorem decoration?_congr {offset opcode : Nat} {xs ys : List UInt32}
    (hlength : ys.length = xs.length) (htarget : ys[0]? = xs[0]?) (hkind : ys[1]? = xs[1]?) :
    (Instruction.mk offset opcode xs).decoration? =
      (Instruction.mk offset opcode ys).decoration? := by
  match xs, ys with
  | [], [] => rfl
  | [_], [_] => rfl
  | x :: x' :: xs, y :: y' :: ys =>
    obtain rfl : y = x := Option.some.inj htarget
    obtain rfl : y' = x' := Option.some.inj hkind
    have hempty : xs.isEmpty = ys.isEmpty := by
      cases xs <;> cases ys <;> simp_all
    simp only [decoration?, hempty]

end Instruction

open Instruction

theorem instruction?_eq_some {offset : Nat} {word : UInt32} {rest : List UInt32} {i : Instruction}
    (h : instruction? offset word rest = some i) :
    i.offset = offset ∧ i.operands.length = lengthOf word - 1 ∧
      i.operands.length ≤ rest.length := by
  unfold instruction? at h
  simp only at h
  split at h
  · cases h
  · rename_i hfits
    cases h
    simp only [List.length_take, not_or] at hfits
    refine ⟨rfl, ?_, ?_⟩ <;> simp only [List.length_take] <;> omega

/-- Behind a first word that is kept, only a literal can change, and the instruction says the
same. -/
theorem exists_instruction? {offset : Nat} {word : UInt32} {rest rest' : List UInt32}
    {i : Instruction} (h : instruction? offset word rest = some i)
    (hlength : rest'.length = rest.length)
    (hkept : ∀ k, k < i.operands.length → i.literal? ≠ some (offset + 1 + k) →
      rest'[k]? = rest[k]?) :
    ∃ j, instruction? offset word rest' = some j ∧ Alike i j := by
  obtain ⟨-, hcount, hfits⟩ := instruction?_eq_some h
  unfold instruction? at h
  simp only at h
  split at h
  · cases h
  · rename_i hok
    cases h
    refine ⟨⟨offset, opcodeOf word, rest'.take (lengthOf word - 1)⟩, ?_, ?_⟩
    · rw [instruction?, List.length_take, hlength, if_neg]
      rwa [List.length_take] at hok
    · -- operands that are no literals are the same
      have hoperand (k : Nat) (hliteral : (Instruction.mk offset (opcodeOf word)
          (rest.take (lengthOf word - 1))).literal? ≠ some (offset + 1 + k)) :
          (rest'.take (lengthOf word - 1))[k]? = (rest.take (lengthOf word - 1))[k]? := by
        simp only [List.getElem?_take]
        split
        · exact hkept k (by simp only [List.length_take]; omega) hliteral
        · rfl
      by_cases hopcode : opcodeOf word = Op.decorate
      · refine .inr ⟨hopcode, hopcode, decoration?_congr (by simp [hlength]) ?_ ?_⟩
        all_goals
          refine hoperand _ fun hliteral => ?_
          have := (literal?_eq_some hliteral).2.1
          simp only at this
          omega
      · refine .inl (congrArg (Instruction.mk offset (opcodeOf word)) (List.ext_getElem? ?_)).symm
        exact fun k => hoperand k fun hliteral => hopcode (literal?_eq_some hliteral).1

/-! ## The instructions of a module -/

theorem instructionsFrom_spec {offset skip : Nat} {words : List UInt32} {is : List Instruction}
    (h : instructionsFrom offset skip words = .ok is) :
    (is.Pairwise fun i j => i.offset < j.offset) ∧
      ∀ i ∈ is, offset + skip ≤ i.offset ∧
        i.offset + i.operands.length < offset + words.length := by
  induction words generalizing offset skip is with
  | nil =>
    cases h
    simp
  | cons word rest ih =>
    cases skip with
    | succ skip =>
      obtain ⟨hpairwise, hbounds⟩ := ih h
      refine ⟨hpairwise, fun i hi => ?_⟩
      have := hbounds i hi
      rw [List.length_cons]
      omega
    | zero =>
      simp only [instructionsFrom] at h
      split at h
      · cases h
      · rename_i first hfirst
        split at h
        · rename_i others hothers
          cases h
          obtain ⟨hoffset, -, hfits⟩ := instruction?_eq_some hfirst
          obtain ⟨hpairwise, hbounds⟩ := ih hothers
          refine ⟨List.pairwise_cons.2 ⟨fun i hi => ?_, hpairwise⟩, ?_⟩
          · have := hbounds i hi
            omega
          · rw [List.forall_mem_cons, List.length_cons]
            refine ⟨by omega, fun i hi => ?_⟩
            have := hbounds i hi
            omega
        · cases h

/-- Where only literals of decorations change, the same instructions are read. Words that belong
to an instruction before these may change at will. -/
theorem exists_instructionsFrom {offset skip : Nat} {words words' : List UInt32}
    {is : List Instruction} (h : instructionsFrom offset skip words = .ok is)
    (hlength : words'.length = words.length)
    (hkept : ∀ k, skip ≤ k → (∀ i ∈ is, i.literal? ≠ some (offset + k)) →
      words'[k]? = words[k]?) :
    ∃ js, instructionsFrom offset skip words' = .ok js ∧ List.Forall₂ Alike is js := by
  induction words generalizing offset skip words' is with
  | nil =>
    obtain rfl := List.length_eq_zero_iff.1 hlength
    cases h
    exact ⟨[], rfl, .nil⟩
  | cons word rest ih =>
    obtain ⟨word', rest', rfl⟩ := List.exists_cons_of_length_eq_add_one hlength
    have hlength : rest'.length = rest.length := by simpa using hlength
    cases skip with
    | succ skip =>
      change instructionsFrom (offset + 1) skip rest = .ok is at h
      change ∃ js, instructionsFrom (offset + 1) skip rest' = .ok js ∧ _
      refine ih h hlength fun k hk hliteral => hkept (k + 1) (by omega) fun i hi => ?_
      rw [← Nat.add_assoc, Nat.add_right_comm]
      exact hliteral i hi
    | zero =>
      simp only [instructionsFrom] at h
      split at h
      · cases h
      · rename_i first hfirst
        split at h
        · rename_i others hothers
          cases h
          obtain ⟨hoffset, -, -⟩ := instruction?_eq_some hfirst
          have hbounds := (instructionsFrom_spec hothers).2
          -- the literals of the others stand behind the operands of the first
          have hbehind {i : Instruction} (hi : i ∈ others) {p : Nat}
              (hp : p < offset + 1 + first.operands.length + 3) : i.literal? ≠ some p := by
            intro hliteral
            have := (literal?_eq_some hliteral).2.1
            have := hbounds i hi
            omega
          have hword : word' = word := by
            refine Option.some.inj (hkept 0 (Nat.le_refl 0) (List.forall_mem_cons.2 ⟨?_, ?_⟩))
            · intro hliteral
              have := (literal?_eq_some hliteral).2.1
              omega
            · exact fun i hi => hbehind hi (by omega)
          obtain ⟨first', hfirst', halike⟩ := exists_instruction? hfirst hlength
            fun k hk hliteral => hkept (k + 1) (Nat.zero_le _) (List.forall_mem_cons.2
              ⟨by rwa [← Nat.add_assoc, Nat.add_right_comm], fun i hi => hbehind hi (by omega)⟩)
          obtain ⟨others', hothers', hall⟩ := ih hothers hlength fun k hk hliteral => by
            refine hkept (k + 1) (Nat.zero_le _) (List.forall_mem_cons.2 ⟨?_, ?_⟩)
            · intro hown
              have := literal?_eq_some hown
              omega
            · rwa [← Nat.add_assoc, Nat.add_right_comm]
          have hoperands : first'.operands.length = first.operands.length := by
            rw [(instruction?_eq_some hfirst').2.1, (instruction?_eq_some hfirst).2.1]
          refine ⟨first' :: others', ?_, .cons halike hall⟩
          rw [hword]
          simp only [instructionsFrom, hfirst', hoperands, hothers']
        · cases h

namespace Module

variable {m n : Module}

theorem parse_eq_ok {words : List UInt32} (h : parse words = .ok m) :
    m.words = words ∧ headerLength ≤ words.length ∧ words.head? = some magic ∧
      instructionsFrom headerLength 0 (words.drop headerLength) = .ok m.instructions := by
  unfold parse at h
  split at h
  · cases h
  · rename_i hlength
    split at h
    · cases h
    · rename_i hmagic
      obtain ⟨is, his, rfl⟩ := map_eq_ok_iff.1 h
      exact ⟨rfl, Nat.not_lt.1 hlength, not_not.1 hmagic, his⟩

/-- The position of the literal of the first decoration of a kind that an identifier has. -/
def literal? (m : Module) (id decoration : UInt32) : Option Nat :=
  (m.decoration? id decoration).bind (·.literal)

theorem decorationValue?_eq (m : Module) (id decoration : UInt32) :
    m.decorationValue? id decoration = (m.literal? id decoration).bind fun p => m.words[p]? := by
  unfold decorationValue? literal?
  cases m.decoration? id decoration with
  | none => rfl
  | some slot => rfl

theorem exists_instruction_of_literal? {id decoration : UInt32} {p : Nat}
    (h : m.literal? id decoration = some p) :
    ∃ i ∈ m.instructions, i.literal? = some p ∧ ∃ slot, i.decoration? = some slot ∧
      slot.target = id ∧ slot.decoration = decoration := by
  obtain ⟨slot, hslot, hliteral⟩ := Option.bind_eq_some_iff.1 h
  have hmatch := List.find?_some hslot
  obtain ⟨i, hi, hdecoration⟩ := List.mem_filterMap.1 (List.mem_of_find?_eq_some hslot)
  simp only [Bool.and_eq_true, beq_iff_eq] at hmatch
  have hown : i.literal? = some p := by
    rw [Instruction.literal?, hdecoration]
    exact hliteral
  exact ⟨i, hi, hown, slot, hdecoration, hmatch⟩

/-- The literals of a module are words of it, and each of them belongs to one decoration of one
identifier. -/
structure LiteralsApart (m : Module) : Prop where
  lt {id decoration : UInt32} {p : Nat} : m.literal? id decoration = some p → p < m.words.length
  inj {id id' decoration decoration' : UInt32} {p : Nat} : m.literal? id decoration = some p →
    m.literal? id' decoration' = some p → id = id' ∧ decoration = decoration'

theorem literalsApart_parse {words : List UInt32} (h : parse words = .ok m) : m.LiteralsApart := by
  obtain ⟨hwords, hlength, -, his⟩ := parse_eq_ok h
  obtain ⟨hpairwise, hbounds⟩ := instructionsFrom_spec his
  constructor
  · intro id decoration p hp
    obtain ⟨i, hi, hliteral, -⟩ := exists_instruction_of_literal? hp
    have hend := (hbounds i hi).2
    have := literal?_eq_some hliteral
    rw [List.length_drop] at hend
    rw [hwords]
    omega
  · intro id id' decoration decoration' p hp hp'
    obtain ⟨i, hi, hliteral, slot, hslot, rfl, rfl⟩ := exists_instruction_of_literal? hp
    obtain ⟨j, hj, hliteral', slot', hslot', rfl, rfl⟩ := exists_instruction_of_literal? hp'
    have hoffset : i.offset = j.offset := by
      have := (literal?_eq_some hliteral).2.1
      have := (literal?_eq_some hliteral').2.1
      omega
    have hnodup : (m.instructions.map (·.offset)).Nodup :=
      List.pairwise_map.2 (hpairwise.imp Nat.ne_of_lt)
    obtain rfl : i = j := List.inj_on_of_nodup_map hnodup hi hj hoffset
    obtain rfl : slot = slot' := Option.some.inj (hslot.symm.trans hslot')
    exact ⟨rfl, rfl⟩

/-! ## Modules that declare the same -/

/-- Modules with instructions that say the same. -/
def Alike (m n : Module) : Prop := List.Forall₂ Instruction.Alike m.instructions n.instructions

/-- Where the words of a module that was read are kept, literals of decorations apart, a module that
declares the same is read. -/
theorem exists_parse_of_kept {words words' : List UInt32} (h : parse words = .ok m)
    (hlength : words'.length = words.length)
    (hkept : ∀ p, (∀ i ∈ m.instructions, i.literal? ≠ some p) → words'[p]? = words[p]?) :
    ∃ n, parse words' = .ok n ∧ n.words = words' ∧ Alike m n := by
  obtain ⟨-, hheader, hmagic, his⟩ := parse_eq_ok h
  have hhead : words'.head? = some magic := by
    rw [← hmagic, List.head?_eq_getElem?, List.head?_eq_getElem?]
    refine hkept 0 fun i hi hliteral => ?_
    have := (literal?_eq_some hliteral).2.1
    omega
  have hdrop : (words'.drop headerLength).length = (words.drop headerLength).length := by
    rw [List.length_drop, List.length_drop, hlength]
  obtain ⟨js, hjs, hall⟩ := exists_instructionsFrom his hdrop fun k _ hliteral => by
    rw [List.getElem?_drop, List.getElem?_drop]
    exact hkept _ hliteral
  refine ⟨⟨words', js⟩, ?_, rfl, hall⟩
  rw [parse, if_neg (by omega), if_neg (not_not.2 hhead), hjs]
  rfl

theorem alike_of_instructions_eq (h : n.instructions = m.instructions) : Alike m n := by
  rw [Alike, h]
  exact List.forall₂_same.2 fun i _ => .inl rfl

namespace Alike

/-- What is read off each instruction is the same. -/
theorem filterMap_eq (h : Alike m n) {β : Type} {f : Instruction → Option β}
    (hf : ∀ i j, Instruction.Alike i j → f i = f j) :
    n.instructions.filterMap f = m.instructions.filterMap f := by
  obtain ⟨words, is⟩ := m
  obtain ⟨words', js⟩ := n
  change List.Forall₂ Instruction.Alike is js at h
  change js.filterMap f = is.filterMap f
  induction h with
  | nil => rfl
  | cons halike _ ih => rw [List.filterMap_cons, List.filterMap_cons, hf _ _ halike, ih]

/-- Decorations declare nothing else. -/
theorem declarations_eq (h : Alike m n) :
    n.instructions.filterMap Instruction.name? = m.instructions.filterMap Instruction.name? ∧
      n.instructions.filterMap Instruction.type? = m.instructions.filterMap Instruction.type? ∧
      n.instructions.filterMap Instruction.constant? =
        m.instructions.filterMap Instruction.constant? ∧
      n.instructions.filterMap Instruction.semantic? =
        m.instructions.filterMap Instruction.semantic? ∧
      n.instructions.filterMap Instruction.variableDecl? =
        m.instructions.filterMap Instruction.variableDecl? ∧
      n.instructions.filterMap Instruction.nonWritableMember? =
        m.instructions.filterMap Instruction.nonWritableMember? := by
  have hnone (i : Instruction) (hi : i.opcode = Op.decorate) :
      i.name? = none ∧ i.type? = none ∧ i.constant? = none ∧ i.semantic? = none ∧
        i.variableDecl? = none ∧ i.nonWritableMember? = none := by
    obtain ⟨offset, opcode, operands⟩ := i
    obtain rfl : opcode = Op.decorate := hi
    rcases operands with _ | ⟨_, _ | ⟨_, _ | ⟨_, _⟩⟩⟩ <;> exact ⟨rfl, rfl, rfl, rfl, rfl, rfl⟩
  refine ⟨?_, ?_, ?_, ?_, ?_, ?_⟩ <;> refine h.filterMap_eq fun i j halike => halike.eq_of_none ?_
  · exact fun i hi => (hnone i hi).1
  · exact fun i hi => (hnone i hi).2.1
  · exact fun i hi => (hnone i hi).2.2.1
  · exact fun i hi => (hnone i hi).2.2.2.1
  · exact fun i hi => (hnone i hi).2.2.2.2.1
  · exact fun i hi => (hnone i hi).2.2.2.2.2

theorem name?_eq (h : Alike m n) (id : UInt32) : n.name? id = m.name? id := by
  rw [name?, name?, h.declarations_eq.1]

theorem type?_eq (h : Alike m n) (id : UInt32) : n.type? id = m.type? id := by
  rw [type?, type?, h.declarations_eq.2.1]

theorem constant?_eq (h : Alike m n) (id : UInt32) : n.constant? id = m.constant? id := by
  rw [constant?, constant?, h.declarations_eq.2.2.1]

theorem semantic?_eq (h : Alike m n) (id : UInt32) : n.semantic? id = m.semantic? id := by
  rw [semantic?, semantic?, h.declarations_eq.2.2.2.1]

theorem declaredVariables_eq (h : Alike m n) : n.declaredVariables = m.declaredVariables :=
  h.declarations_eq.2.2.2.2.1

theorem nonWritableCount_eq (h : Alike m n) (id : UInt32) :
    n.nonWritableCount id = m.nonWritableCount id := by
  rw [nonWritableCount, nonWritableCount, h.declarations_eq.2.2.2.2.2]

theorem decoration?_eq (h : Alike m n) (id decoration : UInt32) :
    n.decoration? id decoration = m.decoration? id decoration := by
  rw [decoration?, decoration?, h.filterMap_eq fun i j halike => halike.decoration?_eq]

theorem hasDecoration_eq (h : Alike m n) (id decoration : UInt32) :
    n.hasDecoration id decoration = m.hasDecoration id decoration := by
  rw [hasDecoration, hasDecoration, h.decoration?_eq]

theorem literal?_eq (h : Alike m n) (id decoration : UInt32) :
    n.literal? id decoration = m.literal? id decoration := by
  rw [literal?, literal?, h.decoration?_eq]

/-- A decoration has a value if it has a literal. -/
theorem isSome_decorationValue? (h : Alike m n) (hm : m.LiteralsApart)
    (hlength : n.words.length = m.words.length) (id decoration : UInt32) :
    (n.decorationValue? id decoration).isSome = (m.literal? id decoration).isSome := by
  rw [decorationValue?_eq, h.literal?_eq]
  cases hliteral : m.literal? id decoration with
  | none => rfl
  | some p => simp [hlength, hm.lt hliteral]

/-! ## Their interfaces -/

theorem unwrapArrays_eq (h : Alike m n) (id : UInt32) : n.unwrapArrays id = m.unwrapArrays id := by
  have hdepth (depth : Nat) (id count : UInt32) :
      n.unwrapUpTo depth id count = m.unwrapUpTo depth id count := by
    induction depth generalizing id count with
    | zero => rfl
    | succ depth ih => simp only [unwrapUpTo, h.type?_eq, h.constant?_eq, ih]
  rw [unwrapArrays, unwrapArrays, h.declarations_eq.2.1, hdepth]

theorem debugName?_eq (h : Alike m n) (id : UInt32) : n.debugName? id = m.debugName? id := by
  rw [debugName?, debugName?, h.name?_eq]

theorem resourceName_eq (h : Alike m n) (id base : UInt32) :
    n.resourceName id base = m.resourceName id base := by
  simp only [resourceName, blockName?, h.debugName?_eq, h.type?_eq]

theorem isReadOnly_eq (h : Alike m n) (id struct : UInt32) :
    n.isReadOnly id struct = m.isReadOnly id struct := by
  rw [isReadOnly, isReadOnly, h.hasDecoration_eq, h.type?_eq, h.nonWritableCount_eq]

theorem resourceType?_eq (h : Alike m n) (v : Variable) (base : UInt32) :
    n.resourceType? v base = m.resourceType? v base := by
  unfold resourceType?
  rw [h.type?_eq, h.isReadOnly_eq, h.hasDecoration_eq]

/-- The same variables are resources, in places of their own. -/
theorem resource?_eq (h : Alike m n) (stage : ShaderStage) (v : Variable) :
    n.resource? stage v = (m.resource? stage v).map fun r => { r with
      set := (n.decorationValue? v.id Decoration.descriptorSet).getD 0
      binding := (n.decorationValue? v.id Decoration.binding).getD 0 } := by
  simp only [resource?, h.type?_eq]
  split
  · simp only [h.unwrapArrays_eq, h.resourceType?_eq, h.resourceName_eq, Option.map_map]
    rfl
  · rfl

/-- The same variables are inputs, with locations of their own. -/
theorem vertexInput?_eq (h : Alike m n) (hm : m.LiteralsApart)
    (hlength : n.words.length = m.words.length) (v : Variable) :
    n.vertexInput? v = (m.vertexInput? v).map fun input => { input with
      location := (n.decorationValue? v.id Decoration.location).getD 0 } := by
  have hsome : (n.decorationValue? v.id Decoration.location).isNone =
      (m.decorationValue? v.id Decoration.location).isNone := by
    rw [← Option.not_isSome, ← Option.not_isSome, h.isSome_decorationValue? hm hlength,
      (alike_of_instructions_eq rfl).isSome_decorationValue? hm rfl]
  simp only [vertexInput?, h.hasDecoration_eq, h.semantic?_eq, h.name?_eq, hsome]
  split
  · split
    · rfl
    · rfl
  · rfl

end Alike

end Module

end PipelineArchive.Spirv
