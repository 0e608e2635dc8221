import PipelineArchive.Proofs.Results
import PipelineArchive.Spirv.Module

/-!
# The grammar of SPIR-V modules

A module is written in whole words: a header that starts with the magic number, and instructions
each of which gives its own length in the upper half of its first word. `Splits` says that words
split into instructions, and `Stuck` that no instruction starts with the first of them. Reading
follows the one and stops at the other, so that byte strings of the grammar are read, and only
these, and all others are refused for the first rule that they break (`ofBytes_grammar`).
-/

set_option autoImplicit false

namespace PipelineArchive

namespace Spirv

open Results

/-- A word with its operands is an instruction: its upper half is how many words they are
together, and the opcode in its lower half needs no more operands. -/
structure IsInstruction (head : UInt32) (operands : List UInt32) : Prop where
  length_eq : head.toNat / 65536 = operands.length + 1
  least_le : Op.least (head.toNat % 65536) ≤ operands.length

/-- The words split into instructions, the first of which stands at an offset. -/
inductive Splits : Nat → List UInt32 → List Instruction → Prop
  | nil (offset : Nat) : Splits offset [] []
  | cons {offset : Nat} {head : UInt32} {operands rest : List UInt32} {is : List Instruction} :
      IsInstruction head operands → Splits (offset + 1 + operands.length) rest is →
      Splits offset (head :: (operands ++ rest)) (⟨offset, head.toNat % 65536, operands⟩ :: is)

/-- There are words, but no instruction starts with the first of them. -/
def Stuck (words : List UInt32) : Prop :=
  ∃ head rest, words = head :: rest ∧
    ∀ operands more, rest = operands ++ more → ¬IsInstruction head operands

/-! ## One instruction -/

theorem lengthOf_eq (word : UInt32) : lengthOf word = word.toNat / 65536 := by
  rw [lengthOf, UInt32.toNat_shiftRight, Nat.shiftRight_eq_div_pow]
  rfl

theorem opcodeOf_eq (word : UInt32) : opcodeOf word = word.toNat % 65536 := by
  rw [opcodeOf, UInt32.toNat_and]
  exact Nat.and_two_pow_sub_one_eq_mod word.toNat 16

theorem instruction?_of_isInstruction {offset : Nat} {head : UInt32}
    {operands : List UInt32} (h : IsInstruction head operands) (more : List UInt32) :
    instruction? offset head (operands ++ more) =
      some ⟨offset, head.toNat % 65536, operands⟩ := by
  have hcount : lengthOf head - 1 = operands.length := by
    rw [lengthOf_eq, h.length_eq, Nat.add_sub_cancel]
  have hlength : lengthOf head ≠ 0 := by
    rw [lengthOf_eq, h.length_eq]
    exact Nat.succ_ne_zero _
  simp only [instruction?, hcount, List.take_left, opcodeOf_eq]
  rw [if_neg]
  rintro (hzero | hend | hleast)
  · exact hlength hzero
  · exact Nat.lt_irrefl _ hend
  · exact Nat.not_lt.2 h.least_le hleast

theorem isInstruction_of_instruction? {offset : Nat} {head : UInt32} {rest : List UInt32}
    {i : Instruction} (h : instruction? offset head rest = some i) :
    ∃ more, rest = i.operands ++ more ∧ IsInstruction head i.operands := by
  unfold instruction? at h
  simp only at h
  split at h
  · cases h
  · rename_i hok
    cases h
    simp only [not_or, Nat.not_lt] at hok
    obtain ⟨hlength, hend, hleast⟩ := hok
    have hcount : (rest.take (lengthOf head - 1)).length = lengthOf head - 1 :=
      Nat.le_antisymm (List.length_take_le _ _) hend
    refine ⟨_, (List.take_append_drop _ rest).symm, ⟨?_, ?_⟩⟩
    · rw [hcount, ← lengthOf_eq]
      omega
    · rw [hcount, ← opcodeOf_eq]
      exact hleast

/-- Where no instruction starts, none is read. -/
theorem instruction?_eq_none {offset : Nat} {head : UInt32} {rest : List UInt32}
    (h : ∀ operands more, rest = operands ++ more → ¬IsInstruction head operands) :
    instruction? offset head rest = none := by
  cases hi : instruction? offset head rest with
  | none => rfl
  | some i =>
    obtain ⟨more, hrest, hinstruction⟩ := isInstruction_of_instruction? hi
    exact (h _ _ hrest hinstruction).elim

/-! ## A row of instructions -/

/-- Words of an instruction that has been read are passed over. -/
theorem instructionsFrom_skip (offset : Nat) (read rest : List UInt32) :
    instructionsFrom offset read.length (read ++ rest) =
      instructionsFrom (offset + read.length) 0 rest := by
  induction read generalizing offset with
  | nil => rfl
  | cons word read ih =>
    change instructionsFrom (offset + 1) read.length (read ++ rest) = _
    rw [ih, List.length_cons]
    congr 1
    omega

/-- Behind words that split into instructions reading goes on. -/
theorem Splits.instructionsFrom_append {offset : Nat} {words : List UInt32}
    {is : List Instruction} (h : Splits offset words is) (rest : List UInt32) :
    instructionsFrom offset 0 (words ++ rest) =
      (instructionsFrom (offset + words.length) 0 rest).map (is ++ ·) := by
  induction h with
  | nil offset =>
    change instructionsFrom offset 0 rest = (instructionsFrom offset 0 rest).map id
    cases instructionsFrom offset 0 rest <;> rfl
  | @cons offset head operands others is hinstruction _ ih =>
    have hoffset : offset + 1 + operands.length + others.length =
        offset + (head :: (operands ++ others)).length := by
      rw [List.length_cons, List.length_append]
      omega
    rw [List.cons_append, List.append_assoc]
    simp only [instructionsFrom, instruction?_of_isInstruction hinstruction, instructionsFrom_skip,
      ih, hoffset]
    cases instructionsFrom (offset + (head :: (operands ++ others)).length) 0 rest <;> rfl

theorem Stuck.instructionsFrom_eq {words : List UInt32} (h : Stuck words) (offset : Nat) :
    instructionsFrom offset 0 words = .error (.malformedInstruction offset) := by
  obtain ⟨head, rest, rfl, hnone⟩ := h
  simp only [instructionsFrom, instruction?_eq_none hnone]

/-- Words split into instructions, up to a place where no instruction starts if there is one. -/
theorem exists_splits (offset : Nat) (words : List UInt32) :
    ∃ before after is, words = before ++ after ∧ Splits offset before is ∧
      (after = [] ∨ Stuck after) := by
  -- an instruction may have any length, so what is behind it is only known to be shorter
  induction hlength : words.length using Nat.strongRecOn generalizing offset words with
  | ind length ih =>
    subst hlength
    cases words with
    | nil => exact ⟨[], [], [], rfl, .nil offset, .inl rfl⟩
    | cons head rest =>
      by_cases hstuck : Stuck (head :: rest)
      · exact ⟨[], _, [], rfl, .nil offset, .inr hstuck⟩
      · have hinstruction : ∃ operands more, rest = operands ++ more ∧
            IsInstruction head operands := by
          by_contra hnone
          exact hstuck ⟨head, rest, rfl, fun operands more hrest h =>
            hnone ⟨operands, more, hrest, h⟩⟩
        obtain ⟨operands, more, rfl, hinstruction⟩ := hinstruction
        have hshorter : more.length < (head :: (operands ++ more)).length := by
          rw [List.length_cons, List.length_append]
          omega
        obtain ⟨before, after, is, rfl, hsplits, hend⟩ :=
          ih _ hshorter (offset + 1 + operands.length) more rfl
        refine ⟨head :: (operands ++ before), after, _, ?_, .cons hinstruction hsplits, hend⟩
        rw [List.cons_append, List.append_assoc]

theorem instructionsFrom_eq_ok_iff {offset : Nat} {words : List UInt32} {is : List Instruction} :
    instructionsFrom offset 0 words = .ok is ↔ Splits offset words is := by
  constructor
  · intro h
    obtain ⟨before, after, found, rfl, hsplits, rfl | hstuck⟩ := exists_splits offset words
    · have hread := hsplits.instructionsFrom_append []
      rw [h] at hread
      obtain rfl : is = found := (Except.ok.inj hread).trans (List.append_nil found)
      rw [List.append_nil]
      exact hsplits
    · rw [hsplits.instructionsFrom_append, hstuck.instructionsFrom_eq] at h
      cases h
  · intro h
    have hread := h.instructionsFrom_append []
    rw [List.append_nil] at hread
    rw [hread]
    exact congrArg Except.ok (List.append_nil is)

theorem instructionsFrom_eq_error_iff {offset : Nat} {words : List UInt32} {e : Error} :
    instructionsFrom offset 0 words = .error e ↔
      ∃ before after is, words = before ++ after ∧ Splits offset before is ∧ Stuck after ∧
        e = .malformedInstruction (offset + before.length) := by
  constructor
  · intro h
    obtain ⟨before, after, is, rfl, hsplits, rfl | hstuck⟩ := exists_splits offset words
    · rw [List.append_nil, instructionsFrom_eq_ok_iff.2 hsplits] at h
      cases h
    · rw [hsplits.instructionsFrom_append, hstuck.instructionsFrom_eq] at h
      cases h
      exact ⟨before, after, is, rfl, hsplits, hstuck, rfl⟩
  · rintro ⟨before, after, is, rfl, hsplits, hstuck, rfl⟩
    rw [hsplits.instructionsFrom_append, hstuck.instructionsFrom_eq]
    rfl

/-! ## Modules -/

/-- The byte string is a module: whole words, among them a header that starts with the magic
number, and behind the header nothing but instructions. -/
structure IsModule (bytes : Bytes) : Prop where
  aligned : bytes.length % 4 = 0
  header : headerLength ≤ bytes.length / 4
  magic : bytes.toWords.head? = some magic
  body : ∃ is, Splits headerLength (bytes.toWords.drop headerLength) is

/-- The error for the first rule of modules that a byte string breaks. -/
inductive Breaks (bytes : Bytes) : Error → Prop
  | unaligned : bytes.length % 4 ≠ 0 → Breaks bytes (.unalignedLength bytes.length)
  | tooShort : bytes.length % 4 = 0 → bytes.length / 4 < headerLength →
      Breaks bytes (.tooShort (bytes.length / 4))
  | badMagic {word : UInt32} : bytes.length % 4 = 0 → headerLength ≤ bytes.length / 4 →
      bytes.toWords.head? = some word → word ≠ magic → Breaks bytes (.badMagic word)
  | malformed {before after : List UInt32} {is : List Instruction} : bytes.length % 4 = 0 →
      headerLength ≤ bytes.length / 4 → bytes.toWords.head? = some magic →
      bytes.toWords.drop headerLength = before ++ after → Splits headerLength before is →
      Stuck after → Breaks bytes (.malformedInstruction (headerLength + before.length))

/-- Every byte string is a module or breaks a rule. -/
theorem isModule_or_breaks (bytes : Bytes) : IsModule bytes ∨ ∃ e, Breaks bytes e := by
  by_cases haligned : bytes.length % 4 = 0
  case neg => exact .inr ⟨_, .unaligned haligned⟩
  by_cases hheader : headerLength ≤ bytes.length / 4
  case neg => exact .inr ⟨_, .tooShort haligned (Nat.lt_of_not_le hheader)⟩
  obtain ⟨word, rest, hwords⟩ : ∃ word rest, bytes.toWords = word :: rest := by
    refine List.exists_cons_of_length_pos ?_
    rw [Bytes.length_toWords]
    exact Nat.lt_of_lt_of_le (by decide) hheader
  have hhead : bytes.toWords.head? = some word := by rw [hwords]; rfl
  by_cases hmagic : word = magic
  case neg => exact .inr ⟨_, .badMagic haligned hheader hhead hmagic⟩
  rw [hmagic] at hhead
  obtain ⟨before, after, is, hbody, hsplits, rfl | hstuck⟩ :=
    exists_splits headerLength (bytes.toWords.drop headerLength)
  · rw [List.append_nil] at hbody
    exact .inl ⟨haligned, hheader, hhead, is, hbody ▸ hsplits⟩
  · exact .inr ⟨_, .malformed haligned hheader hhead hbody hsplits hstuck⟩

namespace Module

variable {bytes : Bytes}

/-- Whole words are read as the words that they are. -/
theorem ofBytes_of_aligned (h : bytes.length % 4 = 0) : ofBytes bytes = parse bytes.toWords := by
  rw [ofBytes, if_neg (not_not.2 h)]

/-- Behind a good header it is the instructions that count. -/
theorem parse_of_header (hheader : headerLength ≤ bytes.length / 4)
    (hmagic : bytes.toWords.head? = some magic) :
    parse bytes.toWords = (instructionsFrom headerLength 0
      (bytes.toWords.drop headerLength)).map (⟨bytes.toWords, ·⟩) := by
  rw [← Bytes.length_toWords] at hheader
  rw [parse, if_neg (Nat.not_lt.2 hheader), if_neg (not_not.2 hmagic)]

end Module

theorem Breaks.ofBytes_eq {bytes : Bytes} {e : Error} (h : Breaks bytes e) :
    Module.ofBytes bytes = .error e := by
  cases h with
  | unaligned haligned => rw [Module.ofBytes, if_pos haligned]
  | tooShort haligned hshort =>
    rw [← Bytes.length_toWords] at hshort
    rw [Module.ofBytes_of_aligned haligned, Module.parse, if_pos hshort, Bytes.length_toWords]
  | badMagic haligned hheader hhead hmagic =>
    rw [← Bytes.length_toWords] at hheader
    have hother : bytes.toWords.head? ≠ some magic := fun h =>
      hmagic (Option.some.inj (hhead.symm.trans h))
    rw [Module.ofBytes_of_aligned haligned, Module.parse, if_neg (Nat.not_lt.2 hheader),
      if_pos hother, List.headD_eq_head?_getD, hhead]
    rfl
  | malformed haligned hheader hhead hbody hsplits hstuck =>
    rw [Module.ofBytes_of_aligned haligned, Module.parse_of_header hheader hhead,
      instructionsFrom_eq_error_iff.2 ⟨_, _, _, hbody, hsplits, hstuck, rfl⟩]
    rfl

theorem IsModule.exists_ofBytes {bytes : Bytes} (h : IsModule bytes) :
    ∃ is, Module.ofBytes bytes = .ok ⟨bytes.toWords, is⟩ ∧
      Splits headerLength (bytes.toWords.drop headerLength) is := by
  obtain ⟨is, hsplits⟩ := h.body
  refine ⟨is, ?_, hsplits⟩
  rw [Module.ofBytes_of_aligned h.aligned, Module.parse_of_header h.header h.magic,
    instructionsFrom_eq_ok_iff.2 hsplits]
  rfl

/-- A byte string is read exactly if it is a module. Then the bytes of what is read are the same
again, and its instructions are those that the words split into. Any other byte string is refused
with the error for the first rule that it breaks, and for an instruction this is the place of the
first word with which none starts. -/
theorem Module.ofBytes_grammar (bytes : Bytes) :
    ((∃ m, ofBytes bytes = .ok m) ↔ IsModule bytes) ∧
      (∀ m, ofBytes bytes = .ok m → m.toBytes = bytes ∧
        Splits headerLength (bytes.toWords.drop headerLength) m.instructions) ∧
      ∀ e, ofBytes bytes = .error e ↔ Breaks bytes e := by
  rcases isModule_or_breaks bytes with hmodule | ⟨e, hbreaks⟩
  · obtain ⟨is, hok, hsplits⟩ := hmodule.exists_ofBytes
    refine ⟨⟨fun _ => hmodule, fun _ => ⟨_, hok⟩⟩, fun m hm => ?_,
      fun e => ⟨fun he => ?_, fun he => he.ofBytes_eq⟩⟩
    · obtain rfl := Except.ok.inj (hok.symm.trans hm)
      exact ⟨Bytes.ofWords_toWords hmodule.aligned, hsplits⟩
    · rw [hok] at he
      cases he
  · have herror := hbreaks.ofBytes_eq
    refine ⟨⟨?_, fun hmodule => ?_⟩, fun m hm => ?_,
      fun e' => ⟨fun he => ?_, fun he => he.ofBytes_eq⟩⟩
    · rintro ⟨m, hm⟩
      rw [herror] at hm
      cases hm
    · obtain ⟨is, hok, -⟩ := hmodule.exists_ofBytes
      exact ⟨_, hok⟩
    · rw [herror] at hm
      cases hm
    · obtain rfl := Except.error.inj (herror.symm.trans he)
      exact hbreaks

/-- The second instruction lacks three of the words that it announces. -/
example : Module.ofBytes (Bytes.ofWords [magic, 65536, 0, 20, 0, 0x0003000E, 0, 1, 0x00050047, 7]) =
    .error (.malformedInstruction 8) := rfl

end Spirv

end PipelineArchive
