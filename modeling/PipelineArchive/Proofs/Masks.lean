import PipelineArchive.Backend

/-!
# Sets of backends as bit masks

One mask includes another if it has all its bits, and a backend belongs to a set if the set includes
its bit. Inclusion is known from the members where the smaller set was listed (`includes_ofList`),
while a mask may also have bits that stand for no backend.
-/

set_option autoImplicit false

namespace PipelineArchive

/-- The bits that a mask shares with one of a single bit. -/
theorem and_bit {bit : UInt32} {i : Nat} (h : bit.toBitVec = BitVec.twoPow 32 i) (bits : UInt32) :
    bits &&& bit = if bits.toBitVec.getLsbD i then bit else 0 := by
  rw [← UInt32.toBitVec_inj, UInt32.toBitVec_and, h, BitVec.and_twoPow]
  split
  · exact h.symm
  · rfl

namespace BackendSet

/-! ## Inclusion -/

/-- A mask includes another one if it has all its bits. -/
theorem includes_iff {s t : BackendSet} : s.includes t ↔
    ∀ i, t.bits.toBitVec.getLsbD i = true → s.bits.toBitVec.getLsbD i = true := by
  rw [includes, beq_iff_eq, ← UInt32.toBitVec_inj, UInt32.toBitVec_and]
  constructor
  · intro h i hi
    rw [← h, BitVec.getLsbD_and, Bool.and_eq_true] at hi
    exact hi.1
  · intro h
    refine BitVec.eq_of_getLsbD_eq fun i _ => ?_
    rw [BitVec.getLsbD_and]
    cases hi : t.bits.toBitVec.getLsbD i with
    | false => exact Bool.and_false _
    | true => rw [h i hi, Bool.and_true]

theorem includes_trans {s t u : BackendSet} (hst : s.includes t) (htu : t.includes u) :
    s.includes u :=
  includes_iff.2 fun i hi => includes_iff.1 hst i (includes_iff.1 htu i hi)

theorem includes_empty (s : BackendSet) : s.includes empty := by
  refine includes_iff.2 fun i hi => ?_
  have hzero : (0 : BitVec 32).getLsbD i = true := hi
  simp at hzero

/-- Without any bits a mask includes no others. -/
theorem empty_includes {s : BackendSet} : empty.includes s = s.isEmpty := by
  rw [includes, isEmpty, empty, UInt32.zero_and, Bool.eq_iff_iff, beq_iff_eq, beq_iff_eq, eq_comm]

theorem union_empty (s : BackendSet) : s.union empty = s :=
  congrArg BackendSet.mk UInt32.or_zero

theorem includes_union (s t u : BackendSet) :
    s.includes (t.union u) = (s.includes t && s.includes u) := by
  rw [Bool.eq_iff_iff, Bool.and_eq_true]
  simp only [includes_iff, union, UInt32.toBitVec_or, BitVec.getLsbD_or, Bool.or_eq_true]
  exact ⟨fun h => ⟨fun i hi => h i (.inl hi), fun i hi => h i (.inr hi)⟩,
    fun h i hi => hi.elim (h.1 i) (h.2 i)⟩

/-- The union of masks has no bits if neither has any. -/
theorem isEmpty_union (s t : BackendSet) : (s.union t).isEmpty = (s.isEmpty && t.isEmpty) := by
  rw [← empty_includes, ← empty_includes, ← empty_includes, includes_union]

/-! ## Members -/

theorem singleton_toBitVec (b : Backend) :
    (singleton b).bits.toBitVec = BitVec.twoPow 32 b.ordinal := by
  cases b <;> decide

/-- A backend is in a set if its bit is. -/
theorem contains_eq_getLsbD (s : BackendSet) (b : Backend) :
    s.contains b = s.bits.toBitVec.getLsbD b.ordinal := by
  have hne : (singleton b).bits ≠ 0 := by cases b <;> decide
  unfold contains includes
  rw [and_bit (singleton_toBitVec b)]
  cases hbit : s.bits.toBitVec.getLsbD b.ordinal
  · simp [hne.symm]
  · simp

theorem contains_of_includes {s t : BackendSet} (h : s.includes t) {b : Backend}
    (hb : t.contains b) : s.contains b := includes_trans h hb

theorem contains_union (s t : BackendSet) (b : Backend) :
    (s.union t).contains b = (s.contains b || t.contains b) := by
  rw [contains_eq_getLsbD, contains_eq_getLsbD, contains_eq_getLsbD]
  exact BitVec.getLsbD_or

theorem contains_empty (b : Backend) : empty.contains b = false := by
  cases b <;> decide

theorem contains_singleton {b b' : Backend} : (singleton b).contains b' ↔ b' = b := by
  cases b <;> cases b' <;> decide

/-- A set includes the listed backends if each of them is in it. -/
theorem includes_ofList {s : BackendSet} {bs : List Backend} :
    s.includes (ofList bs) ↔ ∀ b ∈ bs, s.contains b := by
  have hfold : ∀ t : BackendSet, s.includes (bs.foldl (fun t b => t.union (singleton b)) t) ↔
      s.includes t ∧ ∀ b ∈ bs, s.contains b := by
    induction bs with
    | nil => simp
    | cons first rest ih =>
      intro t
      rw [List.foldl_cons, ih, includes_union, Bool.and_eq_true, List.forall_mem_cons, and_assoc]
      rfl
  rw [ofList, hfold]
  exact and_iff_right (includes_empty s)

theorem isEmpty_ofList {bs : List Backend} : (ofList bs).isEmpty ↔ bs = [] := by
  rw [← empty_includes, includes_ofList, List.eq_nil_iff_forall_not_mem]
  simp only [contains_empty, Bool.false_eq_true]

/-- The set of listed backends has these and no others. -/
theorem contains_ofList {bs : List Backend} {b : Backend} : (ofList bs).contains b ↔ b ∈ bs := by
  -- the backends already taken are general, for they grow along the fold
  have hfold : ∀ s : BackendSet, (bs.foldl (fun s b => s.union (singleton b)) s).contains b ↔
      s.contains b ∨ b ∈ bs := by
    induction bs with
    | nil => simp
    | cons first rest ih =>
      intro s
      rw [List.foldl_cons, ih, contains_union, Bool.or_eq_true, contains_singleton, or_assoc,
        List.mem_cons]
  rw [ofList, hfold, contains_empty]
  simp

/-- Sets that include each other are the same. -/
theorem includes_antisymm {s t : BackendSet} (hst : s.includes t) (hts : t.includes s) : s = t := by
  obtain ⟨bits⟩ := s
  obtain ⟨bits'⟩ := t
  simp only [includes, beq_iff_eq] at hst hts
  rw [UInt32.and_comm, hst] at hts
  rw [hts]

/-- A set is given by which backends are listed. -/
theorem ofList_congr {bs bs' : List Backend} (h : ∀ b, b ∈ bs ↔ b ∈ bs') : ofList bs = ofList bs' :=
  includes_antisymm (includes_ofList.2 fun b hb => contains_ofList.2 ((h b).2 hb))
    (includes_ofList.2 fun b hb => contains_ofList.2 ((h b).1 hb))

theorem mem_toList {s : BackendSet} {b : Backend} : b ∈ s.toList ↔ s.contains b := by
  simp [toList, Backend.mem_all]

/-- Sets with the same members list them in the same order. -/
theorem toList_congr {s t : BackendSet} (h : ∀ b, s.contains b = t.contains b) :
    s.toList = t.toList := by
  rw [toList, toList, funext h]

theorem contains_present {α : Type} {p : PerBackend (Option α)} {b : Backend} :
    p.present.contains b = (p.get b).isSome := by
  rw [Bool.eq_iff_iff, PerBackend.present, contains_ofList]
  simp [Backend.mem_all]

end BackendSet

end PipelineArchive
