import PipelineArchive.Contents.ShaderStore
import Mathlib.Data.List.Nodup

/-!
# Interning shaders

A store is `Indexed` if the lookup by content finds every shader exactly where it stands; then
no shader is stored twice (`Indexed.nodup`). Interning keeps a store indexed, leaves every
shader where it is and answers with the place of the new one. Compaction moves every kept
shader to a place of its own and leaves nothing else behind (`get?_follow_compact`,
`exists_follow_compact`).
-/

set_option autoImplicit false

namespace PipelineArchive.ShaderStore

/-- The lookup by content finds a shader exactly where it stands. -/
def Indexed (s : ShaderStore) : Prop :=
  ∀ shader index, s.position? shader = some index ↔ s.get? index = some shader

theorem indexed_empty : empty.Indexed := by
  intro shader index
  simp [empty, position?, get?]

/-- A store that finds every shader in one place has no shader twice. -/
theorem Indexed.nodup {s : ShaderStore} (h : s.Indexed) : s.shaders.Nodup := by
  rw [List.nodup_iff_getElem?_ne_getElem?]
  intro i j hij hj heq
  have hget : s.get? j = some s.shaders[j] := List.getElem?_eq_getElem hj
  have hi := (h s.shaders[j] i).2 (heq.trans hget)
  have hj := (h s.shaders[j] j).2 hget
  rw [hi] at hj
  injection hj with hj
  omega

theorem get?_of_prefix {s t : ShaderStore} (h : s.shaders <+: t.shaders) {index : Nat}
    {shader : Bytes} (hget : s.get? index = some shader) : t.get? index = some shader := by
  obtain ⟨rest, hrest⟩ := h
  obtain ⟨hindex, -⟩ := List.getElem?_eq_some_iff.1 hget
  rw [get?, ← hrest, List.getElem?_append_left hindex]
  exact hget

theorem get?_isSome_iff (s : ShaderStore) (index : Nat) :
    (s.get? index).isSome ↔ index < s.size := by
  simp [get?, size]

theorem lt_size_of_get? {s : ShaderStore} {index : Nat} {shader : Bytes}
    (h : s.get? index = some shader) : index < s.size :=
  (get?_isSome_iff s index).1 (by rw [h]; rfl)

/-! ## One shader -/

theorem prefix_intern (s : ShaderStore) (shader : Bytes) :
    s.shaders <+: (s.intern shader).2.shaders := by
  unfold intern
  split
  · exact List.prefix_rfl
  · exact List.prefix_append _ _

/-- A shader that is put behind the others is at their number, and the others stay. -/
theorem get?_append_singleton (s : ShaderStore) (shader : Bytes) (positions : List (Bytes × Nat))
    (index : Nat) : get? ⟨s.shaders ++ [shader], positions⟩ index =
      if index = s.size then some shader else s.get? index := by
  rcases Nat.lt_trichotomy index s.size with hlt | rfl | hgt
  · rw [if_neg (Nat.ne_of_lt hlt), get?, get?, List.getElem?_append_left hlt]
  · simp [get?, size]
  · have hlength : (s.shaders ++ [shader]).length ≤ index := by
      rw [List.length_append, List.length_singleton]
      exact hgt
    have hold : s.shaders.length ≤ index := Nat.le_of_lt hgt
    rw [if_neg (Nat.ne_of_gt hgt), get?, get?, List.getElem?_eq_none hlength,
      List.getElem?_eq_none hold]

theorem Indexed.intern {s : ShaderStore} (h : s.Indexed) (shader : Bytes) :
    (s.intern shader).2.Indexed := by
  unfold ShaderStore.intern
  split
  · exact h
  · rename_i hnew
    intro other index
    have hposition : position? ⟨s.shaders ++ [shader], (shader, s.size) :: s.positions⟩ other =
        if other = shader then some s.size else s.position? other := by
      by_cases heq : other = shader
      · simp [position?, heq]
      · have hbeq : (other == shader) = false := by simpa using heq
        simp [position?, heq, List.lookup_cons, hbeq]
    rw [hposition, get?_append_singleton]
    by_cases heq : other = shader
    · subst heq
      rw [if_pos rfl]
      split
      · rename_i hindex
        simp [hindex]
      · -- the old store has no place for the shader, and so does not have it anywhere
        rename_i hindex
        apply iff_of_false (fun hsize => hindex (Option.some.inj hsize).symm)
        intro hget
        rw [(h other index).2 hget] at hnew
        cases hnew
    · rw [if_neg heq, h other index]
      split
      · rename_i hindex
        have hend : s.get? index = none := List.getElem?_eq_none (Nat.le_of_eq hindex.symm)
        rw [hend]
        exact iff_of_false (fun hget => by cases hget) fun hget =>
          heq (Option.some.inj hget).symm
      · exact Iff.rfl

theorem Indexed.get?_intern {s : ShaderStore} (h : s.Indexed) (shader : Bytes) :
    (s.intern shader).2.get? (s.intern shader).1 = some shader := by
  unfold ShaderStore.intern
  split
  · rename_i index hindex
    exact (h shader index).1 hindex
  · simp [get?, size]

/-- A place of the store after interning is an old one or that of the shader. -/
theorem lt_size_intern {s : ShaderStore} {shader : Bytes} {index : Nat}
    (h : index < (s.intern shader).2.size) :
    index < s.size ∨ index = (s.intern shader).1 := by
  unfold intern at h ⊢
  split at h
  · exact Or.inl h
  · simp only [size, List.length_append, List.length_singleton] at h ⊢
    omega

/-! ## Several shaders -/

theorem prefix_internAll (s : ShaderStore) (shaders : List Bytes) :
    s.shaders <+: (s.internAll shaders).2.shaders := by
  induction shaders generalizing s with
  | nil => exact List.prefix_rfl
  | cons shader rest ih => exact (prefix_intern s shader).trans (ih (s.intern shader).2)

theorem Indexed.internAll {s : ShaderStore} (h : s.Indexed) (shaders : List Bytes) :
    (s.internAll shaders).2.Indexed := by
  induction shaders generalizing s with
  | nil => exact h
  | cons shader rest ih => exact ih (h.intern shader)

/-- The places that are answered lead to the shaders. -/
theorem Indexed.get?_internAll {s : ShaderStore} (h : s.Indexed) (shaders : List Bytes) :
    (s.internAll shaders).1.map (s.internAll shaders).2.get? = shaders.map some := by
  induction shaders generalizing s with
  | nil => rfl
  | cons shader rest ih =>
    simp only [ShaderStore.internAll, List.map_cons]
    rw [ih (h.intern shader)]
    congr 1
    -- the shaders that are interned later leave the first one where it is
    exact get?_of_prefix (prefix_internAll _ rest) (h.get?_intern shader)

theorem lt_size_internAll {s : ShaderStore} {shaders : List Bytes} {index : Nat}
    (h : index < (s.internAll shaders).2.size) :
    index < s.size ∨ index ∈ (s.internAll shaders).1 := by
  induction shaders generalizing s with
  | nil => exact Or.inl h
  | cons shader rest ih =>
    simp only [internAll, List.mem_cons]
    rcases ih h with hlt | hmem
    · rcases lt_size_intern hlt with hlt | rfl
      · exact Or.inl hlt
      · exact Or.inr (Or.inl rfl)
    · exact Or.inr (Or.inr hmem)

/-! ## Compaction -/

/-- What compaction does to the shaders from `first` on, given the store `kept` of those kept
so far: the store stays indexed and only grows, every kept position moves to a place of its
shader, and every new place is that of a kept position. -/
theorem compactFrom_spec (isKept : Nat → Bool) (first : Nat) (shaders : List Bytes)
    {kept : ShaderStore} (h : kept.Indexed) :
    let result := compactFrom isKept first shaders kept
    result.2.Indexed ∧ kept.shaders <+: result.2.shaders ∧
      (∀ i shader, shaders[i]? = some shader → isKept (first + i) = true →
        ∃ place, result.1[i]? = some (some place) ∧ result.2.get? place = some shader) ∧
      ∀ place, place < result.2.size → place < kept.size ∨
        ∃ i, i < shaders.length ∧ isKept (first + i) = true ∧
          result.1[i]? = some (some place) := by
  -- induction on the shaders still to come: `first` moves on with them, and `kept` holds those
  -- that were kept before, so the store is general and not the empty one
  induction shaders generalizing first kept with
  | nil => exact ⟨h, List.prefix_rfl, by simp, fun place hplace => Or.inl hplace⟩
  | cons shader rest ih =>
    simp only [compactFrom]
    split
    -- the first shader is kept: it has the place that interning gives it
    · rename_i hfirst
      obtain ⟨hindexed, hprefix, hkept, hplaces⟩ := ih (first + 1) (h.intern shader)
      refine ⟨hindexed, (prefix_intern kept shader).trans hprefix, ?_, ?_⟩
      · intro i other hother hi
        cases i with
        | zero =>
          simp only [List.getElem?_cons_zero, Option.some.injEq] at hother
          subst hother
          exact ⟨_, List.getElem?_cons_zero, get?_of_prefix hprefix (h.get?_intern shader)⟩
        | succ i =>
          have hi' : isKept (first + 1 + i) = true := by rwa [Nat.add_assoc, Nat.add_comm 1 i]
          simpa using hkept i other (by simpa using hother) hi'
      · intro place hplace
        rcases hplaces place hplace with hlt | ⟨i, hlen, hi, hmoves⟩
        · rcases lt_size_intern hlt with hlt | rfl
          · exact Or.inl hlt
          · exact Or.inr ⟨0, by simp, by simpa using hfirst, by simp⟩
        · have hi' : isKept (first + (i + 1)) = true := by rwa [Nat.add_comm i 1, ← Nat.add_assoc]
          exact Or.inr ⟨i + 1, by simpa using hlen, hi', by simpa using hmoves⟩
    -- the first shader is dropped: nothing is said of its position
    · rename_i hfirst
      obtain ⟨hindexed, hprefix, hkept, hplaces⟩ := ih (first + 1) h
      refine ⟨hindexed, hprefix, ?_, ?_⟩
      · intro i other hother hi
        cases i with
        | zero => exact absurd hi hfirst
        | succ i =>
          have hi' : isKept (first + 1 + i) = true := by rwa [Nat.add_assoc, Nat.add_comm 1 i]
          simpa using hkept i other (by simpa using hother) hi'
      · intro place hplace
        rcases hplaces place hplace with hlt | ⟨i, hlen, hi, hmoves⟩
        · exact Or.inl hlt
        · have hi' : isKept (first + (i + 1)) = true := by rwa [Nat.add_comm i 1, ← Nat.add_assoc]
          exact Or.inr ⟨i + 1, by simpa using hlen, hi', by simpa using hmoves⟩

theorem follow_of_getElem? {moves : Moves} {index place : Nat}
    (h : moves[index]? = some (some place)) : moves.follow index = place := by
  simp [Moves.follow, h]

theorem indexed_compact (s : ShaderStore) (isKept : Nat → Bool) : (s.compact isKept).2.Indexed :=
  (compactFrom_spec isKept 0 s.shaders indexed_empty).1

/-- A kept shader is found where its position has moved to. -/
theorem get?_follow_compact {s : ShaderStore} {isKept : Nat → Bool} {index : Nat}
    {shader : Bytes} (hget : s.get? index = some shader) (hkept : isKept index = true) :
    (s.compact isKept).2.get? ((s.compact isKept).1.follow index) = some shader := by
  obtain ⟨-, -, hplace, -⟩ := compactFrom_spec isKept 0 s.shaders indexed_empty
  obtain ⟨place, hmoves, hget⟩ := hplace index shader hget (by rwa [Nat.zero_add])
  rw [compact, follow_of_getElem? hmoves]
  exact hget

/-- Every place of a compacted store is one that a kept position has moved to. -/
theorem exists_follow_compact {s : ShaderStore} {isKept : Nat → Bool} {place : Nat}
    (h : place < (s.compact isKept).2.size) :
    ∃ index, index < s.size ∧ isKept index = true ∧ (s.compact isKept).1.follow index = place := by
  obtain ⟨-, -, -, hplaces⟩ := compactFrom_spec isKept 0 s.shaders indexed_empty
  rcases hplaces place h with hlt | ⟨index, hindex, hkept, hmoves⟩
  · exact absurd hlt (Nat.not_lt_zero _)
  · rw [Nat.zero_add] at hkept
    exact ⟨index, hindex, hkept, follow_of_getElem? hmoves⟩

end PipelineArchive.ShaderStore
