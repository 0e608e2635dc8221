import PipelineArchive.Container.Image
import PipelineArchive.Proofs.Parts
import PipelineArchive.Proofs.Results

/-!
# Packed data

Data follow one another, each with its padding. Every datum starts behind the packed form of
those before it: `getElem?_placesFrom` says that this is the place that is written down, and
`hasAt_packed` that the datum stands there. `length_packed` is the size that is predicted.

A number is written down as a 32-bit word. `word_eq_ok_iff` says that a word that is written
stands for the number, so that whatever was written can be taken for what was meant.
-/

set_option autoImplicit false

namespace PipelineArchive.Container

/-! ## Words -/

/-- A word is written for a number exactly if it stands for it. -/
theorem word_eq_ok_iff {n : Nat} {w : UInt32} : word n = .ok w ↔ w.toNat = n := by
  unfold word
  constructor
  · intro h
    split at h
    · rename_i hn
      injection h with h
      rw [← h, UInt32.toNat_ofNat_of_lt' hn]
    · cases h
  · rintro rfl
    rw [if_pos w.toNat_lt, UInt32.ofNat_toNat]

theorem exists_word {n : Nat} (h : n < UInt32.size) : ∃ w, word n = .ok w := ⟨_, if_pos h⟩

/-! ## Sizes -/

theorem le_paddedSize (size : Nat) : size ≤ paddedSize size := Nat.le_add_right _ _

@[simp] theorem length_padTo (bytes : Bytes) :
    (Bytes.padTo alignment bytes).length = paddedSize bytes.length := by
  simp [Bytes.padTo, paddedSize, Bytes.alignedSize]

@[simp] theorem totalSize_append (xs ys : List Nat) :
    totalSize (xs ++ ys) = totalSize xs + totalSize ys := by
  induction xs with
  | nil => simp [totalSize]
  | cons x rest ih =>
    simp only [List.cons_append, totalSize, ih]
    omega

theorem le_totalSize {xs : List Nat} {x : Nat} (h : x ∈ xs) : x ≤ totalSize xs := by
  induction xs with
  | nil => cases h
  | cons y rest ih =>
    simp only [totalSize]
    rcases List.mem_cons.1 h with rfl | h
    · omega
    · have := ih h
      omega

theorem length_flatMap {α : Type} (f : α → Bytes) (xs : List α) :
    (xs.flatMap f).length = totalSize (xs.map fun x => (f x).length) := by
  induction xs with
  | nil => rfl
  | cons x rest ih => rw [List.flatMap_cons, List.length_append, ih, List.map_cons, totalSize]

/-- An archive has as many bytes as its pieces together. -/
theorem length_imageBytes (i : Image) :
    i.bytes.length = totalSize (i.pieces.map List.length) := by
  have hpieces := length_flatMap id i.pieces
  rwa [List.flatMap_id, ← i.bytes_eq] at hpieces

/-! ## Places -/

@[simp] theorem packed_nil : packed [] = [] := rfl

@[simp] theorem packed_none (rest : List (Option Bytes)) :
    packed (none :: rest) = packed rest := rfl

@[simp] theorem packed_some (data : Bytes) (rest : List (Option Bytes)) :
    packed (some data :: rest) = Bytes.padTo alignment data ++ packed rest := rfl

theorem length_packed (data : List (Option Bytes)) :
    (packed data).length = totalSize ((data.filterMap id).map fun d => paddedSize d.length) := by
  induction data with
  | nil => rfl
  | cons first rest ih =>
    cases first with
    | none => exact ih
    | some d => simp [ih, totalSize]

theorem length_packed_some (data : List Bytes) :
    (packed (data.map some)).length = totalSize (data.map fun d => paddedSize d.length) := by
  rw [length_packed, List.filterMap_map, Function.id_comp, List.filterMap_some]

@[simp] theorem length_placesFrom (offset : Nat) (data : List (Option Bytes)) :
    (placesFrom offset data).length = data.length := by
  induction data generalizing offset with
  | nil => rfl
  | cons first rest ih =>
    cases first with
    | none => simp [placesFrom, ih]
    | some d => simp [placesFrom, ih]

/-- The place of a datum is behind the packed form of those before it. -/
theorem getElem?_placesFrom (offset : Nat) (data : List (Option Bytes)) (i : Nat) :
    (placesFrom offset data)[i]? = data[i]?.map fun d =>
      d.map fun bytes => (offset + (packed (data.take i)).length, bytes.length) := by
  induction data generalizing offset i with
  | nil => rfl
  | cons first rest ih =>
    cases i with
    | zero => cases first <;> rfl
    | succ i =>
      cases first with
      -- an absent datum takes no place
      | none => simp [placesFrom, ih]
      | some d =>
        simp only [placesFrom, List.getElem?_cons_succ, ih, List.take_succ_cons, packed_some,
          List.length_append, length_padTo, Nat.add_assoc]

/-- A datum stands behind the packed form of those before it. -/
theorem hasAt_packed {data : List (Option Bytes)} {i : Nat} {d : Bytes}
    (h : data[i]? = some (some d)) : (packed data).HasAt (packed (data.take i)).length d := by
  induction data generalizing i with
  | nil => cases h
  | cons first rest ih =>
    cases i with
    | zero =>
      injection h with h
      rw [h]
      -- behind the datum come its padding and the rest
      exact ⟨[], List.replicate (Bytes.padding alignment d.length) 0 ++ packed rest,
        by simp [Bytes.padTo], rfl⟩
    | succ i =>
      cases first with
      | none => exact ih h
      | some other =>
        simp only [List.take_succ_cons, packed_some, List.length_append]
        exact (ih h).prepend _

/-- Packed data that are not empty end with the last datum and its padding. -/
theorem exists_last_packed {data : List (Option Bytes)} (h : packed data ≠ []) :
    ∃ i d, data[i]? = some (some d) ∧
      packed data = packed (data.take i) ++ Bytes.padTo alignment d := by
  induction data with
  | nil => exact absurd packed_nil h
  | cons first rest ih =>
    by_cases hrest : packed rest = []
    · -- nothing is packed behind the first datum
      cases first with
      | none => exact absurd hrest h
      | some d => exact ⟨0, d, rfl, by simp [hrest]⟩
    · obtain ⟨i, d, hd, hlast⟩ := ih hrest
      refine ⟨i + 1, d, hd, ?_⟩
      cases first with
      | none => exact hlast
      | some other =>
        rw [packed_some, hlast, List.take_succ_cons, packed_some, List.append_assoc]

/-- A packed datum ends no later than the data. -/
theorem packed_take_add_le {data : List (Option Bytes)} {i : Nat} {d : Bytes}
    (h : data[i]? = some (some d)) :
    (packed (data.take i)).length + d.length ≤ (packed data).length := (hasAt_packed h).le_length

end PipelineArchive.Container
