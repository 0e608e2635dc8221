import Mathlib.Algebra.GroupWithZero.Nat
import Mathlib.Data.List.Basic
import PipelineArchive.Proofs.Layout.Placing

/-!
# Slots

A resource takes as many slots in a row as it has elements. On Direct3D12, OpenGL and Metal the
slots are counted up under keys: the range of a register, the class of a unit, the argument table.
A resource gets the slots behind those that resources of its key have taken (`serial`), so that
the resources of one key take slots without gap or overlap (`flatMap_slots_serial`). The counts
start again with every signature on Direct3D12 (`allocate_d3d12`) and go on from one signature to
the next on OpenGL and Metal (`CountsUp`).

The counters are words, which start again from zero behind the largest one. What they hold are
always the words of the numbers that have been counted (`words`), for adding words is adding
numbers; so the numbers are told first, and where they fit in words, the words are these numbers.
-/

set_option autoImplicit false

namespace PipelineArchive

/-! ## Largest values -/

theorem foldl_max_le_iff {values : List Nat} {start bound : Nat} :
    values.foldl max start ≤ bound ↔ start ≤ bound ∧ ∀ value ∈ values, value ≤ bound := by
  induction values generalizing start with
  | nil => simp
  | cons first rest ih =>
    rw [List.foldl_cons, ih, Nat.max_le, List.forall_mem_cons, and_assoc]

theorem toNat_foldl_max (values : List UInt32) (start : UInt32) :
    (values.foldl max start).toNat = (values.map UInt32.toNat).foldl max start.toNat := by
  induction values generalizing start with
  | nil => rfl
  | cons first rest ih => rw [List.foldl_cons, ih, UInt32.toNat_max, List.map_cons, List.foldl_cons]

theorem toNat_foldl_max_le_iff {values : List UInt32} {bound : Nat} :
    (values.foldl max 0).toNat ≤ bound ↔ ∀ value ∈ values, value.toNat ≤ bound := by
  rw [toNat_foldl_max, foldl_max_le_iff, UInt32.toNat_zero, and_iff_right (Nat.zero_le bound)]
  simp only [List.forall_mem_map]

namespace LayoutBinding

/-! ## Slots of resources -/

/-- How many slots a resource takes. -/
def slotCount (b : LayoutBinding) : Nat := b.span.toNat

/-- The slots that a resource takes in its place. -/
def slots (b : LayoutBinding) : List Nat := List.range' b.binding.toNat b.slotCount

/-- The slot behind a resource, as a word. -/
def stop (b : LayoutBinding) : UInt32 := b.binding + b.span

/-- How many slots resources take together. -/
def slotSum (bs : List LayoutBinding) : Nat := (bs.map slotCount).sum

/-- The resources take the slots from zero on, one after another, without gap or overlap. -/
def Tiled (bs : List LayoutBinding) : Prop := bs.flatMap slots = List.range (slotSum bs)

theorem slotCount_pos (b : LayoutBinding) : 0 < b.slotCount := by
  rw [slotCount, span, UInt32.toNat_max]
  exact Nat.lt_of_lt_of_le Nat.zero_lt_one (Nat.le_max_right _ _)

/-- Where the end of a resource fits in words, it is the sum that words have. -/
theorem toNat_add_span {slot : UInt32} {b : LayoutBinding}
    (h : slot.toNat + b.slotCount < UInt32.size) :
    (slot + b.span).toNat = slot.toNat + b.slotCount := by
  rw [UInt32.toNat_add]
  exact Nat.mod_eq_of_lt h

theorem slots_placedAt (b : LayoutBinding) (set : UInt32) {slot : Nat} (h : slot < UInt32.size) :
    (b.placedAt set (UInt32.ofNat slot)).slots = List.range' slot b.slotCount := by
  rw [slots, placedAt, UInt32.toNat_ofNat_of_lt' h]
  rfl

theorem slotSum_cons (b : LayoutBinding) (bs : List LayoutBinding) :
    slotSum (b :: bs) = b.slotCount + slotSum bs := by
  rw [slotSum, List.map_cons, List.sum_cons, slotSum]

theorem slotSum_append (bs cs : List LayoutBinding) :
    slotSum (bs ++ cs) = slotSum bs + slotSum cs := by
  rw [slotSum, List.map_append, List.sum_append, slotSum, slotSum]

theorem slotSum_perm {bs cs : List LayoutBinding} (h : bs.Perm cs) : slotSum bs = slotSum cs :=
  (h.map slotCount).sum_nat

theorem length_flatMap_slots (bs : List LayoutBinding) :
    (bs.flatMap slots).length = slotSum bs := by
  simp only [List.length_flatMap, slots, List.length_range', slotSum]

/-- Resources whose slots are those from zero up to some number are tiled. -/
theorem tiled_of_flatMap_slots {bs : List LayoutBinding} {count : Nat}
    (h : bs.flatMap slots = List.range' 0 count) : Tiled bs := by
  have hlength := congrArg List.length h
  rw [length_flatMap_slots, List.length_range'] at hlength
  rw [Tiled, h, hlength, List.range_eq_range']

/-- A tiled resource ends at or before the number of slots that are taken. -/
theorem Tiled.stop_le {bs : List LayoutBinding} (h : Tiled bs) {b : LayoutBinding} (hb : b ∈ bs) :
    b.binding.toNat + b.slotCount ≤ slotSum bs := by
  have hpos := b.slotCount_pos
  have hlast : b.binding.toNat + b.slotCount - 1 ∈ b.slots := by
    rw [slots, List.mem_range'_1]
    omega
  have hmem := List.mem_flatMap.2 ⟨b, hb, hlast⟩
  rw [h, List.mem_range] at hmem
  omega

/-! ## Counting under keys -/

/-- Counts as words hold them. -/
def words {κ : Type} (used : κ → Nat) : Tally κ := fun k => UInt32.ofNat (used k)

theorem words_zero {κ : Type} : words (fun _ : κ => 0) = fun _ => 0 := rfl

theorem toNat_words {κ : Type} {used : κ → Nat} {k : κ} (h : used k < UInt32.size) :
    (words used k).toNat = used k := UInt32.toNat_ofNat_of_lt' h

section

variable {κ : Type} [DecidableEq κ] {key : ResourceType → Option κ} {set : ResourceType → UInt32}
  {used : κ → Nat} {bs cs : List LayoutBinding}

/-- The resources that are counted under a key. -/
def under (key : ResourceType → Option κ) (k : κ) (bs : List LayoutBinding) : List LayoutBinding :=
  bs.filter fun b => key b.resourceType = some k

theorem under_append (k : κ) (bs cs : List LayoutBinding) :
    under key k (bs ++ cs) = under key k bs ++ under key k cs := List.filter_append ..

theorem under_cons (k : κ) (b : LayoutBinding) (bs : List LayoutBinding) :
    under key k (b :: bs) = under key k [b] ++ under key k bs := under_append k [b] bs

/-- What is counted does not depend on places. -/
theorem slotSum_under_withoutPlace (k : κ) (bs : List LayoutBinding) :
    slotSum (under key k (bs.map withoutPlace)) = slotSum (under key k bs) := by
  rw [under, under, List.filter_map, slotSum, slotSum, List.map_map]
  rfl

theorem slotSum_under_congr (h : bs.map withoutPlace = cs.map withoutPlace) (k : κ) :
    slotSum (under key k bs) = slotSum (under key k cs) := by
  rw [← slotSum_under_withoutPlace, h, slotSum_under_withoutPlace]

/-- A resource is counted under its own key only. -/
theorem slotSum_under_singleton (k : κ) (b : LayoutBinding) :
    slotSum (under key k [b]) = if key b.resourceType = some k then b.slotCount else 0 := by
  by_cases hkey : key b.resourceType = some k <;> simp [under, hkey, slotSum]

/-- The slots that are counted after some resources. -/
def count (key : ResourceType → Option κ) (used : κ → Nat) (bs : List LayoutBinding) : κ → Nat :=
  fun k => used k + slotSum (under key k bs)

theorem count_append : count key used (bs ++ cs) = count key (count key used bs) cs := by
  funext k
  rw [count, under_append, slotSum_append, ← Nat.add_assoc]
  rfl

theorem count_cons (b : LayoutBinding) :
    count key used (b :: bs) = count key (count key used [b]) bs := by
  rw [← List.singleton_append, count_append]

/-- In words, a resource is counted by adding its slots to the count of its key. -/
theorem words_count_of_some {b : LayoutBinding} {k : κ} (hkey : key b.resourceType = some k) :
    words (count key used [b]) = (words used).set k (words used k + b.span) := by
  funext other
  rw [words, count, slotSum_under_singleton, hkey, Tally.set]
  by_cases hother : other = k
  · rw [if_pos (congrArg some hother.symm), if_pos hother, UInt32.ofNat_add, slotCount,
      UInt32.ofNat_toNat, words, hother]
  · rw [if_neg fun h => hother (Option.some.inj h).symm, if_neg hother]
    rfl

theorem words_count_of_none {b : LayoutBinding} (hkey : key b.resourceType = none) :
    words (count key used [b]) = words used := by
  funext k
  rw [words, count, slotSum_under_singleton, hkey, if_neg nofun]
  rfl

/-- A resource in the place behind the counted ones; one without a key stays where it is. -/
def serialPlace (key : ResourceType → Option κ) (set : ResourceType → UInt32) (used : κ → Nat)
    (b : LayoutBinding) : LayoutBinding :=
  match key b.resourceType with
  | none => b
  | some k => b.placedAt (set b.resourceType) (words used k)

/-- Resources one after another, each behind those of its key. -/
def serial (key : ResourceType → Option κ) (set : ResourceType → UInt32) :
    (κ → Nat) → List LayoutBinding → List LayoutBinding
  | _, [] => []
  | used, b :: rest => serialPlace key set used b :: serial key set (count key used [b]) rest

theorem under_serialPlace (k : κ) (b : LayoutBinding) :
    under key k [serialPlace key set used b] =
      (under key k [b]).map fun b => b.placedAt (set b.resourceType) (words used k) := by
  unfold serialPlace
  cases hkey : key b.resourceType with
  | none => simp [under, hkey]
  | some own =>
    by_cases hk : own = k
    · subst hk
      simp [under, hkey, placedAt]
    · simp [under, hkey, hk, placedAt]

/-- Counting goes on behind the resources of a first list. -/
theorem serial_append :
    serial key set used (bs ++ cs) = serial key set used bs ++
      serial key set (count key used bs) cs := by
  -- the counts are general, for they grow with every resource
  induction bs generalizing used with
  | nil => rfl
  | cons b rest ih => rw [List.cons_append, serial, serial, List.cons_append, ih, ← count_cons]

/-- Placing does not change how many slots resources take. -/
theorem slotSum_under_serial (k : κ) (bs : List LayoutBinding) :
    slotSum (under key k (serial key set used bs)) = slotSum (under key k bs) := by
  induction bs generalizing used with
  | nil => rfl
  | cons b rest ih =>
    have hown : slotSum (under key k [serialPlace key set used b]) =
        slotSum (under key k [b]) := by
      rw [under_serialPlace, slotSum, slotSum, List.map_map]
      rfl
    rw [serial, under_cons, under_cons k b, slotSum_append, slotSum_append, hown, ih]

/-- The resources of a key take the slots behind the counted ones, as far as these fit in words. -/
theorem flatMap_slots_serial {k : κ} (hfits : count key used bs k < UInt32.size) :
    (under key k (serial key set used bs)).flatMap slots =
      List.range' (used k) (slotSum (under key k bs)) := by
  induction bs generalizing used with
  | nil => rfl
  | cons b rest ih =>
    rw [count_cons] at hfits
    have hused : used k < UInt32.size :=
      Nat.lt_of_le_of_lt (Nat.le_trans (Nat.le_add_right _ _) (Nat.le_add_right _ _)) hfits
    rw [serial, under_cons, under_cons k b, List.flatMap_append, under_serialPlace,
      slotSum_append, ih hfits, count, ← List.range'_append_1]
    congr 1
    -- a resource of another key takes no slot of this one, nor moves its count
    by_cases hkey : key b.resourceType = some k
    · simp only [under, hkey, decide_true, List.filter_cons_of_pos, List.filter_nil, List.map_cons,
        List.map_nil, List.flatMap_singleton, slotSum_cons]
      rw [words, slots_placedAt b _ hused]
      rfl
    · simp [under, hkey, slotSum]

end

end LayoutBinding

namespace SignatureLayout

open LayoutBinding

/-! ## Backends that count slots -/

section

variable {κ : Type} [DecidableEq κ] {key : ResourceType → Option κ} {set : ResourceType → UInt32}
  {place : Tally κ → LayoutBinding → Except ArchiveError (LayoutBinding × Tally κ)}

/-- Where a resource is placed, it is placed behind those of its key. -/
def IsSerial (key : ResourceType → Option κ) (set : ResourceType → UInt32)
    (place : Tally κ → LayoutBinding → Except ArchiveError (LayoutBinding × Tally κ)) : Prop :=
  ∀ used b placed next, place (words used) b = .ok (placed, next) →
    placed = serialPlace key set used b ∧ next = words (count key used [b])

theorem IsSerial.placeAll (hplace : IsSerial key set place) {used : κ → Nat} {next : Tally κ}
    {bs placed : List LayoutBinding} (h : placeAll place (words used) bs = .ok (placed, next)) :
    placed = serial key set used bs ∧ next = words (count key used bs) := by
  induction bs generalizing used placed with
  | nil =>
    cases h
    exact ⟨rfl, rfl⟩
  | cons b rest ih =>
    obtain ⟨moved, middle, others, hfirst, hrest, rfl⟩ := placeAll_cons_eq_ok_iff.1 h
    obtain ⟨rfl, rfl⟩ := hplace used b moved middle hfirst
    obtain ⟨rfl, rfl⟩ := ih hrest
    exact ⟨rfl, congrArg words (count_cons b).symm⟩

/-- Resources are all placed if each of them is, whatever was placed before. -/
theorem exists_placeAll {σ : Type}
    {place : σ → LayoutBinding → Except ArchiveError (LayoutBinding × σ)}
    (hplace : ∀ state b, ∃ result, place state b = .ok result) (state : σ)
    (bs : List LayoutBinding) : ∃ result, placeAll place state bs = .ok result := by
  induction bs generalizing state with
  | nil => exact ⟨_, rfl⟩
  | cons b rest ih =>
    obtain ⟨⟨moved, middle⟩, hfirst⟩ := hplace state b
    obtain ⟨⟨others, next⟩, hrest⟩ := ih middle
    exact ⟨(moved :: others, next),
      placeAll_cons_eq_ok_iff.2 ⟨moved, middle, others, hfirst, hrest, rfl⟩⟩

end

/-- Registers are counted by range. -/
def registerKey (t : ResourceType) : Option DescriptorRange := some t.range

/-- Arguments are counted by table. -/
def argumentKey (t : ResourceType) : Option MetalArgument := some (MetalArgument.of t)

/-- The number of the argument table of a resource, which is its set on Metal. -/
def argumentSet (t : ResourceType) : UInt32 := UInt32.ofNat (MetalArgument.of t).ordinal

theorem isSerial_placeD3d12 (space : UInt32) :
    IsSerial registerKey (fun _ => space) (placeD3d12 space) := by
  intro used b placed next h
  cases h
  have hcount : words (count registerKey used [b]) =
      (words used).set b.resourceType.range (words used b.resourceType.range + b.span) :=
    words_count_of_some rfl
  exact ⟨rfl, hcount.symm⟩

theorem isSerial_placeGl : IsSerial GlRange.of? (fun _ => 0) placeGl := by
  intro used b placed next h
  unfold serialPlace
  simp only [placeGl] at h
  cases hrange : GlRange.of? b.resourceType <;>
    rw [hrange] at h <;>
    cases h
  · exact ⟨rfl, (words_count_of_none hrange).symm⟩
  · exact ⟨rfl, (words_count_of_some hrange).symm⟩

/-- Metal places a resource if its table has slots enough behind the counted ones, as far as words
tell. -/
theorem placeMetal_eq_ok_iff {backend : Backend} {signature : String}
    {used : MetalArgument → Nat} {next : Tally MetalArgument} {b placed : LayoutBinding} :
    placeMetal backend signature (words used) b = .ok (placed, next) ↔
      (words (count argumentKey used [b]) (MetalArgument.of b.resourceType)).toNat ≤
          (MetalArgument.of b.resourceType).slotLimit ∧
        placed = serialPlace argumentKey argumentSet used b ∧
        next = words (count argumentKey used [b]) := by
  have hcount : words (count argumentKey used [b]) =
      (words used).set (MetalArgument.of b.resourceType)
        (words used (MetalArgument.of b.resourceType) + b.span) := words_count_of_some rfl
  rw [hcount, Tally.set, if_pos rfl, ← Nat.not_lt]
  simp only [placeMetal]
  split
  · rename_i hover
    refine iff_of_false (fun h => ?_) fun h => h.1 hover
    cases h
  · rename_i hfits
    rw [Except.ok.injEq, Prod.mk.injEq, eq_comm, @eq_comm _ _ next]
    exact (and_iff_right hfits).symm

theorem isSerial_placeMetal (backend : Backend) (signature : String) :
    IsSerial argumentKey argumentSet (placeMetal backend signature) :=
  fun _ _ _ _ h => (placeMetal_eq_ok_iff.1 h).2

/-- On Direct3D12 a signature is always laid out, with registers counted from zero. -/
theorem allocate_d3d12 (signature : Signature) (counters : Counters) :
    ∃ layout, allocate .d3d12 signature counters = .ok (layout, counters) ∧
      layout.bindings = serial registerKey (fun _ => signature.bindingIndex.toUInt32) (fun _ => 0)
        (unplaced signature) := by
  have hplace (used : Tally DescriptorRange) (b : LayoutBinding) :
      ∃ result, placeD3d12 signature.bindingIndex.toUInt32 used b = .ok result := ⟨_, rfl⟩
  obtain ⟨⟨placed, next⟩, hplaced⟩ := exists_placeAll hplace (fun _ => 0) (unplaced signature)
  rw [← words_zero] at hplaced
  obtain ⟨rfl, -⟩ := (isSerial_placeD3d12 _).placeAll hplaced
  rw [words_zero] at hplaced
  simp only [allocate, hplaced]
  exact ⟨_, rfl, rfl⟩

theorem exists_allocate_d3d12 (signature : Signature) (counters : Counters) :
    ∃ result, allocate .d3d12 signature counters = .ok result :=
  let ⟨_, h, _⟩ := allocate_d3d12 signature counters
  ⟨_, h⟩

/-- The slots that a backend counts up under keys, from one signature to the next. -/
def CountsUp {κ : Type} [DecidableEq κ] (backend : Backend) (tally : Counters → Tally κ)
    (key : ResourceType → Option κ) (set : ResourceType → UInt32) : Prop :=
  ∀ signature counters used layout next, tally counters = words used →
    allocate backend signature counters = .ok (layout, next) →
      layout.bindings = serial key set used (unplaced signature) ∧
        tally next = words (count key used (unplaced signature))

theorem countsUp_gl {backend : Backend} (hbackend : backend.isGl) :
    CountsUp backend Counters.units GlRange.of? (fun _ => 0) := by
  intro signature counters used layout next hused h
  cases backend <;> cases hbackend
  all_goals
    obtain ⟨⟨placed, units⟩, hplaced, h⟩ := Results.map_eq_ok_iff.1 h
    cases h
    rw [hused] at hplaced
    exact isSerial_placeGl.placeAll hplaced

theorem countsUp_metal {backend : Backend} (hbackend : backend.isMetal) :
    CountsUp backend Counters.arguments argumentKey argumentSet := by
  intro signature counters used layout next hused h
  cases backend <;> cases hbackend
  all_goals
    obtain ⟨⟨placed, arguments⟩, hplaced, h⟩ := Results.map_eq_ok_iff.1 h
    cases h
    rw [hused] at hplaced
    exact (isSerial_placeMetal _ _).placeAll hplaced

/-- On OpenGL a signature is always laid out. -/
theorem exists_allocate_gl {backend : Backend} (hbackend : backend.isGl) (signature : Signature)
    (counters : Counters) : ∃ result, allocate backend signature counters = .ok result := by
  have hplace (used : Tally GlRange) (b : LayoutBinding) :
      ∃ result, placeGl used b = .ok result := by
    simp only [placeGl]
    split <;> exact ⟨_, rfl⟩
  obtain ⟨result, hplaced⟩ := exists_placeAll hplace counters.units (unplaced signature)
  cases backend <;> cases hbackend
  all_goals
    simp only [allocate, hplaced]
    exact ⟨_, rfl⟩

end SignatureLayout

end PipelineArchive
