import PipelineArchive.Layout.Matching
import PipelineArchive.Layout.Pipeline
import PipelineArchive.Proofs.Results

/-!
# What is placed, and in which order

A layout moves the resources of a signature to places, and changes nothing else of them: apart
from the places its bindings are those the signature had before (`allocate_spec`). A pipeline has
the bindings of its signatures in binding order (`ofSignatures_spec`), so that a search through its
layout finds what a search through the unplaced resources finds (`find?_ofSignatures`). Signatures
with indices of their own stand in strict order (`inBindingOrder_pairwise`).
-/

set_option autoImplicit false

namespace PipelineArchive

open Results

namespace LayoutBinding

/-- A resource without its place. -/
def withoutPlace (b : LayoutBinding) : LayoutBinding := b.placedAt 0 0

/-- Bindings that agree without their places differ in their places only. -/
theorem exists_place {moved b : LayoutBinding} (h : moved.withoutPlace = b.withoutPlace) :
    ∃ set binding, moved = { b with set := set, binding := binding } := by
  refine ⟨moved.set, moved.binding, ?_⟩
  cases moved
  cases b
  cases h
  rfl

end LayoutBinding

namespace SignatureLayout

/-! ## One signature -/

section

variable {σ : Type} {place : σ → LayoutBinding → Except ArchiveError (LayoutBinding × σ)}
  {state next : σ} {unplaced placed : List LayoutBinding}

/-- The first resource is placed, and then the others after it. -/
theorem placeAll_cons_eq_ok_iff {b : LayoutBinding} :
    placeAll place state (b :: unplaced) = .ok (placed, next) ↔
      ∃ moved middle others, place state b = .ok (moved, middle) ∧
        placeAll place middle unplaced = .ok (others, next) ∧ placed = moved :: others := by
  simp only [placeAll]
  cases hfirst : place state b with
  | error e => simp
  | ok first =>
    obtain ⟨moved, middle⟩ := first
    cases hrest : placeAll place middle unplaced with
    | error e => simp [hrest]
    | ok others =>
      obtain ⟨others, last⟩ := others
      simp [hrest, eq_comm, and_comm]

/-- What holds of each resource where it is placed holds of all of them. -/
theorem forall_placeAll {p : LayoutBinding → Prop}
    (hplace : ∀ state b moved next, place state b = .ok (moved, next) → p moved)
    (h : placeAll place state unplaced = .ok (placed, next)) : ∀ b ∈ placed, p b := by
  induction unplaced generalizing state placed with
  | nil =>
    cases h
    exact List.forall_mem_nil _
  | cons b rest ih =>
    obtain ⟨moved, middle, others, hfirst, hrest, rfl⟩ := placeAll_cons_eq_ok_iff.1 h
    exact List.forall_mem_cons.2 ⟨hplace state b moved middle hfirst, ih hrest⟩

/-- Placing that moves each resource moves all of them. -/
theorem placeAll_spec (hplace : ∀ state b placed next, place state b = .ok (placed, next) →
      placed.withoutPlace = b.withoutPlace)
    (h : placeAll place state unplaced = .ok (placed, next)) :
    placed.map LayoutBinding.withoutPlace = unplaced.map LayoutBinding.withoutPlace := by
  induction unplaced generalizing state placed with
  | nil =>
    cases h
    rfl
  | cons b rest ih =>
    obtain ⟨moved, middle, others, hfirst, hrest, rfl⟩ := placeAll_cons_eq_ok_iff.1 h
    rw [List.map_cons, List.map_cons, hplace state b moved middle hfirst, ih hrest]

end

theorem placeVulkan_spec {staticSet dynamicSet : UInt32} {used next : Tally Bool}
    {b placed : LayoutBinding} (h : placeVulkan staticSet dynamicSet used b = .ok (placed, next)) :
    placed.withoutPlace = b.withoutPlace := by
  cases h
  rfl

theorem placeD3d12_spec {space : UInt32} {used next : Tally DescriptorRange}
    {b placed : LayoutBinding} (h : placeD3d12 space used b = .ok (placed, next)) :
    placed.withoutPlace = b.withoutPlace := by
  cases h
  rfl

theorem placeD3d11_spec {signature : String} {used next : Tally (ShaderStage × DescriptorRange)}
    {b placed : LayoutBinding} (h : placeD3d11 signature used b = .ok (placed, next)) :
    placed.withoutPlace = b.withoutPlace := by
  simp only [placeD3d11] at h
  split at h
  · cases h
    rfl
  · split at h
    · cases h
    · cases h
      rfl

theorem placeGl_spec {used next : Tally GlRange} {b placed : LayoutBinding}
    (h : placeGl used b = .ok (placed, next)) : placed.withoutPlace = b.withoutPlace := by
  simp only [placeGl] at h
  split at h <;> cases h <;> rfl

theorem placeMetal_spec {backend : Backend} {signature : String} {used next : Tally MetalArgument}
    {b placed : LayoutBinding} (h : placeMetal backend signature used b = .ok (placed, next)) :
    placed.withoutPlace = b.withoutPlace := by
  simp only [placeMetal] at h
  split at h
  · cases h
  · cases h
    rfl

/-- A layout has the resources of its signature, in their order. -/
theorem allocate_spec {backend : Backend} {signature : Signature} {counters next : Counters}
    {layout : SignatureLayout} (h : allocate backend signature counters = .ok (layout, next)) :
    layout.bindings.map LayoutBinding.withoutPlace =
      (unplaced signature).map LayoutBinding.withoutPlace := by
  cases backend <;>
    obtain ⟨⟨bindings, last⟩, hplaced, h⟩ := map_eq_ok_iff.1 h <;>
    cases h
  case d3d11 => exact placeAll_spec (fun _ _ _ _ => placeD3d11_spec) hplaced
  case d3d12 => exact placeAll_spec (fun _ _ _ _ => placeD3d12_spec) hplaced
  case gl | gles => exact placeAll_spec (fun _ _ _ _ => placeGl_spec) hplaced
  case vulkan => exact placeAll_spec (fun _ _ _ _ => placeVulkan_spec) hplaced
  case metalMacos | metalIos => exact placeAll_spec (fun _ _ _ _ => placeMetal_spec) hplaced

/-- The resources of a signature have no places yet. -/
theorem map_withoutPlace_unplaced (signature : Signature) :
    (unplaced signature).map LayoutBinding.withoutPlace = unplaced signature := by
  simp only [unplaced, List.map_append, List.map_map]
  rfl

/-- Whether a binding is what a search for a name and type looks for. -/
def isFoundBy (name : String) (resourceType : ResourceType) (b : LayoutBinding) : Bool :=
  b.name == name && (b.resourceType == resourceType || b.resourceType.range == resourceType.range)

/-- A search finds the resource that a search through the unplaced ones finds. -/
theorem find?_allocate {backend : Backend} {signature : Signature} {counters next : Counters}
    {layout : SignatureLayout} (h : allocate backend signature counters = .ok (layout, next))
    (name : String) (resourceType : ResourceType) :
    (layout.find? name resourceType).map LayoutBinding.withoutPlace =
      ((unplaced signature).find? (isFoundBy name resourceType)).map
        LayoutBinding.withoutPlace := by
  -- the search looks at nothing that depends on the place
  have hfind (bindings : List LayoutBinding) :
      (bindings.find? (isFoundBy name resourceType)).map LayoutBinding.withoutPlace =
        (bindings.map LayoutBinding.withoutPlace).find? (isFoundBy name resourceType) := by
    rw [List.find?_map]
    rfl
  calc (layout.find? name resourceType).map LayoutBinding.withoutPlace
      = (layout.bindings.map LayoutBinding.withoutPlace).find? (isFoundBy name resourceType) :=
        hfind layout.bindings
    _ = ((unplaced signature).map LayoutBinding.withoutPlace).find?
          (isFoundBy name resourceType) := by rw [allocate_spec h]
    _ = _ := (hfind (unplaced signature)).symm

end SignatureLayout

/-! ## All signatures of a pipeline -/

namespace PipelineLayout

/-- The first signature is laid out, and then the others after it. -/
theorem allocateAll_cons_eq_ok_iff {backend : Backend} {counters : Counters}
    {signature : Signature} {rest : List Signature} {layouts : List SignatureLayout} :
    allocateAll backend counters (signature :: rest) = .ok layouts ↔
      ∃ layout next others,
        SignatureLayout.allocate backend signature counters = .ok (layout, next) ∧
        allocateAll backend next rest = .ok others ∧ layouts = layout :: others := by
  simp only [allocateAll]
  cases hfirst : SignatureLayout.allocate backend signature counters with
  | error e => simp
  | ok first =>
    obtain ⟨layout, next⟩ := first
    cases hrest : allocateAll backend next rest with
    | error e => simp [hrest]
    | ok others => simp [hrest, eq_comm]

/-- A pipeline is laid out if its signatures in binding order are. -/
theorem ofSignatures_eq_ok_iff {backend : Backend} {signatures : List Signature}
    {layout : PipelineLayout} :
    ofSignatures backend signatures = .ok layout ↔
      ∃ layouts, allocateAll backend {} (Signature.inBindingOrder signatures) = .ok layouts ∧
        layout = ⟨backend, layouts⟩ := by
  unfold ofSignatures
  cases allocateAll backend {} (Signature.inBindingOrder signatures) with
  | error e => simp
  | ok layouts => simp [eq_comm]

theorem ofSignatures_eq_error_iff {backend : Backend} {signatures : List Signature}
    {e : ArchiveError} :
    ofSignatures backend signatures = .error e ↔
      allocateAll backend {} (Signature.inBindingOrder signatures) = .error e := by
  unfold ofSignatures
  cases allocateAll backend {} (Signature.inBindingOrder signatures) with
  | error reason => simp
  | ok layouts => simp

/-- What holds of the bindings of each signature holds of those of all. -/
theorem forall_allocateAll {p : LayoutBinding → Prop} {backend : Backend}
    (hallocate : ∀ signature counters layout next,
      SignatureLayout.allocate backend signature counters = .ok (layout, next) →
        ∀ b ∈ layout.bindings, p b)
    {counters : Counters} {signatures : List Signature} {layouts : List SignatureLayout}
    (h : allocateAll backend counters signatures = .ok layouts) :
    ∀ b ∈ layouts.flatMap (·.bindings), p b := by
  induction signatures generalizing counters layouts with
  | nil =>
    cases h
    exact List.forall_mem_nil _
  | cons signature rest ih =>
    obtain ⟨layout, next, others, hfirst, hrest, rfl⟩ := allocateAll_cons_eq_ok_iff.1 h
    rw [List.flatMap_cons, List.forall_mem_append]
    exact ⟨hallocate signature counters layout next hfirst, ih hrest⟩

/-- Laid out signatures have their resources, in their order. -/
theorem allocateAll_spec {backend : Backend} {counters : Counters} {signatures : List Signature}
    {layouts : List SignatureLayout} (h : allocateAll backend counters signatures = .ok layouts) :
    (layouts.flatMap (·.bindings)).map LayoutBinding.withoutPlace =
      signatures.flatMap SignatureLayout.unplaced := by
  induction signatures generalizing counters layouts with
  | nil =>
    cases h
    rfl
  | cons signature rest ih =>
    obtain ⟨layout, next, others, hfirst, hrest, rfl⟩ := allocateAll_cons_eq_ok_iff.1 h
    rw [List.flatMap_cons, List.flatMap_cons, List.map_append, ih hrest,
      SignatureLayout.allocate_spec hfirst, SignatureLayout.map_withoutPlace_unplaced]

/-- A pipeline has the resources of its signatures in binding order. -/
theorem ofSignatures_spec {backend : Backend} {signatures : List Signature}
    {layout : PipelineLayout} (h : ofSignatures backend signatures = .ok layout) :
    layout.bindings.map LayoutBinding.withoutPlace =
      (Signature.inBindingOrder signatures).flatMap SignatureLayout.unplaced := by
  obtain ⟨layouts, hlayouts, rfl⟩ := ofSignatures_eq_ok_iff.1 h
  exact allocateAll_spec hlayouts

theorem find?_allocateAll {backend : Backend} {counters : Counters} {signatures : List Signature}
    {layouts : List SignatureLayout} (h : allocateAll backend counters signatures = .ok layouts)
    (name : String) (resourceType : ResourceType) :
    (layouts.findSome? fun layout => layout.find? name resourceType).map
        LayoutBinding.withoutPlace =
      (signatures.findSome? fun signature => (SignatureLayout.unplaced signature).find?
        (SignatureLayout.isFoundBy name resourceType)).map LayoutBinding.withoutPlace := by
  induction signatures generalizing counters layouts with
  | nil =>
    cases h
    rfl
  | cons signature rest ih =>
    obtain ⟨layout, next, others, hfirst, hrest, rfl⟩ := allocateAll_cons_eq_ok_iff.1 h
    have hlayout := SignatureLayout.find?_allocate hfirst name resourceType
    rw [List.findSome?_cons, List.findSome?_cons]
    -- either both find something in the first signature, or both go on
    cases hplaced : layout.find? name resourceType with
    | some b =>
      rw [hplaced] at hlayout
      obtain ⟨unplaced, hunplaced, hsame⟩ := Option.map_eq_some_iff.1 hlayout.symm
      rw [hunplaced]
      exact congrArg some hsame.symm
    | none =>
      rw [hplaced] at hlayout
      rw [Option.map_eq_none_iff.1 hlayout.symm]
      exact ih hrest

/-- A search through the layout of a pipeline finds what a search through the resources of its
signatures in binding order finds. -/
theorem find?_ofSignatures {backend : Backend} {signatures : List Signature}
    {layout : PipelineLayout} (h : ofSignatures backend signatures = .ok layout)
    (name : String) (resourceType : ResourceType) :
    (layout.find? name resourceType).map LayoutBinding.withoutPlace =
      ((Signature.inBindingOrder signatures).findSome? fun signature =>
        (SignatureLayout.unplaced signature).find?
          (SignatureLayout.isFoundBy name resourceType)).map LayoutBinding.withoutPlace := by
  obtain ⟨layouts, hlayouts, rfl⟩ := ofSignatures_eq_ok_iff.1 h
  exact find?_allocateAll hlayouts name resourceType

end PipelineLayout

namespace Signature

/-! ## Binding order -/

theorem checkIndicesAfter_eq_ok_iff {seen signatures : List Signature} :
    checkIndicesAfter seen signatures = .ok () ↔
      (∀ s ∈ seen, ∀ t ∈ signatures, s.bindingIndex ≠ t.bindingIndex) ∧
        signatures.Pairwise fun s t => s.bindingIndex ≠ t.bindingIndex := by
  induction signatures generalizing seen with
  | nil => simp [checkIndicesAfter]
  | cons signature rest ih =>
    simp only [checkIndicesAfter]
    split
    · rename_i other hother
      have hmem := List.mem_of_find?_eq_some hother
      have heq : other.bindingIndex = signature.bindingIndex := by
        simpa using List.find?_some hother
      refine iff_of_false (by simp) ?_
      rintro ⟨hseen, -⟩
      exact hseen other hmem signature List.mem_cons_self heq
    · rename_i hnone
      rw [ih, List.pairwise_cons]
      have hnone : ∀ s ∈ seen, s.bindingIndex ≠ signature.bindingIndex := by
        simpa using hnone
      constructor
      · rintro ⟨hseen, hrest⟩
        refine ⟨?_, fun t ht => hseen signature List.mem_cons_self t ht, hrest⟩
        intro s hs t ht
        rcases List.mem_cons.1 ht with rfl | ht
        · exact hnone s hs
        · exact hseen s (List.mem_cons_of_mem _ hs) t ht
      · rintro ⟨hseen, hfirst, hrest⟩
        refine ⟨?_, hrest⟩
        intro s hs t ht
        rcases List.mem_cons.1 hs with rfl | hs
        · exact hfirst t ht
        · exact hseen s hs t (List.mem_cons_of_mem _ ht)

/-- Signatures are accepted if no two of them have the same index. -/
theorem checkIndices_eq_ok_iff {signatures : List Signature} :
    checkIndices signatures = .ok () ↔
      signatures.Pairwise fun s t => s.bindingIndex ≠ t.bindingIndex := by
  simp [checkIndices, checkIndicesAfter_eq_ok_iff]

theorem inBindingOrder_perm (signatures : List Signature) :
    (inBindingOrder signatures).Perm signatures := List.mergeSort_perm _ _

theorem inBindingOrder_sorted (signatures : List Signature) :
    (inBindingOrder signatures).Pairwise fun s t => s.bindingIndex ≤ t.bindingIndex := by
  have hsorted : (inBindingOrder signatures).Pairwise fun s t =>
      decide (s.bindingIndex ≤ t.bindingIndex) = true := by
    refine List.pairwise_mergeSort ?_ ?_ signatures
    · intro s t u hst htu
      simp only [decide_eq_true_eq] at hst htu ⊢
      exact UInt8.le_trans hst htu
    · intro s t
      simp only [Bool.or_eq_true, decide_eq_true_eq]
      exact UInt8.le_total _ _
  exact hsorted.imp of_decide_eq_true

/-- Signatures with indices of their own stand in strict order. -/
theorem inBindingOrder_pairwise {signatures : List Signature}
    (h : checkIndices signatures = .ok ()) :
    (inBindingOrder signatures).Pairwise fun s t => s.bindingIndex < t.bindingIndex := by
  have hdistinct : (inBindingOrder signatures).Pairwise fun s t =>
      s.bindingIndex ≠ t.bindingIndex :=
    ((inBindingOrder_perm signatures).pairwise_iff (fun h => h.symm)).2
      (checkIndices_eq_ok_iff.1 h)
  refine ((inBindingOrder_sorted signatures).and hdistinct).imp ?_
  rintro s t ⟨hle, hne⟩
  exact UInt8.lt_of_le_of_ne hle hne

end Signature

end PipelineArchive
