import PipelineArchive.Proofs.Layout.Slots

/-!
# Tiled slots

The signatures of a pipeline share the units of OpenGL and the argument tables of Metal, while on
Direct3D12 each has a register space for itself if the binding indices differ (`filter_inSpace`).
So the resources that compete for slots take the slots from zero on, without gap or overlap. Only
Metal refuses signatures, exactly if they ask for more slots than a table has
(`exists_ofSignatures_metal_iff`), as far as the slots that they ask for fit in words. All of it is
put together in `ofSignatures_tiled`.
-/

set_option autoImplicit false

namespace PipelineArchive

namespace SignatureLayout

open LayoutBinding

/-! ## The tables of Metal -/

/-- As far as the tables are not overfull and all slots fit in words, resources are placed if they
fit in. -/
theorem exists_placeAll_placeMetal_iff (backend : Backend) (signature : String)
    {used : MetalArgument → Nat} {bs : List LayoutBinding} (hused : ∀ t, used t ≤ t.slotLimit)
    (hfits : ∀ t, count argumentKey used bs t < UInt32.size) :
    (∃ result, placeAll (placeMetal backend signature) (words used) bs = .ok result) ↔
      ∀ t, count argumentKey used bs t ≤ t.slotLimit := by
  induction bs generalizing used with
  | nil => exact iff_of_true ⟨_, rfl⟩ hused
  | cons b rest ih =>
    rw [count_cons] at hfits ⊢
    have hfirst (t : MetalArgument) : count argumentKey used [b] t < UInt32.size :=
      Nat.lt_of_le_of_lt (Nat.le_add_right _ _) (hfits t)
    constructor
    · rintro ⟨⟨placed, next⟩, h⟩
      obtain ⟨moved, middle, others, hone, hrest, -⟩ := placeAll_cons_eq_ok_iff.1 h
      obtain ⟨hlimit, rfl, rfl⟩ := placeMetal_eq_ok_iff.1 hone
      refine (ih (fun t => ?_) hfits).1 ⟨_, hrest⟩
      -- only the table of the first resource is fuller than before
      by_cases ht : MetalArgument.of b.resourceType = t
      · subst ht
        rwa [toNat_words (hfirst _)] at hlimit
      · have hother : ¬argumentKey b.resourceType = some t := fun h => ht (Option.some.inj h)
        rw [count, slotSum_under_singleton, if_neg hother]
        exact hused t
    · intro h
      obtain ⟨⟨others, next⟩, hrest⟩ := (ih (fun t => Nat.le_of_add_right_le (h t)) hfits).2 h
      have hlimit : (words (count argumentKey used [b]) (MetalArgument.of b.resourceType)).toNat ≤
          (MetalArgument.of b.resourceType).slotLimit := by
        rw [toNat_words (hfirst _)]
        exact Nat.le_of_add_right_le (h _)
      exact ⟨(_, next), placeAll_cons_eq_ok_iff.2 ⟨_, _, others,
        placeMetal_eq_ok_iff.2 ⟨hlimit, rfl, rfl⟩, hrest, rfl⟩⟩

theorem exists_allocate_metal_iff {backend : Backend} (hbackend : backend.isMetal)
    {counters : Counters} {used : MetalArgument → Nat} (hcounters : counters.arguments = words used)
    (hused : ∀ t, used t ≤ t.slotLimit) {signature : Signature}
    (hfits : ∀ t, count argumentKey used (unplaced signature) t < UInt32.size) :
    (∃ result, allocate backend signature counters = .ok result) ↔
      ∀ t, count argumentKey used (unplaced signature) t ≤ t.slotLimit := by
  rw [← exists_placeAll_placeMetal_iff backend signature.name hused hfits, ← hcounters]
  cases backend <;> cases hbackend
  all_goals
    constructor
    · rintro ⟨result, h⟩
      obtain ⟨placed, hplaced, -⟩ := Results.map_eq_ok_iff.1 h
      exact ⟨placed, hplaced⟩
    · rintro ⟨placed, hplaced⟩
      exact ⟨_, Results.map_eq_ok_iff.2 ⟨placed, hplaced, rfl⟩⟩

/-- Metal compares the slot behind a resource with the size of its table, as words have it. -/
theorem stop_le_of_placeMetal {backend : Backend} {signature : String}
    {used next : Tally MetalArgument} {b placed : LayoutBinding}
    (h : placeMetal backend signature used b = .ok (placed, next)) :
    placed.stop.toNat ≤ (MetalArgument.of placed.resourceType).slotLimit := by
  simp only [placeMetal] at h
  split at h
  · cases h
  · rename_i hlimit
    cases h
    exact Nat.not_lt.1 hlimit

/-! ## Spaces of registers -/

/-- All registers of a signature are in its space. -/
theorem set_of_mem_serial {space : UInt32} {used : DescriptorRange → Nat}
    {bs : List LayoutBinding} {b : LayoutBinding}
    (hb : b ∈ serial registerKey (fun _ => space) used bs) : b.set = space := by
  induction bs generalizing used with
  | nil => cases hb
  | cons first rest ih =>
    rcases List.mem_cons.1 hb with rfl | hb
    · rfl
    · exact ih hb

/-- The resources of a signature on Direct3D12. -/
def inSpace (signature : Signature) : List LayoutBinding :=
  serial registerKey (fun _ => signature.bindingIndex.toUInt32) (fun _ => 0) (unplaced signature)

/-- A space has the resources of one signature at most, if the indices differ. -/
theorem filter_inSpace {signatures : List Signature}
    (h : signatures.Pairwise fun s t => s.bindingIndex ≠ t.bindingIndex) (space : UInt32) :
    (signatures.flatMap inSpace).filter (·.set = space) = [] ∨
      ∃ s ∈ signatures, (signatures.flatMap inSpace).filter (·.set = space) = inSpace s := by
  have hset {s : Signature} {b : LayoutBinding} (hb : b ∈ inSpace s) :
      b.set = s.bindingIndex.toUInt32 := set_of_mem_serial hb
  induction signatures with
  | nil => exact .inl rfl
  | cons s rest ih =>
    obtain ⟨hfirst, hrest⟩ := List.pairwise_cons.1 h
    rw [List.flatMap_cons, List.filter_append]
    -- the space is the one of the first signature, and of no other, or it is one of the rest
    by_cases hs : s.bindingIndex.toUInt32 = space
    · refine .inr ⟨s, List.mem_cons_self, ?_⟩
      have hown : (inSpace s).filter (·.set = space) = inSpace s := by
        refine List.filter_eq_self.2 fun b hb => ?_
        rw [hset hb, hs, decide_eq_true rfl]
      have hothers : (rest.flatMap inSpace).filter (·.set = space) = [] := by
        refine List.filter_eq_nil_iff.2 fun b hb => ?_
        obtain ⟨t, ht, hb⟩ := List.mem_flatMap.1 hb
        rw [hset hb, ← hs, decide_eq_true_eq]
        exact fun hsame => hfirst t ht (UInt8.toUInt32_inj.1 hsame).symm
      rw [hown, hothers, List.append_nil]
    · have hown : (inSpace s).filter (·.set = space) = [] := by
        refine List.filter_eq_nil_iff.2 fun b hb => ?_
        rw [hset hb, decide_eq_true_eq]
        exact hs
      rw [hown, List.nil_append]
      rcases ih hrest with hnone | ⟨t, ht, hone⟩
      · exact .inl hnone
      · exact .inr ⟨t, List.mem_cons_of_mem s ht, hone⟩

end SignatureLayout

/-! ## All signatures of a pipeline -/

namespace PipelineLayout

open LayoutBinding SignatureLayout

section

variable {backend : Backend} {counters : Counters} {signatures : List Signature}
  {layouts : List SignatureLayout}

/-- Signatures are all laid out if each of them is, whatever was laid out before. -/
theorem exists_allocateAll
    (hallocate : ∀ signature counters, ∃ result, allocate backend signature counters = .ok result)
    (counters : Counters) (signatures : List Signature) :
    ∃ layouts, allocateAll backend counters signatures = .ok layouts := by
  induction signatures generalizing counters with
  | nil => exact ⟨[], rfl⟩
  | cons signature rest ih =>
    obtain ⟨⟨layout, next⟩, hfirst⟩ := hallocate signature counters
    obtain ⟨others, hrest⟩ := ih next
    exact ⟨layout :: others,
      allocateAll_cons_eq_ok_iff.2 ⟨layout, next, others, hfirst, hrest, rfl⟩⟩

/-- Slots that are counted up from one signature to the next are counted as if all resources
belonged to one signature. -/
theorem flatMap_bindings_of_countsUp {κ : Type} [DecidableEq κ] {tally : Counters → Tally κ}
    {key : ResourceType → Option κ} {set : ResourceType → UInt32} {used : κ → Nat}
    (hcounts : CountsUp backend tally key set) (hused : tally counters = words used)
    (h : allocateAll backend counters signatures = .ok layouts) :
    layouts.flatMap (·.bindings) = serial key set used (signatures.flatMap unplaced) := by
  induction signatures generalizing counters used layouts with
  | nil =>
    cases h
    rfl
  | cons signature rest ih =>
    obtain ⟨layout, next, others, hfirst, hrest, rfl⟩ := allocateAll_cons_eq_ok_iff.1 h
    obtain ⟨hbindings, hnext⟩ := hcounts signature counters used layout next hused hfirst
    rw [List.flatMap_cons, List.flatMap_cons, serial_append, hbindings, ih hnext hrest]

theorem flatMap_bindings_d3d12 (h : allocateAll .d3d12 counters signatures = .ok layouts) :
    layouts.flatMap (·.bindings) = signatures.flatMap inSpace := by
  induction signatures generalizing counters layouts with
  | nil =>
    cases h
    rfl
  | cons signature rest ih =>
    obtain ⟨layout, next, others, hfirst, hrest, rfl⟩ := allocateAll_cons_eq_ok_iff.1 h
    obtain ⟨own, hown, hbindings⟩ := allocate_d3d12 signature counters
    cases hown.symm.trans hfirst
    rw [List.flatMap_cons, List.flatMap_cons, hbindings, ih hrest, inSpace]

/-- As far as the tables of Metal are not overfull and all slots fit in words, signatures are laid
out if they fit in. -/
theorem exists_allocateAll_metal_iff (hbackend : backend.isMetal) {used : MetalArgument → Nat}
    (hcounters : counters.arguments = words used) (hused : ∀ t, used t ≤ t.slotLimit)
    (hfits : ∀ t, count argumentKey used (signatures.flatMap unplaced) t < UInt32.size) :
    (∃ layouts, allocateAll backend counters signatures = .ok layouts) ↔
      ∀ t, count argumentKey used (signatures.flatMap unplaced) t ≤ t.slotLimit := by
  induction signatures generalizing counters used with
  | nil => exact iff_of_true ⟨_, rfl⟩ hused
  | cons signature rest ih =>
    rw [List.flatMap_cons, count_append] at hfits ⊢
    have hone := exists_allocate_metal_iff hbackend hcounters hused
      fun t => Nat.lt_of_le_of_lt (Nat.le_add_right _ _) (hfits t)
    constructor
    · rintro ⟨layouts, h⟩
      obtain ⟨layout, next, others, hfirst, hrest, -⟩ := allocateAll_cons_eq_ok_iff.1 h
      obtain ⟨-, hnext⟩ := countsUp_metal hbackend _ _ _ layout next hcounters hfirst
      exact (ih hnext (hone.1 ⟨_, hfirst⟩) hfits).1 ⟨others, hrest⟩
    · intro h
      have hlimits (t : MetalArgument) := Nat.le_of_add_right_le (h t)
      obtain ⟨⟨layout, next⟩, hfirst⟩ := hone.2 hlimits
      obtain ⟨-, hnext⟩ := countsUp_metal hbackend _ _ _ layout next hcounters hfirst
      obtain ⟨others, hrest⟩ := (ih hnext hlimits hfits).2 h
      exact ⟨layout :: others,
        allocateAll_cons_eq_ok_iff.2 ⟨layout, next, others, hfirst, hrest, rfl⟩⟩

/-- The resources of a range in one register space are tiled. -/
theorem tiled_registers {layout : PipelineLayout} (h : ofSignatures .d3d12 signatures = .ok layout)
    (hindices : signatures.Pairwise fun s t => s.bindingIndex ≠ t.bindingIndex) (space : UInt32)
    (range : DescriptorRange)
    (hfits : slotSum (under registerKey range (layout.bindings.filter (·.set = space))) <
      UInt32.size) :
    Tiled (under registerKey range (layout.bindings.filter (·.set = space))) := by
  obtain ⟨layouts, hlayouts, rfl⟩ := ofSignatures_eq_ok_iff.1 h
  have hbindings : PipelineLayout.bindings ⟨.d3d12, layouts⟩ =
      (Signature.inBindingOrder signatures).flatMap inSpace := flatMap_bindings_d3d12 hlayouts
  have hordered : (Signature.inBindingOrder signatures).Pairwise fun s t =>
      s.bindingIndex ≠ t.bindingIndex :=
    ((Signature.inBindingOrder_perm signatures).pairwise_iff fun h => h.symm).2 hindices
  rw [hbindings] at hfits ⊢
  rcases filter_inSpace hordered space with hnone | ⟨s, -, hone⟩
  · rw [hnone]
    rfl
  · rw [hone] at hfits ⊢
    rw [inSpace, slotSum_under_serial] at hfits
    exact tiled_of_flatMap_slots (flatMap_slots_serial (by rwa [count, Nat.zero_add]))

/-- The resources of a key are tiled where slots are counted up from one signature to the next. -/
theorem tiled_of_countsUp {κ : Type} [DecidableEq κ] {tally : Counters → Tally κ}
    {key : ResourceType → Option κ} {set : ResourceType → UInt32}
    (hcounts : CountsUp backend tally key set) (hzero : tally {} = words fun _ => 0)
    {layout : PipelineLayout} (h : ofSignatures backend signatures = .ok layout) {k : κ}
    (hfits : slotSum (under key k layout.bindings) < UInt32.size) :
    Tiled (under key k layout.bindings) := by
  obtain ⟨layouts, hlayouts, rfl⟩ := ofSignatures_eq_ok_iff.1 h
  have hbindings : PipelineLayout.bindings ⟨backend, layouts⟩ = serial key set (fun _ => 0)
      ((Signature.inBindingOrder signatures).flatMap unplaced) :=
    flatMap_bindings_of_countsUp hcounts hzero hlayouts
  rw [hbindings] at hfits ⊢
  rw [slotSum_under_serial] at hfits
  exact tiled_of_flatMap_slots (flatMap_slots_serial (by rwa [count, Nat.zero_add]))

/-- The signatures of a pipeline ask for the same slots in any order. -/
theorem slotSum_under_inBindingOrder {κ : Type} [DecidableEq κ] (key : ResourceType → Option κ)
    (k : κ) (signatures : List Signature) :
    slotSum (under key k ((Signature.inBindingOrder signatures).flatMap unplaced)) =
      slotSum (under key k (signatures.flatMap unplaced)) := by
  have hperm : ((Signature.inBindingOrder signatures).flatMap unplaced).Perm
      (signatures.flatMap unplaced) := (Signature.inBindingOrder_perm signatures).flatMap_right _
  exact slotSum_perm (hperm.filter _)

/-- A layout has the slots that its signatures ask for. -/
theorem slotSum_under_bindings {κ : Type} [DecidableEq κ] (key : ResourceType → Option κ) (k : κ)
    {layout : PipelineLayout} (h : ofSignatures backend signatures = .ok layout) :
    slotSum (under key k layout.bindings) =
      slotSum (under key k (signatures.flatMap unplaced)) := by
  rw [← slotSum_under_withoutPlace, ofSignatures_spec h, slotSum_under_inBindingOrder]

/-- On Metal, the slot behind each binding is inside of the table, or at its end, as words have
it. -/
theorem stop_le_slotLimit (hbackend : backend.isMetal) {layout : PipelineLayout}
    (h : ofSignatures backend signatures = .ok layout) :
    ∀ b ∈ layout.bindings, b.stop.toNat ≤ (MetalArgument.of b.resourceType).slotLimit := by
  obtain ⟨layouts, hlayouts, rfl⟩ := ofSignatures_eq_ok_iff.1 h
  refine forall_allocateAll (fun signature counters layout next hlayout => ?_) hlayouts
  cases backend <;> cases hbackend
  all_goals
    obtain ⟨⟨placed, arguments⟩, hplaced, hlayout⟩ := Results.map_eq_ok_iff.1 hlayout
    cases hlayout
    exact forall_placeAll (fun _ _ _ _ => stop_le_of_placeMetal) hplaced

/-- Metal lays out the signatures of a pipeline if they fit into its tables. -/
theorem exists_ofSignatures_metal_iff (hbackend : backend.isMetal)
    (hfits : ∀ table, slotSum (under argumentKey table (signatures.flatMap unplaced)) <
      UInt32.size) :
    (∃ layout, ofSignatures backend signatures = .ok layout) ↔
      ∀ table, slotSum (under argumentKey table (signatures.flatMap unplaced)) ≤
        table.slotLimit := by
  have hcount (table : MetalArgument) : count argumentKey (fun _ => 0)
      ((Signature.inBindingOrder signatures).flatMap unplaced) table =
        slotSum (under argumentKey table (signatures.flatMap unplaced)) := by
    rw [count, Nat.zero_add, slotSum_under_inBindingOrder]
  have hall := @exists_allocateAll_metal_iff backend {} (Signature.inBindingOrder signatures)
    hbackend (fun _ => 0) rfl (fun _ => Nat.zero_le _)
  simp only [hcount] at hall
  rw [← hall hfits]
  simp only [ofSignatures_eq_ok_iff]
  constructor
  · rintro ⟨layout, layouts, h, -⟩
    exact ⟨layouts, h⟩
  · rintro ⟨layouts, h⟩
    exact ⟨_, layouts, h, rfl⟩

end

/-- Where slots are counted up, resources take them in the order of the signatures and of their
resources, from zero on, without gap or overlap: those of one range in one register space on
Direct3D12, of one class of units on OpenGL, of one argument table on Metal. Signatures are always
laid out, but for those that ask for more slots than a table of Metal has. The slots must fit in
words, in which they are counted. -/
theorem ofSignatures_tiled (signatures : List Signature)
    (hindices : signatures.Pairwise fun s t => s.bindingIndex ≠ t.bindingIndex) :
    (∃ layout, ofSignatures .d3d12 signatures = .ok layout ∧
      layout.bindings.map withoutPlace =
        (Signature.inBindingOrder signatures).flatMap unplaced ∧
      ∀ space range,
        slotSum (under registerKey range (layout.bindings.filter (·.set = space))) < UInt32.size →
          Tiled (under registerKey range (layout.bindings.filter (·.set = space)))) ∧
    (∀ backend : Backend, backend.isGl → ∃ layout, ofSignatures backend signatures = .ok layout ∧
      layout.bindings.map withoutPlace =
        (Signature.inBindingOrder signatures).flatMap unplaced ∧
      ∀ range, slotSum (under GlRange.of? range layout.bindings) < UInt32.size →
        Tiled (under GlRange.of? range layout.bindings)) ∧
    ∀ backend : Backend, backend.isMetal →
      (∀ table, slotSum (under argumentKey table (signatures.flatMap unplaced)) < UInt32.size) →
      ((∃ e, ofSignatures backend signatures = .error e) ↔
        ∃ table, table.slotLimit <
          slotSum (under argumentKey table (signatures.flatMap unplaced))) ∧
      ∀ layout, ofSignatures backend signatures = .ok layout →
        layout.bindings.map withoutPlace =
          (Signature.inBindingOrder signatures).flatMap unplaced ∧
        (∀ table, Tiled (under argumentKey table layout.bindings)) ∧
        ∀ b ∈ layout.bindings,
          b.binding.toNat + b.slotCount ≤ (MetalArgument.of b.resourceType).slotLimit := by
  refine ⟨?_, fun backend hbackend => ?_, fun backend hbackend hfits => ⟨?_, fun layout h => ?_⟩⟩
  · obtain ⟨layouts, hlayouts⟩ := exists_allocateAll
      exists_allocate_d3d12 {} (Signature.inBindingOrder signatures)
    have h := ofSignatures_eq_ok_iff.2 ⟨layouts, hlayouts, rfl⟩
    exact ⟨_, h, ofSignatures_spec h, tiled_registers h hindices⟩
  · obtain ⟨layouts, hlayouts⟩ := exists_allocateAll (exists_allocate_gl hbackend) {}
      (Signature.inBindingOrder signatures)
    have h := ofSignatures_eq_ok_iff.2 ⟨layouts, hlayouts, rfl⟩
    exact ⟨_, h, ofSignatures_spec h, fun range => tiled_of_countsUp (countsUp_gl hbackend) rfl h⟩
  · have hsome := exists_ofSignatures_metal_iff hbackend hfits
    simp only [← Nat.not_le, ← not_forall, ← hsome]
    cases ofSignatures backend signatures <;> simp
  · have hsum (table : MetalArgument) :
        slotSum (under argumentKey table layout.bindings) ≤ table.slotLimit := by
      rw [slotSum_under_bindings argumentKey table h]
      exact (exists_ofSignatures_metal_iff hbackend hfits).1 ⟨layout, h⟩ table
    have htiled (table : MetalArgument) : Tiled (under argumentKey table layout.bindings) :=
      tiled_of_countsUp (countsUp_metal hbackend) rfl h
        (Nat.lt_of_le_of_lt (hsum table) (by cases table <;> decide))
    refine ⟨ofSignatures_spec h, htiled, fun b hb => ?_⟩
    have hmem : b ∈ under argumentKey (MetalArgument.of b.resourceType) layout.bindings :=
      List.mem_filter.2 ⟨hb, decide_eq_true rfl⟩
    exact Nat.le_trans ((htiled _).stop_le hmem) (hsum _)

/-- A signature with an array, a sampler without bound and an immutable sampler of its own. -/
def arraySignature : Signature where
  name := "array"
  bindingIndex := 0
  resources := [
    { name := "g_Textures", stages := .singleton .pixel, arraySize := 3
      resourceType := .textureSrv, varType := .static },
    { name := "g_Samplers", stages := .singleton .pixel, arraySize := 0
      resourceType := .sampler, varType := .static }]
  immutableSamplers := [⟨.singleton .pixel, "g_Shadow", {}⟩]

/-- A signature with one more texture. -/
def overlaySignature : Signature where
  name := "overlay"
  bindingIndex := 1
  resources := [
    { name := "g_Overlay", stages := .singleton .pixel, arraySize := 1
      resourceType := .textureSrv, varType := .static }]
  immutableSamplers := []

theorem inBindingOrder_overlaySignature :
    Signature.inBindingOrder [overlaySignature, arraySignature] =
      [arraySignature, overlaySignature] := by
  simp [Signature.inBindingOrder, List.mergeSort, overlaySignature, arraySignature]

/-- Given in the reverse order, the two signatures share the units of textures on OpenGL, where
samplers have no place, and two tables of Metal. -/
theorem ofSignatures_tiled_overlaySignature :
    ([overlaySignature, arraySignature].Pairwise fun s t => s.bindingIndex ≠ t.bindingIndex) ∧
    (∀ table, slotSum (under argumentKey table
      ([overlaySignature, arraySignature].flatMap unplaced)) < UInt32.size) ∧
    (∃ layout, ofSignatures .gl [overlaySignature, arraySignature] = .ok layout ∧
      slotSum (under GlRange.of? .textureUnit layout.bindings) < UInt32.size ∧
      Tiled (under GlRange.of? .textureUnit layout.bindings) ∧
      layout.bindings.map (fun b => (b.name, b.binding)) =
        [("g_Textures", 0), ("g_Samplers", 0), ("g_Shadow", 0), ("g_Overlay", 3)]) ∧
    ∃ layout, ofSignatures .metalMacos [overlaySignature, arraySignature] = .ok layout ∧
      (∀ table, Tiled (under argumentKey table layout.bindings)) ∧
      layout.bindings.map (fun b => (b.name, b.set, b.binding)) =
        [("g_Textures", 1, 0), ("g_Samplers", 2, 0), ("g_Shadow", 2, 1), ("g_Overlay", 1, 3)] := by
  have hindices : [overlaySignature, arraySignature].Pairwise fun s t =>
      s.bindingIndex ≠ t.bindingIndex := by decide
  obtain ⟨-, hgl, hmetal⟩ := ofSignatures_tiled [overlaySignature, arraySignature] hindices
  obtain ⟨layout, hlayout, -, htiled⟩ := hgl .gl rfl
  have hunits : (ofSignatures .gl [overlaySignature, arraySignature]).map
      (fun l => l.bindings.map fun b => (b.name, b.binding)) =
      .ok [("g_Textures", 0), ("g_Samplers", 0), ("g_Shadow", 0), ("g_Overlay", 3)] := by
    rw [ofSignatures, inBindingOrder_overlaySignature]
    decide
  have harguments : (ofSignatures .metalMacos [overlaySignature, arraySignature]).map
      (fun l => l.bindings.map fun b => (b.name, b.set, b.binding)) =
      .ok [("g_Textures", 1, 0), ("g_Samplers", 2, 0), ("g_Shadow", 2, 1),
        ("g_Overlay", 1, 3)] := by
    rw [ofSignatures, inBindingOrder_overlaySignature]
    decide
  have hfits : slotSum (under GlRange.of? .textureUnit layout.bindings) < UInt32.size := by
    rw [slotSum_under_bindings _ _ hlayout]
    decide
  have htables (table : MetalArgument) : slotSum (under argumentKey table
      ([overlaySignature, arraySignature].flatMap unplaced)) < UInt32.size := by
    cases table <;> decide
  obtain ⟨metal, hmetalLayout, hplaces⟩ := Results.map_eq_ok_iff.1 harguments
  rw [hlayout] at hunits
  exact ⟨hindices, htables, ⟨layout, hlayout, hfits, htiled _ hfits, Except.ok.inj hunits⟩,
    metal, hmetalLayout, ((hmetal .metalMacos rfl htables).2 metal hmetalLayout).2.1, hplaces⟩

end PipelineLayout

end PipelineArchive
