import Mathlib.Data.List.Pairwise
import PipelineArchive.Patch.Binding
import PipelineArchive.Proofs.Description.Stages
import PipelineArchive.Proofs.Layout.Placing

/-!
# Which binding a shader is given

Matching and layout look for a resource in two ways. Matching wants exactly one declaration, and
an immutable sampler declares a resource only for the stages it is visible to. The search through
a layout goes by name and type alone and ends at the first signature in binding order that has
either. It finds a declared resource where matching found it, but an immutable sampler that is
meant for other stages may come first. A binding is visible to the shader exactly if none hides
it so (`resolveAll_visible_iff`).
-/

set_option autoImplicit false

namespace PipelineArchive

open Results

namespace Signature

variable {backend : Backend} {signatures : List Signature} {signature declarer : Signature}
  {stage : ShaderStage} {resource : ReflectedResource} {declared : Option Resource}

/-! ## The one declaration -/

/-- The first immutable sampler of a name, whatever stages it is visible to. -/
def firstSampler? (signature : Signature) (name : String) : Option ImmutableSampler :=
  signature.immutableSamplers.find? fun sampler => sampler.name == name

/-- A declaration of a resource that fits it, and the only one in all signatures. -/
structure OnlyDeclaration (signatures : List Signature) (stage : ShaderStage)
    (resource : ReflectedResource) (declarer : Signature) (declared : Option Resource) : Prop where
  mem : declarer ∈ signatures
  declares : (declarer, declared) ∈ declarations stage resource declarer
  only : ∀ signature ∈ signatures, ∀ d ∈ declarations stage resource signature,
    d = (declarer, declared)
  fits : ∀ r, declared = some r → r.resourceType = resource.resourceType ∧ r.stages.contains stage

theorem misfit?_eq_none {r : Resource} (h : misfit? stage resource signature r = none) :
    r.resourceType = resource.resourceType ∧ r.stages.contains stage := by
  unfold misfit? at h
  split at h
  · cases h
  · rename_i htype
    split at h
    · cases h
    · split at h
      · cases h
      · rename_i hstage
        exact ⟨not_not.1 htype, by simpa using hstage⟩

/-- A declaration names the signature it is in. -/
theorem fst_of_mem_declarations {d : Signature × Option Resource}
    (h : d ∈ declarations stage resource signature) : d.1 = signature := by
  rcases List.mem_append.1 h with h | h
  · obtain ⟨r, -, rfl⟩ := List.mem_map.1 h
    rfl
  · split at h
    · rw [List.mem_singleton.1 h]
    · cases h

theorem mem_declarations_some {r : Resource} :
    (signature, some r) ∈ declarations stage resource signature ↔
      r ∈ signature.resources ∧ r.name = resource.name := by
  unfold declarations
  simp only [List.mem_append, List.mem_map, List.mem_filter, Prod.mk.injEq, true_and,
    Option.some.injEq, exists_eq_right, beq_iff_eq]
  refine or_iff_left ?_
  split <;> simp

/-- An immutable sampler declares a sampler that its signature has no resource for. -/
theorem mem_declarations_none :
    (signature, none) ∈ declarations stage resource signature ↔
      resource.resourceType = .sampler ∧
        (∀ r ∈ signature.resources, r.name = resource.name → r.resourceType ≠ .sampler) ∧
          ∃ sampler ∈ signature.immutableSamplers, sampler.name = resource.name ∧
            sampler.stages.contains stage := by
  have hvisible : (signature.immutableSampler? resource.name (.singleton stage)).isSome ↔
      ∃ sampler ∈ signature.immutableSamplers, sampler.name = resource.name ∧
        sampler.stages.contains stage := by
    simp [immutableSampler?, StageSet.intersects_singleton]
  unfold declarations
  simp only [List.mem_append, List.mem_map, Prod.mk.injEq, reduceCtorEq, and_false, exists_false,
    false_or]
  rw [← hvisible]
  split
  · rename_i h
    simpa using h
  · rename_i h
    simpa using h

/-- A resource without mismatch has one declaration. -/
theorem exists_onlyDeclaration (h : mismatch? signatures stage resource = none) :
    ∃ declarer declared, OnlyDeclaration signatures stage resource declarer declared := by
  -- the declarations of all signatures are a list of one
  have hone {declarer : Signature} {declared : Option Resource}
      (hdeclarations : signatures.flatMap (declarations stage resource) = [(declarer, declared)])
      (hfits : ∀ r, declared = some r →
        r.resourceType = resource.resourceType ∧ r.stages.contains stage) :
      OnlyDeclaration signatures stage resource declarer declared := by
    have hmem : (declarer, declared) ∈ signatures.flatMap (declarations stage resource) := by
      rw [hdeclarations]
      exact List.mem_singleton_self _
    obtain ⟨signature, hsignature, hdeclares⟩ := List.mem_flatMap.1 hmem
    obtain rfl : declarer = signature := fst_of_mem_declarations hdeclares
    refine ⟨hsignature, hdeclares, ?_, hfits⟩
    intro other hother d hd
    have hall := List.mem_flatMap_of_mem hother hd
    rw [hdeclarations] at hall
    exact List.mem_singleton.1 hall
  unfold mismatch? at h
  split at h
  · cases h
  · rename_i declarer hdeclarations
    exact ⟨declarer, none, hone hdeclarations (fun r hr => by cases hr)⟩
  · rename_i declarer r hdeclarations
    refine ⟨declarer, some r, hone hdeclarations ?_⟩
    rintro r' hr'
    cases hr'
    exact misfit?_eq_none h
  · cases h

end Signature

namespace SignatureLayout

variable {signature : Signature} {name : String} {resourceType : ResourceType}

/-! ## The search through one signature -/

/-- A declared resource before it is placed. -/
def resourceBinding (signature : Signature) (r : Resource) : LayoutBinding where
  name := r.name
  resourceType := r.resourceType
  varType := r.varType
  stages := r.stages
  arraySize := r.arraySize
  isImmutable := r.resourceType == .sampler
    && (signature.immutableSampler? r.name r.stages).isSome

/-- An immutable sampler that belongs to no resource, before it is placed. -/
def samplerBinding (sampler : ImmutableSampler) : LayoutBinding where
  name := sampler.name
  resourceType := .sampler
  varType := .static
  stages := sampler.stages
  arraySize := 1
  isImmutable := true

theorem unplaced_eq (signature : Signature) :
    unplaced signature = signature.resources.map (resourceBinding signature) ++
      (signature.immutableSamplers.filter fun s => !isAttached signature s).map samplerBinding :=
  rfl

/-- A resource is found if no other has its name. -/
theorem find?_unplaced_resource {r : Resource} (hmem : r ∈ signature.resources)
    (honly : ∀ other ∈ signature.resources, other.name = r.name → other = r) :
    (unplaced signature).find? (isFoundBy r.name r.resourceType) =
      some (resourceBinding signature r) := by
  -- the resources come before the samplers
  rw [unplaced_eq, List.find?_append, Option.or_eq_some_iff]
  left
  cases hfind : (signature.resources.map (resourceBinding signature)).find?
      (isFoundBy r.name r.resourceType) with
  | none =>
    have hnot := List.find?_eq_none.1 hfind _ (List.mem_map_of_mem hmem)
    simp [isFoundBy, resourceBinding] at hnot
  | some b =>
    obtain ⟨other, hother, rfl⟩ := List.mem_map.1 (List.mem_of_find?_eq_some hfind)
    have hname := List.find?_some hfind
    simp only [isFoundBy, Bool.and_eq_true, beq_iff_eq] at hname
    rw [honly other hother hname.1]

/-- Without a resource of the name, what is found is its first immutable sampler. -/
theorem find?_unplaced_sampler (h : ∀ r ∈ signature.resources, r.name ≠ name) :
    (unplaced signature).find? (isFoundBy name resourceType) =
      if resourceType = .sampler then (signature.firstSampler? name).map samplerBinding
      else none := by
  have hresources : (signature.resources.map (resourceBinding signature)).find?
      (isFoundBy name resourceType) = none := by
    simp only [List.find?_eq_none, List.mem_map, forall_exists_index, and_imp,
      forall_apply_eq_imp_iff₂]
    intro r hr
    simp [isFoundBy, resourceBinding, h r hr]
  -- no sampler of the name belongs to a resource
  have hmatch (sampler : ImmutableSampler) :
      (!isAttached signature sampler && isFoundBy name resourceType (samplerBinding sampler)) =
        (decide (resourceType = .sampler) && sampler.name == name) := by
    by_cases hname : sampler.name = name
    · have hunattached : isAttached signature sampler = false := by
        simp only [isAttached, List.any_eq_false, Bool.and_eq_true, beq_iff_eq]
        rintro r hr ⟨⟨-, hother⟩, -⟩
        exact h r hr (hother.trans hname)
      have htype : (ResourceType.sampler == resourceType ||
          ResourceType.sampler.range == resourceType.range) =
            decide (resourceType = .sampler) := by
        cases resourceType <;> rfl
      simp [hunattached, isFoundBy, samplerBinding, hname, htype]
    · have hne : (sampler.name == name) = false := by simpa using hname
      simp [isFoundBy, samplerBinding, hne]
  have hsamplers : (signature.immutableSamplers.filter fun s => !isAttached signature s).find?
      (fun sampler => isFoundBy name resourceType (samplerBinding sampler)) =
        signature.immutableSamplers.find? fun sampler =>
          decide (resourceType = .sampler) && sampler.name == name := by
    rw [List.find?_filter]
    congr 1
    funext sampler
    rw [← hmatch]
    simp
  rw [unplaced_eq, List.find?_append, hresources, Option.none_or, List.find?_map]
  rw [Function.comp_def, hsamplers]
  by_cases htype : resourceType = .sampler
  · simp [htype, Signature.firstSampler?]
  · simp [htype]

end SignatureLayout

namespace Signature

variable {signatures : List Signature} {signature declarer : Signature}
  {stage : ShaderStage} {resource : ReflectedResource} {declared : Option Resource}

/-! ## The search through all signatures -/

/-- What a search for a reflected resource finds in a signature. -/
def hit? (resource : ReflectedResource) (signature : Signature) : Option LayoutBinding :=
  (SignatureLayout.unplaced signature).find?
    (SignatureLayout.isFoundBy resource.name resource.resourceType)

theorem eq_of_bindingIndex_eq (h : checkIndices signatures = .ok ()) {s t : Signature}
    (hs : s ∈ signatures) (ht : t ∈ signatures) (heq : s.bindingIndex = t.bindingIndex) :
    s = t := by
  have : Std.Symm fun s t : Signature => s.bindingIndex ≠ t.bindingIndex := ⟨fun _ _ h => h.symm⟩
  by_contra hne
  exact (checkIndices_eq_ok_iff.1 h).forall hs ht hne heq

/-- A search finds a binding in a signature and nothing in those bound before. -/
structure EndsAt (signatures : List Signature) (f : Signature → Option LayoutBinding)
    (first : Signature) (b : LayoutBinding) : Prop where
  mem : first ∈ signatures
  hit : f first = some b
  least {other : Signature} : other ∈ signatures → (f other).isSome →
    first.bindingIndex ≤ other.bindingIndex

/-- Nothing is found in a signature that is bound before the one that the search ends at. -/
theorem EndsAt.eq {f : Signature → Option LayoutBinding} {first other : Signature}
    {b : LayoutBinding} (h : EndsAt signatures f first b)
    (hindices : checkIndices signatures = .ok ()) (hmem : other ∈ signatures)
    (hhit : (f other).isSome) (hle : other.bindingIndex ≤ first.bindingIndex) : other = first :=
  eq_of_bindingIndex_eq hindices hmem h.mem (UInt8.le_antisymm hle (h.least hmem hhit))

/-- A search ends at the signature with the least index that it finds something in. -/
theorem exists_endsAt (h : checkIndices signatures = .ok ())
    {f : Signature → Option LayoutBinding}
    (hmem : declarer ∈ signatures) (hhit : (f declarer).isSome) :
    ∃ first b, (inBindingOrder signatures).findSome? f = some b ∧
      EndsAt signatures f first b := by
  have hmem_iff (s : Signature) : s ∈ inBindingOrder signatures ↔ s ∈ signatures :=
    (inBindingOrder_perm signatures).mem_iff
  have hsome : ((inBindingOrder signatures).findSome? f).isSome :=
    List.findSome?_isSome_iff.2 ⟨declarer, (hmem_iff declarer).2 hmem, hhit⟩
  obtain ⟨b, hb⟩ := Option.isSome_iff_exists.1 hsome
  obtain ⟨before, first, after, hsplit, hfirst, hnone⟩ := List.findSome?_eq_some_iff.1 hb
  refine ⟨first, b, hb, (hmem_iff first).1 (by simp [hsplit]), hfirst, ?_⟩
  intro other hother hotherHit
  have hpairwise := inBindingOrder_pairwise h
  rw [hsplit, List.pairwise_append, List.pairwise_cons] at hpairwise
  have hplace : other ∈ before ++ first :: after := hsplit ▸ (hmem_iff other).2 hother
  rcases List.mem_append.1 hplace with hbefore | hafter
  · rw [hnone other hbefore] at hotherHit
    cases hotherHit
  · rcases List.mem_cons.1 hafter with rfl | hafter
    · exact UInt8.le_refl _
    · exact UInt8.le_of_lt (hpairwise.2.1.1 other hafter)

/-! ## Hidden samplers -/

/-- Whether a signature has an immutable sampler of a name and no resource for it, where the
first such sampler is invisible to a stage. -/
def Hides (stage : ShaderStage) (name : String) (signature : Signature) : Prop :=
  (∀ r ∈ signature.resources, r.name = name → r.resourceType ≠ .sampler) ∧
    ∃ sampler, signature.firstSampler? name = some sampler ∧ ¬sampler.stages.contains stage

/-- A sampler is hidden from a stage if a signature hides it that is not bound after the one
that declares it. -/
def IsHidden (signatures : List Signature) (stage : ShaderStage) (resource : ReflectedResource) :
    Prop :=
  resource.resourceType = .sampler ∧
    ∃ hider ∈ signatures, hider.Hides stage resource.name ∧
      ∀ declarer ∈ signatures, declarations stage resource declarer ≠ [] →
        hider.bindingIndex ≤ declarer.bindingIndex

namespace OnlyDeclaration

/-- A resource of the name is the declaration. -/
theorem resource_eq (h : OnlyDeclaration signatures stage resource declarer declared)
    (hmem : signature ∈ signatures) {r : Resource} (hr : r ∈ signature.resources)
    (hname : r.name = resource.name) : signature = declarer ∧ some r = declared := by
  have hdeclares := h.only signature hmem _ (mem_declarations_some.2 ⟨hr, hname⟩)
  exact ⟨congrArg Prod.fst hdeclares, congrArg Prod.snd hdeclares⟩

/-- Signatures other than the declaring one have no resource of the name. -/
theorem no_resource (h : OnlyDeclaration signatures stage resource declarer declared)
    (hmem : signature ∈ signatures) (hother : signature ≠ declarer ∨ declared = none) :
    ∀ r ∈ signature.resources, r.name ≠ resource.name := by
  intro r hr hname
  obtain ⟨hsame, hdeclared⟩ := h.resource_eq hmem hr hname
  rcases hother with hother | hnone
  · exact hother hsame
  · rw [hnone] at hdeclared
    cases hdeclared

/-- What declares a sampler for the stage is the declaration. -/
theorem eq_of_visible (h : OnlyDeclaration signatures stage resource declarer declared)
    (hmem : signature ∈ signatures) (htype : resource.resourceType = .sampler)
    (hresources : ∀ r ∈ signature.resources, r.name ≠ resource.name) {sampler : ImmutableSampler}
    (hsampler : signature.firstSampler? resource.name = some sampler)
    (hvisible : sampler.stages.contains stage) : signature = declarer ∧ declared = none := by
  have hname : sampler.name = resource.name := by simpa using List.find?_some hsampler
  have hdeclares : (signature, none) ∈ declarations stage resource signature :=
    mem_declarations_none.2 ⟨htype, fun r hr hr' => absurd hr' (hresources r hr), sampler,
      List.mem_of_find?_eq_some hsampler, hname, hvisible⟩
  have heq := h.only signature hmem _ hdeclares
  exact ⟨congrArg Prod.fst heq, (congrArg Prod.snd heq).symm⟩

theorem hit?_resource {r : Resource}
    (h : OnlyDeclaration signatures stage resource declarer (some r)) :
    hit? resource declarer = some (SignatureLayout.resourceBinding declarer r) := by
  obtain ⟨hr, hname⟩ := mem_declarations_some.1 h.declares
  rw [hit?, ← hname, ← (h.fits r rfl).1]
  refine SignatureLayout.find?_unplaced_resource hr fun other hother hother' => ?_
  exact Option.some.inj (h.resource_eq h.mem hother (hother'.trans hname)).2

/-- Something is found in the signature that declares a resource. -/
theorem hit?_isSome (h : OnlyDeclaration signatures stage resource declarer declared) :
    (hit? resource declarer).isSome := by
  cases declared with
  | some r =>
    rw [h.hit?_resource]
    rfl
  | none =>
    obtain ⟨htype, -, sampler, hsampler, hname, -⟩ := mem_declarations_none.1 h.declares
    rw [hit?, SignatureLayout.find?_unplaced_sampler (h.no_resource h.mem (.inr rfl)), if_pos htype]
    simpa [firstSampler?] using ⟨sampler, hsampler, hname⟩

theorem isHidden_iff (h : OnlyDeclaration signatures stage resource declarer declared) :
    IsHidden signatures stage resource ↔
      resource.resourceType = .sampler ∧ ∃ hider ∈ signatures,
        hider.Hides stage resource.name ∧ hider.bindingIndex ≤ declarer.bindingIndex := by
  have hleast (hider : Signature) :
      (∀ other ∈ signatures, declarations stage resource other ≠ [] →
        hider.bindingIndex ≤ other.bindingIndex) ↔
          hider.bindingIndex ≤ declarer.bindingIndex := by
    constructor
    · exact fun hall => hall declarer h.mem (List.ne_nil_of_mem h.declares)
    · intro hle other hother hne
      obtain ⟨d, hd⟩ := List.exists_mem_of_ne_nil _ hne
      have hsame : other = declarer :=
        (fst_of_mem_declarations hd).symm.trans (congrArg Prod.fst (h.only other hother d hd))
      exact hsame ▸ hle
  simp only [IsHidden, hleast]

/-- A signature that hides a sampler and does not declare it comes up in the search. -/
theorem hit?_of_hides (h : OnlyDeclaration signatures stage resource declarer declared)
    (htype : resource.resourceType = .sampler) {hider : Signature} (hmem : hider ∈ signatures)
    (hhides : hider.Hides stage resource.name) (hother : hider ≠ declarer ∨ declared = none) :
    (hit? resource hider).isSome := by
  obtain ⟨-, sampler, hsampler, -⟩ := hhides
  rw [hit?, SignatureLayout.find?_unplaced_sampler (h.no_resource hmem hother), if_pos htype,
    hsampler]
  rfl

section

variable {first : Signature} {b : LayoutBinding}

/-- A search that ends at the resource that is the declaration finds a visible binding. -/
theorem visible_of_resource {r : Resource}
    (h : OnlyDeclaration signatures stage resource declarer (some r))
    (hindices : checkIndices signatures = .ok ())
    (hends : EndsAt signatures (hit? resource) declarer b) :
    b.name = resource.name ∧ b.resourceType = resource.resourceType ∧
      (b.stages.contains stage ↔ ¬IsHidden signatures stage resource) := by
  obtain rfl := Option.some.inj (h.hit?_resource.symm.trans hends.hit)
  obtain ⟨hr, hname⟩ := mem_declarations_some.1 h.declares
  obtain ⟨htype, hvisible⟩ := h.fits r rfl
  refine ⟨hname, htype, iff_of_true hvisible ?_⟩
  rw [h.isHidden_iff]
  rintro ⟨hsampler, hider, hmem, hhides, hle⟩
  have hne : hider ≠ declarer := by
    rintro rfl
    exact hhides.1 r hr hname (htype.trans hsampler)
  exact hne (hends.eq hindices hmem (h.hit?_of_hides hsampler hmem hhides (.inl hne)) hle)

/-- A search that ends at an immutable sampler finds a visible binding unless the sampler hides
the declared one. -/
theorem visible_of_sampler (h : OnlyDeclaration signatures stage resource declarer declared)
    (hindices : checkIndices signatures = .ok ())
    (hends : EndsAt signatures (hit? resource) first b)
    (hresources : ∀ r ∈ first.resources, r.name ≠ resource.name) :
    b.name = resource.name ∧ b.resourceType = resource.resourceType ∧
      (b.stages.contains stage ↔ ¬IsHidden signatures stage resource) := by
  have hhit := hends.hit
  rw [hit?, SignatureLayout.find?_unplaced_sampler hresources] at hhit
  split at hhit
  · rename_i htype
    obtain ⟨sampler, hsampler, rfl⟩ := Option.map_eq_some_iff.1 hhit
    have hname : sampler.name = resource.name := by simpa using List.find?_some hsampler
    refine ⟨hname, htype.symm, ?_⟩
    rw [h.isHidden_iff]
    constructor
    · rintro hvisible ⟨-, hider, hmem, hhides, hle⟩
      obtain ⟨rfl, hnone⟩ := h.eq_of_visible hends.mem htype hresources hsampler hvisible
      obtain rfl := hends.eq hindices hmem (h.hit?_of_hides htype hmem hhides (.inr hnone)) hle
      obtain ⟨-, other, hother, hinvisible⟩ := hhides
      rw [hsampler] at hother
      cases hother
      exact hinvisible hvisible
    · intro hnot
      by_contra hinvisible
      exact hnot ⟨htype, first, hends.mem,
        ⟨fun r hr hname => absurd hname (hresources r hr), sampler, hsampler, hinvisible⟩,
        hends.least h.mem h.hit?_isSome⟩
  · cases hhit

end

/-- The search through all signatures finds the name and the type, and a binding that is visible
to the stage if none hides it. -/
theorem search_spec (h : OnlyDeclaration signatures stage resource declarer declared)
    (hindices : checkIndices signatures = .ok ()) :
    ∃ b, (inBindingOrder signatures).findSome? (hit? resource) = some b ∧
      b.name = resource.name ∧ b.resourceType = resource.resourceType ∧
        (b.stages.contains stage ↔ ¬IsHidden signatures stage resource) := by
  obtain ⟨first, b, hb, hends⟩ := exists_endsAt hindices h.mem h.hit?_isSome
  refine ⟨b, hb, ?_⟩
  by_cases hdeclaring : first ≠ declarer ∨ declared = none
  · exact h.visible_of_sampler hindices hends (h.no_resource hends.mem hdeclaring)
  · push Not at hdeclaring
    obtain ⟨rfl, hdeclared⟩ := hdeclaring
    obtain ⟨r, rfl⟩ := Option.ne_none_iff_exists'.1 hdeclared
    exact h.visible_of_resource hindices hends

end OnlyDeclaration

end Signature

namespace Patch

open Signature

variable {backend : Backend} {signatures : List Signature} {shader : CompiledShader}
  {layout : PipelineLayout}

/-- Every resource of an accepted shader has a binding of its name and type, which is visible to
the stage of the shader exactly if no immutable sampler for other stages hides it. -/
theorem resolveAll_visible_iff (hindices : checkIndices signatures = .ok ())
    (hreflection : checkReflection signatures shader.reflection = .ok ())
    (hlayout : PipelineLayout.ofSignatures backend signatures = .ok layout) :
    ∃ resolved, resolveAll backend layout shader = .ok resolved ∧
      resolved.map Prod.fst = shader.reflection.resources ∧
      ∀ pair ∈ resolved, pair.2.name = pair.1.name ∧ pair.2.resourceType = pair.1.resourceType ∧
        (pair.2.stages.contains shader.reflection.stage ↔
          ¬IsHidden signatures shader.reflection.stage pair.1) := by
  have hmatches : ∀ resource ∈ shader.reflection.resources,
      mismatch? signatures shader.reflection.stage resource = none := by
    intro resource hresource
    have hchecked := forM_eq_ok_iff.1 hreflection resource hresource
    split at hchecked
    · cases hchecked
    · assumption
  have hresolve : ∀ resource ∈ shader.reflection.resources, ∃ pair,
      resolve backend layout shader.reflection.stage resource = .ok pair ∧ pair.1 = resource ∧
        pair.2.name = pair.1.name ∧ pair.2.resourceType = pair.1.resourceType ∧
          (pair.2.stages.contains shader.reflection.stage ↔
            ¬IsHidden signatures shader.reflection.stage pair.1) := by
    intro resource hresource
    obtain ⟨declarer, declared, hdeclared⟩ := exists_onlyDeclaration (hmatches resource hresource)
    obtain ⟨b, hsearch, hb⟩ := hdeclared.search_spec hindices
    have hfind := PipelineLayout.find?_ofSignatures hlayout resource.name resource.resourceType
    -- the binding found has everything of the unplaced one but its place
    change _ = ((inBindingOrder signatures).findSome? (hit? resource)).map _ at hfind
    rw [hsearch] at hfind
    obtain ⟨placed, hplaced, hsame⟩ := Option.map_eq_some_iff.1 hfind
    refine ⟨(resource, placed), by rw [resolve, hplaced], rfl, ?_⟩
    have hname : placed.name = b.name := (congrArg LayoutBinding.name hsame :)
    have htype : placed.resourceType = b.resourceType :=
      (congrArg LayoutBinding.resourceType hsame :)
    have hstages : placed.stages = b.stages := (congrArg LayoutBinding.stages hsame :)
    rw [hname, htype, hstages]
    exact hb
  obtain ⟨resolved, hresolved⟩ := exists_forall₂ hresolve
  refine ⟨resolved, mapM_eq_ok_iff.2 (hresolved.imp fun _ _ h => h.1), ?_, ?_⟩
  · have hfirst : List.Forall₂ (fun pair resource => pair.1 = resource) resolved
        shader.reflection.resources := hresolved.flip.imp fun _ _ h => h.2.1
    rwa [← List.forall₂_map_left_iff (f := Prod.fst), List.forall₂_eq_eq_eq] at hfirst
  · intro pair hpair
    obtain ⟨_, _, _, _, hpair⟩ := exists_of_mem_right hresolved hpair
    exact hpair

/-- A signature with a sampler for vertex shaders and one of the same name for compute shaders. -/
def twoSamplers : Signature where
  name := "S"
  bindingIndex := 0
  resources := []
  immutableSamplers := [
    { stages := .singleton .vertex, name := "s", desc := {} },
    { stages := .singleton .compute, name := "s", desc := {} }]

/-- A compute shader that uses the sampler. -/
def samplingShader : CompiledShader where
  backend := .metalMacos
  language := .hlsl
  code := Bytes.ofText "main0(s [[sampler(0)]])"
  entryPoint := "main"
  reflection := {
    stage := .compute
    entryPoint := "main"
    resources := [⟨"s", .sampler, 2, 0, 1, .singleton .compute⟩]
    vertexInputs := [] }

/-- The layout of the signature on Metal: the samplers have the first two slots. -/
def twoSamplersLayout : PipelineLayout where
  backend := .metalMacos
  signatures := [{
    backend := .metalMacos
    name := "S"
    bindingIndex := 0
    bindings := [
      ⟨"s", .sampler, .static, .singleton .vertex, 1, 2, 0, true⟩,
      ⟨"s", .sampler, .static, .singleton .compute, 1, 2, 1, true⟩]
    setCount := 0 }]

theorem ofSignatures_twoSamplers :
    PipelineLayout.ofSignatures .metalMacos [twoSamplers] = .ok twoSamplersLayout := by
  decide +kernel

theorem resolveAll_twoSamplers :
    checkIndices [twoSamplers] = .ok () ∧
      checkReflection [twoSamplers] samplingShader.reflection = .ok () ∧
      ∃ resolved, resolveAll .metalMacos twoSamplersLayout samplingShader = .ok resolved ∧
        resolved.map Prod.fst = samplingShader.reflection.resources ∧
        ∀ pair ∈ resolved, pair.2.name = pair.1.name ∧
          pair.2.resourceType = pair.1.resourceType ∧
          (pair.2.stages.contains samplingShader.reflection.stage ↔
            ¬IsHidden [twoSamplers] samplingShader.reflection.stage pair.1) :=
  ⟨by decide, by decide,
    resolveAll_visible_iff (by decide) (by decide) ofSignatures_twoSamplers⟩

/-- The compute shader is given the sampler for vertex shaders. -/
theorem not_always_visible :
    ¬∀ (backend : Backend) (signatures : List Signature) (shader : CompiledShader)
      (layout : PipelineLayout),
      checkIndices signatures = .ok () →
      checkReflection signatures shader.reflection = .ok () →
      PipelineLayout.ofSignatures backend signatures = .ok layout →
      ∃ resolved, resolveAll backend layout shader = .ok resolved ∧
        ∀ pair ∈ resolved, pair.2.name = pair.1.name ∧
          pair.2.resourceType = pair.1.resourceType ∧
          pair.2.stages.contains shader.reflection.stage := by
  intro h
  obtain ⟨resolved, hresolved, hvisible⟩ := h .metalMacos [twoSamplers] samplingShader
    twoSamplersLayout (by decide) (by decide) ofSignatures_twoSamplers
  have hfirst : resolveAll .metalMacos twoSamplersLayout samplingShader =
      .ok [(⟨"s", .sampler, 2, 0, 1, .singleton .compute⟩,
        ⟨"s", .sampler, .static, .singleton .vertex, 1, 2, 0, true⟩)] := by decide
  rw [hfirst] at hresolved
  cases hresolved
  exact absurd (hvisible _ List.mem_cons_self).2.2 (by decide)

end Patch

end PipelineArchive
