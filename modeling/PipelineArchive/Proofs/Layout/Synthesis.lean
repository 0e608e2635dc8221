import Mathlib.Data.List.Nodup
import Mathlib.Data.List.Perm.Subperm
import PipelineArchive.Proofs.Layout.Merging
import PipelineArchive.Proofs.Layout.Visibility

/-!
# What a synthesized signature serves

A signature made from reflections unites them: it has one resource for every name, which stands for
all reflected resources of that name, with the same type and array size, and with their stages among
its own (`Signature.summarizes_synthesize`). The shaders that a signature was made from therefore
match it, and on every backend where it can be laid out their resources find the bindings made for
them (`synthesize_serves`). An immutable sampler may have the name of a texture or of a sampler: the
search goes by type as well, and the declared resources come before the samplers.
-/

set_option autoImplicit false

namespace PipelineArchive

open Results

namespace Signature

variable {pipeline : String} {reflections : List Reflection} {layout : ResourceLayout}
  {signature : Signature} {reflection : Reflection} {x : ReflectedResource} {declared : Resource}

/-! ## The declarations of a synthesized signature -/

/-- A resource that stands for all of its name in some reflections. -/
structure StandsFor (reflections : List Reflection) (declared : Resource) (x : ReflectedResource) :
    Prop where
  name : declared.name = x.name
  resourceType : declared.resourceType = x.resourceType
  arraySize : declared.arraySize = x.arraySize
  visible : ∀ reflection ∈ reflections, ∀ y ∈ reflection.resources, y.name = x.name →
    ∀ stage, y.stages.contains stage → declared.stages.contains stage

/-- A synthesized signature has the samplers of its layout, and resources that have names of their
own and stand for what was reflected. -/
structure Summarizes (signature : Signature) (reflections : List Reflection)
    (layout : ResourceLayout) : Prop where
  immutableSamplers : signature.immutableSamplers = layout.immutableSamplers
  nodup : (signature.resources.map (·.name)).Nodup
  exists_declared {reflection : Reflection} {x : ReflectedResource} : reflection ∈ reflections →
    x ∈ reflection.resources → ∃ declared ∈ signature.resources, StandsFor reflections declared x

theorem summarizes_synthesize (h : synthesize pipeline reflections layout = .ok signature) :
    Summarizes signature reflections layout where
  immutableSamplers := (unites_synthesize h).immutableSamplers
  nodup := (unites_synthesize h).nodup
  exists_declared {reflection x} hreflection hx := by
    have hx : x ∈ reflections.flatMap (·.resources) := List.mem_flatMap_of_mem hreflection hx
    refine ⟨_, ((unites_synthesize h).exact _).2 ⟨x, hx, rfl⟩, rfl, rfl, rfl, ?_⟩
    intro other hother y hy hname stage hstage
    have hstages := Synthesis.contains_stagesOf (List.mem_flatMap_of_mem hother hy) hstage
    rwa [hname] at hstages

/-- No more resources are declared than were reflected. -/
theorem length_synthesize (h : synthesize pipeline reflections layout = .ok signature) :
    signature.resources.length ≤ (reflections.flatMap (·.resources)).length := by
  have hunites := unites_synthesize h
  have hnames : signature.resources.map (·.name) ⊆
      (reflections.flatMap (·.resources)).map (·.name) := by
    intro name hname
    obtain ⟨r, hr, rfl⟩ := List.mem_map.1 hname
    obtain ⟨x, hx, rfl⟩ := (hunites.exact r).1 hr
    exact List.mem_map_of_mem hx
  have hlength := (hunites.nodup.subperm hnames).length_le
  rwa [List.length_map, List.length_map] at hlength

namespace Summarizes

/-- No other resource of the signature has the name of one. -/
theorem eq_of_name (h : Summarizes signature reflections layout)
    (hdeclared : declared ∈ signature.resources) {other : Resource}
    (hother : other ∈ signature.resources) (hname : other.name = declared.name) :
    other = declared :=
  List.inj_on_of_nodup_map h.nodup hother hdeclared hname

/-- A resource has one declaration, also where an immutable sampler has its name. -/
theorem declarations_eq (h : Summarizes signature reflections layout)
    (hdeclared : declared ∈ signature.resources) (hstands : StandsFor reflections declared x)
    (stage : ShaderStage) :
    declarations stage x signature = [(signature, some declared)] := by
  have hfilter : (signature.resources.filter fun r => r.name == x.name) = [declared] := by
    refine List.perm_singleton.1 ((List.perm_ext_iff_of_nodup
      ((List.Nodup.of_map _ h.nodup).filter _) (List.nodup_singleton declared)).2 fun r => ?_)
    rw [List.mem_filter, List.mem_singleton, beq_iff_eq]
    constructor
    · rintro ⟨hr, hname⟩
      exact h.eq_of_name hdeclared hr (hname.trans hstands.name.symm)
    · rintro rfl
      exact ⟨hdeclared, hstands.name⟩
  have hattached : ¬(x.resourceType = .sampler ∧
      !(signature.resources.any fun r => r.name == x.name && r.resourceType == .sampler) ∧
      (signature.immutableSampler? x.name (.singleton stage)).isSome) := by
    rintro ⟨htype, hnone, -⟩
    rw [Bool.not_eq_true', List.any_eq_false] at hnone
    refine hnone declared hdeclared ?_
    rw [Bool.and_eq_true, beq_iff_eq, beq_iff_eq]
    exact ⟨hstands.name, hstands.resourceType.trans htype⟩
  rw [declarations, hfilter, if_neg hattached]
  rfl

/-- The shaders that a signature was made from match it. -/
theorem checkReflection_eq_ok (h : Summarizes signature reflections layout)
    (hreflection : reflection ∈ reflections)
    (hstages : ∀ x ∈ reflection.resources, x.stages.contains reflection.stage) :
    checkReflection [signature] reflection = .ok () := by
  refine forM_eq_ok_iff.2 fun x hx => ?_
  obtain ⟨declared, hdeclared, hstands⟩ := h.exists_declared hreflection hx
  have hvisible : declared.stages.contains reflection.stage :=
    hstands.visible reflection hreflection x hx rfl _ (hstages x hx)
  have hfits : misfit? reflection.stage x signature declared = none := by
    rw [misfit?, if_neg (not_not.2 hstands.resourceType), hstands.arraySize,
      if_neg (fun hless => UInt32.lt_irrefl _ hless.2), if_neg (by simp [hvisible])]
  simp only [mismatch?, List.flatMap_singleton, h.declarations_eq hdeclared hstands, hfits]

end Summarizes

end Signature

namespace PipelineLayout

variable {backend : Backend} {signature : Signature} {placed : PipelineLayout}

/-! ## The bindings of a single signature -/

/-- The layout of a single signature has its resources, in their order. -/
theorem bindings_singleton (h : ofSignatures backend [signature] = .ok placed) :
    placed.bindings.map LayoutBinding.withoutPlace =
      (SignatureLayout.unplaced signature).map LayoutBinding.withoutPlace := by
  simp only [ofSignatures, Signature.inBindingOrder, List.mergeSort_singleton, allocateAll] at h
  cases hallocate : SignatureLayout.allocate backend signature {} with
  | error e =>
    rw [hallocate] at h
    cases h
  | ok result =>
    obtain ⟨layout, counters⟩ := result
    rw [hallocate] at h
    cases h
    simpa [bindings] using SignatureLayout.allocate_spec hallocate

end PipelineLayout

namespace SignatureLayout

/-- Every immutable sampler of a signature is bound: with the sampler it belongs to, or on its
own. -/
theorem exists_immutable_unplaced {signature : Signature} {sampler : ImmutableSampler}
    (h : sampler ∈ signature.immutableSamplers) :
    ∃ b ∈ unplaced signature, b.name = sampler.name ∧ b.resourceType = .sampler ∧
      b.isImmutable := by
  rw [unplaced_eq]
  cases hattached : isAttached signature sampler with
  | true =>
    obtain ⟨r, hr, hmatch⟩ := List.any_eq_true.1 hattached
    simp only [Bool.and_eq_true, beq_iff_eq] at hmatch
    obtain ⟨⟨htype, hname⟩, hstages⟩ := hmatch
    refine ⟨resourceBinding signature r, List.mem_append_left _ (List.mem_map_of_mem hr), hname,
      htype, ?_⟩
    rw [StageSet.intersects_comm] at hstages
    simp only [resourceBinding, htype, BEq.rfl, Bool.true_and, Signature.immutableSampler?,
      List.find?_isSome]
    exact ⟨sampler, h, by rw [hname, BEq.rfl, hstages, Bool.and_self]⟩
  | false =>
    refine ⟨samplerBinding sampler, List.mem_append_right _ (List.mem_map_of_mem ?_), rfl, rfl, rfl⟩
    exact List.mem_filter.2 ⟨h, by rw [hattached]; rfl⟩

end SignatureLayout

namespace Patch

open Signature

variable {pipeline : String} {reflections : List Reflection} {layout : ResourceLayout}
  {signature : Signature} {backend : Backend} {placed : PipelineLayout}

/-! ## The bindings that shaders are given -/

/-- A binding that serves all shaders that use a resource: it has its name, type and array size,
every stage that sees the resource sees the binding, and it is immutable if the layout has an
immutable sampler for it. -/
structure Serves (reflections : List Reflection) (layout : ResourceLayout) (x : ReflectedResource)
    (b : LayoutBinding) : Prop where
  name : b.name = x.name
  resourceType : b.resourceType = x.resourceType
  arraySize : b.arraySize = x.arraySize
  visible : ∀ reflection ∈ reflections, ∀ y ∈ reflection.resources, y.name = x.name →
    ∀ stage, y.stages.contains stage → b.stages.contains stage
  immutable : b.isImmutable ↔ x.resourceType = .sampler ∧
    ∃ sampler ∈ layout.immutableSamplers, sampler.name = x.name ∧
      sampler.stages.intersects b.stages

theorem serves_resourceBinding (h : Summarizes signature reflections layout)
    {declared : Resource} {x : ReflectedResource} (hstands : StandsFor reflections declared x) :
    Serves reflections layout x (SignatureLayout.resourceBinding signature declared) where
  name := hstands.name
  resourceType := hstands.resourceType
  arraySize := hstands.arraySize
  visible := hstands.visible
  immutable := by
    simp [SignatureLayout.resourceBinding, hstands.resourceType, immutableSampler?,
      h.immutableSamplers, hstands.name]

/-- What serves a resource before it is placed serves it in any place. -/
theorem Serves.of_withoutPlace {x : ReflectedResource} {b moved : LayoutBinding}
    (h : Serves reflections layout x b) (hmoved : moved.withoutPlace = b.withoutPlace) :
    Serves reflections layout x moved := by
  obtain ⟨set, binding, rfl⟩ := LayoutBinding.exists_place hmoved
  exact ⟨h.name, h.resourceType, h.arraySize, h.visible, h.immutable⟩

/-- The search for a resource of a shader ends at the binding made for it. -/
theorem exists_resolve (h : Summarizes signature reflections layout)
    (hplaced : PipelineLayout.ofSignatures backend [signature] = .ok placed)
    {reflection : Reflection} (hreflection : reflection ∈ reflections) {x : ReflectedResource}
    (hx : x ∈ reflection.resources) :
    ∃ b, resolve backend placed reflection.stage x = .ok (x, b) ∧
      Serves reflections layout x b := by
  obtain ⟨declared, hdeclared, hstands⟩ := h.exists_declared hreflection hx
  have hfound := SignatureLayout.find?_unplaced_resource hdeclared
    fun other hother hname => h.eq_of_name hdeclared hother hname
  rw [hstands.name, hstands.resourceType] at hfound
  have hfind := PipelineLayout.find?_ofSignatures hplaced x.name x.resourceType
  rw [inBindingOrder, List.mergeSort_singleton, List.findSome?_singleton, hfound] at hfind
  obtain ⟨b, hb, hmoved⟩ := Option.map_eq_some_iff.1 hfind
  exact ⟨b, by rw [resolve, hb], (serves_resourceBinding h hstands).of_withoutPlace hmoved⟩

/-- A signature made from shaders matches each of them, and wherever it can be laid out all their
resources have bindings that serve them; the immutable samplers of the layout are bound as well. -/
theorem synthesize_serves
    (hstages : ∀ reflection ∈ reflections, ∀ x ∈ reflection.resources,
      x.stages.contains reflection.stage)
    (hsynthesize : synthesize pipeline reflections layout = .ok signature) :
    (∀ reflection ∈ reflections, checkReflection [signature] reflection = .ok ()) ∧
      ∀ backend placed, PipelineLayout.ofSignatures backend [signature] = .ok placed →
        (∀ shader : CompiledShader, shader.reflection ∈ reflections →
          ∃ resolved, resolveAll backend placed shader = .ok resolved ∧
            resolved.map Prod.fst = shader.reflection.resources ∧
            ∀ pair ∈ resolved, Serves reflections layout pair.1 pair.2) ∧
          ∀ sampler ∈ layout.immutableSamplers, ∃ b ∈ placed.bindings,
            b.name = sampler.name ∧ b.resourceType = .sampler ∧ b.isImmutable := by
  have h := summarizes_synthesize hsynthesize
  refine ⟨fun reflection hreflection =>
    h.checkReflection_eq_ok hreflection (hstages reflection hreflection), ?_⟩
  intro backend placed hplaced
  constructor
  · intro shader hshader
    have hresolve : ∀ x ∈ shader.reflection.resources, ∃ pair,
        resolve backend placed shader.reflection.stage x = .ok pair ∧ pair.1 = x ∧
          Serves reflections layout pair.1 pair.2 := by
      intro x hx
      obtain ⟨b, hb, hserves⟩ := exists_resolve h hplaced hshader hx
      exact ⟨(x, b), hb, rfl, hserves⟩
    obtain ⟨resolved, hresolved⟩ := exists_forall₂ hresolve
    refine ⟨resolved, mapM_eq_ok_iff.2 (hresolved.imp fun _ _ h => h.1), ?_, ?_⟩
    · have hfirst : List.Forall₂ (fun pair x => pair.1 = x) resolved
          shader.reflection.resources := hresolved.flip.imp fun _ _ h => h.2.1
      rwa [← List.forall₂_map_left_iff (f := Prod.fst), List.forall₂_eq_eq_eq] at hfirst
    · intro pair hpair
      obtain ⟨_, _, _, _, hserves⟩ := exists_of_mem_right hresolved hpair
      exact hserves
  · intro sampler hsampler
    rw [← h.immutableSamplers] at hsampler
    obtain ⟨b, hb, hspec⟩ := SignatureLayout.exists_immutable_unplaced hsampler
    have hmem : b.withoutPlace ∈ placed.bindings.map LayoutBinding.withoutPlace := by
      rw [PipelineLayout.bindings_singleton hplaced]
      exact List.mem_map_of_mem hb
    obtain ⟨moved, hmoved, hsame⟩ := List.mem_map.1 hmem
    obtain ⟨set, binding, rfl⟩ := LayoutBinding.exists_place hsame
    exact ⟨_, hmoved, hspec⟩

/-- A vertex and a pixel shader that share a texture and a sampler. -/
def sampling : List Reflection := [.vertex, .pixel].map fun stage => {
  stage := stage
  entryPoint := "main"
  resources := [
    ⟨"color", .textureSrv, 0, 0, 2, .singleton stage⟩,
    ⟨"nearest", .sampler, 0, 0, 1, .singleton stage⟩]
  vertexInputs := [] }

/-- A layout with an immutable sampler for pixel shaders, and one of the name of the texture. -/
def samplingLayout : ResourceLayout where
  immutableSamplers := [
    { stages := .singleton .pixel, name := "nearest", desc := {} },
    { stages := .singleton .vertex, name := "color", desc := {} }]

/-- The signature of the two shaders. -/
def samplingSignature : Signature where
  name := "Default Signature of PSO 'P'"
  bindingIndex := 0
  resources := [
    { name := "color", stages := .ofList [.vertex, .pixel], arraySize := 2
      resourceType := .textureSrv, varType := .static },
    { name := "nearest", stages := .ofList [.vertex, .pixel], arraySize := 1
      resourceType := .sampler, varType := .static }]
  immutableSamplers := samplingLayout.immutableSamplers

theorem synthesize_sampling :
    synthesize "P" sampling samplingLayout = .ok samplingSignature := by
  have hmerged : Synthesis.mergeAll sampling = .ok [
      ⟨"color", .textureSrv, 0, 0, 2, .ofList [.vertex, .pixel]⟩,
      ⟨"nearest", .sampler, 0, 0, 1, .ofList [.vertex, .pixel]⟩] := by decide
  have hsorted : samplingSignature.resources.mergeSort Synthesis.le =
      samplingSignature.resources := List.mergeSort_of_pairwise (by decide)
  rw [synthesize, hmerged]
  exact congrArg (fun resources => Except.ok { samplingSignature with resources }) hsorted

/-- Both shaders match their signature, which can be laid out on every backend. -/
theorem synthesize_serves_sampling :
    (∀ reflection ∈ sampling, ∀ x ∈ reflection.resources, x.stages.contains reflection.stage) ∧
      synthesize "P" sampling samplingLayout = .ok samplingSignature ∧
      (∀ backend, ∃ placed, PipelineLayout.ofSignatures backend [samplingSignature] = .ok placed) ∧
      (∀ reflection ∈ sampling, checkReflection [samplingSignature] reflection = .ok ()) ∧
      ∀ backend placed, PipelineLayout.ofSignatures backend [samplingSignature] = .ok placed →
        (∀ shader : CompiledShader, shader.reflection ∈ sampling →
          ∃ resolved, resolveAll backend placed shader = .ok resolved ∧
            resolved.map Prod.fst = shader.reflection.resources ∧
            ∀ pair ∈ resolved, Serves sampling samplingLayout pair.1 pair.2) ∧
          ∀ sampler ∈ samplingLayout.immutableSamplers, ∃ b ∈ placed.bindings,
            b.name = sampler.name ∧ b.resourceType = .sampler ∧ b.isImmutable := by
  have hstages : ∀ reflection ∈ sampling, ∀ x ∈ reflection.resources,
      x.stages.contains reflection.stage := by decide
  refine ⟨hstages, synthesize_sampling, fun backend => ?_,
    synthesize_serves hstages synthesize_sampling⟩
  apply exists_ok_of_isOk
  cases backend <;> decide +kernel

end Patch

end PipelineArchive
