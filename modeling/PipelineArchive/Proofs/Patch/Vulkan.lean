import Mathlib.Data.Fintype.Card
import PipelineArchive.Patch.Vulkan
import PipelineArchive.Proofs.Layout.DescriptorSets
import PipelineArchive.Proofs.Layout.Synthesis
import PipelineArchive.Proofs.Patch.Places
import PipelineArchive.Proofs.Spirv.Remapping

/-!
# Places in patched modules

The variables of a module have identifiers, but a layout knows its resources by their names. A
signature that was made from a shader has one resource for every name, in a place of its own
(`name_eq_of_place`), and every variable of the patched module is in the place of its name. So
variables of different names are never put in one place, and variables of one name always are
(`patchShader_places`).
-/

set_option autoImplicit false

namespace PipelineArchive

open Results

namespace SignatureLayout

variable {signature : Signature} {declared : Resource}

/-! ## The places of declared resources -/

/-- The numbers of the resources that a signature declares. -/
def declaredNumbers (signature : Signature) : List Numbered :=
  numbered 0 (0 + setsOf false (unplaced signature)) (fun _ => 0)
    (signature.resources.map (resourceBinding signature))

/-- The declared resources are numbered first. -/
theorem exists_numberedFrom_eq (signature : Signature) :
    ∃ samplers, numberedFrom 0 (unplaced signature) = declaredNumbers signature ++ samplers := by
  obtain ⟨last, hlist⟩ := numbered_append 0 (0 + setsOf false (unplaced signature)) (fun _ => 0)
    (signature.resources.map (resourceBinding signature))
    ((signature.immutableSamplers.filter fun s => !isAttached signature s).map samplerBinding)
  exact ⟨_, hlist⟩

theorem map_resource_declaredNumbers (signature : Signature) :
    (declaredNumbers signature).map Numbered.resource =
      signature.resources.map (resourceBinding signature) := map_resource_numbered _ _ _ _

theorem binding_lt_of_mem_declaredNumbers {x : Numbered} (hx : x ∈ declaredNumbers signature) :
    x.binding < signature.resources.length := by
  have hlt := binding_lt_of_mem_numbered hx
  rwa [List.length_map, Nat.zero_add] at hlt

/-- A resource is found if no other has its name. -/
theorem find?_declaredNumbers (hmem : declared ∈ signature.resources)
    (honly : ∀ other ∈ signature.resources, other.name = declared.name → other = declared) :
    ∃ x, (declaredNumbers signature).find?
        (fun x => isFoundBy declared.name declared.resourceType x.resource) = some x ∧
      x.resource = resourceBinding signature declared := by
  have hresources := map_resource_declaredNumbers signature
  cases hfind : (declaredNumbers signature).find?
      (fun x => isFoundBy declared.name declared.resourceType x.resource) with
  | none =>
    have hown : resourceBinding signature declared ∈
        (declaredNumbers signature).map Numbered.resource :=
      hresources ▸ List.mem_map_of_mem hmem
    obtain ⟨x, hx, hown⟩ := List.mem_map.1 hown
    have hnot := List.find?_eq_none.1 hfind x hx
    simp [hown, isFoundBy, resourceBinding] at hnot
  | some x =>
    have hresource : x.resource ∈ signature.resources.map (resourceBinding signature) :=
      hresources ▸ List.mem_map_of_mem (List.mem_of_find?_eq_some hfind)
    obtain ⟨other, hother, hresource⟩ := List.mem_map.1 hresource
    have hname := List.find?_some hfind
    rw [← hresource] at hname
    simp only [isFoundBy, Bool.and_eq_true, beq_iff_eq] at hname
    rw [honly other hother hname.1] at hresource
    exact ⟨x, rfl, hresource.symm⟩

end SignatureLayout

namespace PipelineLayout

open SignatureLayout

variable {pipeline : String} {reflections : List Reflection} {layout : ResourceLayout}
  {signature : Signature} {placed : PipelineLayout} {reflection : Reflection}

theorem find?_vulkan_singleton (h : ofSignatures .vulkan [signature] = .ok placed) (name : String)
    (resourceType : ResourceType) :
    placed.find? name resourceType = ((numberedFrom 0 (unplaced signature)).find?
      fun x => isFoundBy name resourceType x.resource).map Numbered.stored := by
  obtain ⟨l, next, hl, -, -, hbindings, -⟩ := @allocate_vulkan signature {} 0 rfl
  simp only [ofSignatures, Signature.inBindingOrder, List.mergeSort_singleton, allocateAll, hl] at h
  cases h
  rw [find?, List.findSome?_singleton, SignatureLayout.find?, hbindings, List.find?_map]
  rfl

/-- The binding of a resource of a shader is at a number of its own. -/
theorem exists_numbered (h : Signature.Summarizes signature reflections layout)
    (hplaced : ofSignatures .vulkan [signature] = .ok placed)
    (hreflection : reflection ∈ reflections)
    {r : ReflectedResource} (hr : r ∈ reflection.resources) :
    ∃ x ∈ numberedFrom 0 (unplaced signature), x.resource.name = r.name ∧
      x.binding < signature.resources.length ∧
      placed.find? r.name r.resourceType = some x.stored := by
  obtain ⟨declared, hdeclared, hstands⟩ := h.exists_declared hreflection hr
  obtain ⟨x, hfind, hresource⟩ := find?_declaredNumbers hdeclared
    fun other hother hname => h.eq_of_name hdeclared hother hname
  obtain ⟨samplers, hlist⟩ := exists_numberedFrom_eq signature
  have hx := List.mem_of_find?_eq_some hfind
  refine ⟨x, ?_, ?_, binding_lt_of_mem_declaredNumbers hx, ?_⟩
  · rw [hlist]
    exact List.mem_append_left samplers hx
  · rw [hresource]
    exact hstands.name
  · rw [find?_vulkan_singleton hplaced, hlist, List.find?_append, ← hstands.name,
      ← hstands.resourceType, hfind]
    rfl

/-- Where the resources of a signature can be counted in a word, those of different names are in
different places. -/
theorem name_eq_of_place (h : Signature.Summarizes signature reflections layout)
    (hplaced : ofSignatures .vulkan [signature] = .ok placed)
    (hreflection : reflection ∈ reflections)
    (hsize : signature.resources.length ≤ UInt32.size) {r r' : ReflectedResource}
    (hr : r ∈ reflection.resources) (hr' : r' ∈ reflection.resources) {b b' : LayoutBinding}
    (hb : placed.find? r.name r.resourceType = some b)
    (hb' : placed.find? r'.name r'.resourceType = some b') (hset : b.set = b'.set)
    (hbinding : b.binding = b'.binding) : r.name = r'.name := by
  obtain ⟨x, hx, hname, hlt, hfind⟩ := exists_numbered h hplaced hreflection hr
  obtain ⟨x', hx', hname', hlt', hfind'⟩ := exists_numbered h hplaced hreflection hr'
  obtain rfl : x.stored = b := Option.some.inj (hfind.symm.trans hb)
  obtain rfl : x'.stored = b' := Option.some.inj (hfind'.symm.trans hb')
  have hsets := usesSets_numberedFrom 0 (unplaced signature)
  have hword {n n' : Nat} (hn : n < UInt32.size) (hn' : n' < UInt32.size)
      (heq : UInt32.ofNat n = UInt32.ofNat n') : n = n' := by
    rw [← UInt32.toNat_ofNat_of_lt' hn, heq, UInt32.toNat_ofNat_of_lt' hn']
  have hsetLt {x : Numbered} (hx : x ∈ numberedFrom 0 (unplaced signature)) :
      x.set < UInt32.size := by
    have hlt := (hsets.lt (List.mem_flatten_of_mem (List.mem_singleton_self _) hx)).1
    have := setsOf_le_one false (unplaced signature)
    have := setsOf_le_one true (unplaced signature)
    exact Nat.lt_trans (by omega : x.set < 3) (by decide)
  -- equal words are equal numbers, and no two resources of the signature have the same numbers
  have hpair : (x.set, x.binding) = (x'.set, x'.binding) := by
    rw [hword (hsetLt hx) (hsetLt hx') hset, hword (by omega) (by omega) hbinding]
  have hnodup := hsets.nodup
  rw [List.flatten_singleton] at hnodup
  obtain rfl : x = x' := List.inj_on_of_nodup_map hnodup hx hx' hpair
  exact hname.symm.trans hname'

end PipelineLayout

namespace Patch

/-! ## Places by name -/

namespace Vulkan

open Spirv (Module)

variable {placed : PipelineLayout} {shader : CompiledShader} {code : Bytes}

/-- The place that is looked up for a name. -/
def place? (places : List (ReflectedResource × LayoutBinding)) (name : String) :
    Option (UInt32 × UInt32) :=
  lastValue? name (places.map fun (r, b) => (r.name, (b.set, b.binding)))

/-- Patching looks up the places of all resources and remaps the module by their names. -/
theorem patchShader_eq_ok_iff : patchShader placed shader = .ok code ↔
    ∃ places m n, resolveAll .vulkan placed shader = .ok places ∧
      Module.ofBytes shader.code = .ok m ∧
      (m.remapBindings shader.reflection.stage fun r => place? places r.name).module? = .ok n ∧
      n.toBytes = code := by
  constructor
  · intro h
    obtain ⟨places, hplaces, h⟩ := bind_eq_ok_iff.1 h
    obtain ⟨n, hn, hcode⟩ := bind_eq_ok_iff.1 h
    obtain ⟨m, hm, hn⟩ := bind_eq_ok_iff.1 (mapError_eq_ok_iff.1 hn)
    exact ⟨places, m, n, hplaces, hm, hn, Except.ok.inj hcode⟩
  · rintro ⟨places, m, n, hplaces, hm, hn, rfl⟩
    refine bind_eq_ok_iff.2 ⟨places, hplaces, bind_eq_ok_iff.2 ⟨n, ?_, rfl⟩⟩
    exact mapError_eq_ok_iff.2 (bind_eq_ok_iff.2 ⟨m, hm, hn⟩)

/-- The place that is looked up for a resource is that of a resource of its name. -/
theorem exists_place? {places : List (ReflectedResource × LayoutBinding)}
    (hplaces : resolveAll .vulkan placed shader = .ok places) {r : ReflectedResource}
    (hr : r ∈ shader.reflection.resources) :
    ∃ r' ∈ shader.reflection.resources, ∃ b, r'.name = r.name ∧
      placed.find? r'.name r'.resourceType = some b ∧
      place? places r.name = some (b.set, b.binding) := by
  -- the last resource of a name is the one that is found, so it need not be `r` itself
  have hresolved := mapM_eq_ok_iff.1 hplaces
  obtain ⟨pair, hpair, hown⟩ := exists_of_mem_left hresolved hr
  obtain ⟨rfl, -⟩ := resolve_eq_ok_iff.1 hown
  obtain ⟨value, hvalue⟩ := exists_lookup_reverse
    (List.mem_map_of_mem (f := fun (r, b) => (r.name, (b.set, b.binding))) hpair)
  obtain ⟨pair', hpair', heq⟩ := List.mem_map.1 (mem_of_lookup_reverse hvalue)
  obtain ⟨r', hr', hother⟩ := exists_of_mem_right hresolved hpair'
  obtain ⟨rfl, hfind⟩ := resolve_eq_ok_iff.1 hother
  obtain ⟨hname, rfl⟩ := Prod.mk.inj heq
  exact ⟨pair'.1, hr', pair'.2, hname, hfind, hvalue⟩

theorem length_le_of_nodup {ids : List UInt32} (h : ids.Nodup) : ids.length ≤ UInt32.size := by
  have hfin : (ids.map UInt32.toFin).Nodup :=
    h.map fun a b hab => UInt32.toFin_inj.1 hab
  have hcard := hfin.length_le_card
  rwa [List.length_map, Fintype.card_fin] at hcard

/-- What patching does to a module with resources of their own identifiers: each of its resources is
in the place that is looked up for its name, which is where the layout has a resource of that
name. -/
theorem exists_patched {m : Module} {stage : ShaderStage} {entryPoint : String}
    (hparse : Module.ofBytes shader.code = .ok m)
    (hreflection : shader.reflection = m.reflect stage entryPoint)
    (hids : ((m.resources stage).map (·.1)).Nodup) (hpatch : patchShader placed shader = .ok code) :
    ∃ (patched : Module) (place : String → UInt32 × UInt32), Module.ofBytes code = .ok patched ∧
      (patched.resources stage).Perm ((m.resources stage).map fun (id, r) =>
        (id, r.assigned fun r => some (place r.name))) ∧
      ∀ r ∈ shader.reflection.resources, ∃ r' ∈ shader.reflection.resources, ∃ b,
        r'.name = r.name ∧ placed.find? r'.name r'.resourceType = some b ∧
          place r.name = (b.set, b.binding) := by
  obtain ⟨places, m', n, hplaces, hm, hremap, rfl⟩ := patchShader_eq_ok_iff.1 hpatch
  obtain rfl : m' = m := Except.ok.inj (hm.symm.trans hparse)
  rw [hreflection] at hremap
  change (m'.remapBindings stage _).module? = .ok n at hremap
  obtain ⟨⟨⟩, houtcome, rfl⟩ := map_eq_ok_iff.1 hremap
  have hparse := Module.ofBytes_eq_ok hm
  have hwritten := (Module.writes_remapBindingsOf houtcome).written
    (Module.literalsApart_parse hparse) (Module.pairwise_bindingWrites _ hids)
  obtain ⟨patched, hpatched, hshows⟩ := hwritten.exists_parse hparse
  have hperm := Module.resources_written_perm hids hwritten hshows
  have hvalue (r : ReflectedResource) (hr : r ∈ shader.reflection.resources) :=
    exists_place? hplaces hr
  refine ⟨patched, fun name => (place? places name).getD (0, 0), ?_, ?_, ?_⟩
  · rw [Module.ofBytes_toBytes]
    exact hpatched
  · refine hperm.trans (List.Perm.of_eq (List.map_congr_left ?_))
    rintro ⟨id, r⟩ hr
    have hmem : r ∈ shader.reflection.resources := by
      rw [hreflection]
      exact List.mem_map.2 ⟨_, hr, rfl⟩
    obtain ⟨-, -, b, -, -, hb⟩ := hvalue r hmem
    simp only [ReflectedResource.assigned, hb, Option.getD_some]
  · intro r hr
    obtain ⟨r', hr', b, hname, hfind, hb⟩ := hvalue r hr
    exact ⟨r', hr', b, hname, hfind, by simp only [hb, Option.getD_some]⟩

/-- A module that is patched against the signature made from it has its resources in the places of
their names, and names have places of their own. So its variables are in different places exactly
if they have different names. -/
theorem patchShader_places {m : Module} {stage : ShaderStage} {entryPoint pipeline : String}
    {layout : ResourceLayout} {signature : Signature}
    (hparse : Module.ofBytes shader.code = .ok m)
    (hreflection : shader.reflection = m.reflect stage entryPoint)
    (hids : ((m.resources stage).map (·.1)).Nodup)
    (hsynthesize : Signature.synthesize pipeline [shader.reflection] layout = .ok signature)
    (hplaced : PipelineLayout.ofSignatures .vulkan [signature] = .ok placed)
    (hpatch : patchShader placed shader = .ok code) :
    ∃ (patched : Module) (place : String → UInt32 × UInt32), Module.ofBytes code = .ok patched ∧
      (patched.resources stage).Perm ((m.resources stage).map fun (id, r) =>
        (id, r.assigned fun r => some (place r.name))) ∧
      (∀ r ∈ shader.reflection.resources, ∀ r' ∈ shader.reflection.resources,
        place r.name = place r'.name → r.name = r'.name) ∧
      (((patched.resources stage).map fun (_, r) => (r.set, r.binding)).Nodup ↔
        (shader.reflection.resources.map (·.name)).Nodup) := by
  obtain ⟨patched, place, hpatched, hperm, hplace⟩ :=
    exists_patched hparse hreflection hids hpatch
  have hresources : shader.reflection.resources = (m.resources stage).map (·.2) := by
    rw [hreflection]
    rfl
  -- identifiers are words, so there are not too many resources to number them in words
  have hsize : signature.resources.length ≤ UInt32.size := by
    have hlength := Signature.length_synthesize hsynthesize
    have hwords := length_le_of_nodup hids
    rw [List.flatMap_singleton, hresources, List.length_map] at hlength
    rw [List.length_map] at hwords
    omega
  have happart : ∀ r ∈ shader.reflection.resources, ∀ r' ∈ shader.reflection.resources,
      place r.name = place r'.name → r.name = r'.name := by
    intro r hr r' hr' hsame
    obtain ⟨s, hs, b, hname, hfind, hb⟩ := hplace r hr
    obtain ⟨s', hs', b', hname', hfind', hb'⟩ := hplace r' hr'
    rw [hb, hb'] at hsame
    obtain ⟨hset, hbinding⟩ := Prod.mk.inj hsame
    have heq := PipelineLayout.name_eq_of_place (Signature.summarizes_synthesize hsynthesize)
      hplaced (List.mem_singleton_self _) hsize hs hs' hfind hfind' hset hbinding
    exact hname.symm.trans (heq.trans hname')
  refine ⟨patched, place, hpatched, hperm, happart, ?_⟩
  -- so the places in the patched module are those of the names, one by one
  have hpairs : ((patched.resources stage).map fun (_, r) => (r.set, r.binding)).Perm
      ((shader.reflection.resources.map (·.name)).map place) := by
    refine (hperm.map _).trans (List.Perm.of_eq ?_)
    rw [hresources, List.map_map, List.map_map, List.map_map]
    rfl
  rw [hpairs.nodup_iff]
  constructor
  · intro hnodup
    exact hnodup.of_map place
  · intro hnodup
    refine hnodup.map_on fun name hname name' hname' hsame => ?_
    obtain ⟨r, hr, rfl⟩ := List.mem_map.1 hname
    obtain ⟨r', hr', rfl⟩ := List.mem_map.1 hname'
    exact happart r hr r' hr' hsame

/-! ## Two blocks of one structure -/

/-- A uniform block as a compute shader declares it. -/
def block (name : String) (binding : UInt32) : ReflectedResource :=
  ⟨name, .constantBuffer, 0, binding, 1, .singleton .compute⟩

/-- A compute shader whose module declares the given resources. -/
def blockShader (m : Module) (resources : List ReflectedResource) : CompiledShader where
  backend := .vulkan
  language := .spirv
  code := m.toBytes
  entryPoint := "main"
  reflection := ⟨.compute, "main", resources, []⟩

/-- The signature that is made for uniform blocks. -/
def blockSignature (names : List String) : Signature where
  name := Signature.defaultName "P"
  bindingIndex := 0
  resources := names.map fun name => {
    name, stages := .singleton .compute, arraySize := 1
    resourceType := .constantBuffer, varType := .static }
  immutableSamplers := []

/-- A uniform block in the set of static resources. -/
def blockBinding (name : String) (binding : UInt32) : LayoutBinding where
  name := name
  resourceType := .constantBuffer
  varType := .static
  stages := .singleton .compute
  arraySize := 1
  binding := binding
  isImmutable := false

def blockLayout (bindings : List LayoutBinding) : PipelineLayout :=
  ⟨.vulkan, [⟨.vulkan, Signature.defaultName "P", 0, bindings, 1⟩]⟩

/-- The blocks `a` and `b` of a structure with a name that a compiler made up: `type.P`. -/
def typeBlock : Module := Module.twoBlocks 0x65707974 0x502E

theorem resources_typeBlock :
    typeBlock.resources .compute = [(11, block "a" 0), (12, block "b" 1)] := by
  rw [Module.resources_of_pairwise (by decide +kernel)]
  decide +kernel

/-- They are known by their own names, and stay in different places. -/
theorem patchShader_places_typeBlock :
    let shader := blockShader typeBlock [block "a" 0, block "b" 1]
    let placed := blockLayout [blockBinding "a" 0, blockBinding "b" 1]
    Module.ofBytes shader.code = .ok typeBlock ∧
      shader.reflection = typeBlock.reflect .compute "main" ∧
      ((typeBlock.resources .compute).map (·.1)).Nodup ∧
      Signature.synthesize "P" [shader.reflection] {} = .ok (blockSignature ["a", "b"]) ∧
      PipelineLayout.ofSignatures .vulkan [blockSignature ["a", "b"]] = .ok placed ∧
      patchShader placed shader = .ok typeBlock.toBytes ∧
      ∃ patched, Module.ofBytes typeBlock.toBytes = .ok patched ∧
        ((patched.resources .compute).map fun (_, r) => (r.set, r.binding)).Nodup := by
  intro shader placed
  have hparse : Module.ofBytes shader.code = .ok typeBlock := by decide +kernel
  have hreflection : shader.reflection = typeBlock.reflect .compute "main" := by
    rw [Module.reflect, resources_typeBlock]
    rfl
  have hids : ((typeBlock.resources .compute).map (·.1)).Nodup := by
    rw [resources_typeBlock]
    decide
  have hsynthesize : Signature.synthesize "P" [shader.reflection] {} =
      .ok (blockSignature ["a", "b"]) := by
    have hmerged : Synthesis.mergeAll [shader.reflection] = .ok [block "a" 0, block "b" 1] := by
      decide +kernel
    have hsorted : ([block "a" 0, block "b" 1].map (Synthesis.resource {})).mergeSort Synthesis.le =
        [block "a" 0, block "b" 1].map (Synthesis.resource {}) :=
      List.mergeSort_of_pairwise (by decide +kernel)
    rw [Signature.synthesize, hmerged]
    simp only [hsorted]
    rfl
  have hplaced : PipelineLayout.ofSignatures .vulkan [blockSignature ["a", "b"]] = .ok placed := by
    rw [PipelineLayout.ofSignatures, Signature.inBindingOrder, List.mergeSort_singleton]
    decide +kernel
  have hpatch : patchShader placed shader = .ok typeBlock.toBytes := by
    refine patchShader_eq_ok_iff.2 ⟨[(block "a" 0, blockBinding "a" 0),
      (block "b" 1, blockBinding "b" 1)], typeBlock, typeBlock, by decide +kernel, hparse, ?_, rfl⟩
    change (typeBlock.remapBindings .compute _).module? = _
    rw [Module.remapBindings, resources_typeBlock]
    decide +kernel
  obtain ⟨patched, -, hpatched, -, -, happart⟩ :=
    patchShader_places hparse hreflection hids hsynthesize hplaced hpatch
  exact ⟨hparse, hreflection, hids, hsynthesize, hplaced, hpatch, patched, hpatched,
    happart.2 (by decide)⟩

/-- The module of the two blocks that are known by the name of their structure, with the second
block moved to the place of the first. -/
def mergedBlock : Module where
  words := Module.sharedBlock.words.set 38 0
  instructions := Module.sharedBlock.instructions.set 8
    ⟨35, Spirv.Op.decorate, [12, Spirv.Decoration.binding, 0]⟩

theorem resources_mergedBlock :
    mergedBlock.resources .compute = [(11, block "Params" 0), (12, block "Params" 0)] := by
  rw [Module.resources_of_pairwise (by decide +kernel)]
  decide +kernel

/-- Blocks in different places are put in one place where they are known by one name. -/
theorem not_always_apart :
    ¬∀ (shader : CompiledShader) (m patched : Module) (stage : ShaderStage)
      (entryPoint pipeline : String) (layout : ResourceLayout) (signature : Signature)
      (placed : PipelineLayout) (code : Bytes),
      Module.ofBytes shader.code = .ok m → shader.reflection = m.reflect stage entryPoint →
      ((m.resources stage).map (·.1)).Nodup →
      ((m.resources stage).map fun (_, r) => (r.set, r.binding)).Nodup →
      Signature.synthesize pipeline [shader.reflection] layout = .ok signature →
      PipelineLayout.ofSignatures .vulkan [signature] = .ok placed →
      patchShader placed shader = .ok code → Module.ofBytes code = .ok patched →
      ((patched.resources stage).map fun (_, r) => (r.set, r.binding)).Nodup := by
  intro h
  let shader := blockShader Module.sharedBlock [block "Params" 0, block "Params" 1]
  let placed := blockLayout [blockBinding "Params" 0]
  have hresources := Module.resources_sharedBlock
  have hparse : Module.ofBytes shader.code = .ok Module.sharedBlock := by decide +kernel
  have hreflection : shader.reflection = Module.sharedBlock.reflect .compute "main" := by
    rw [Module.reflect, hresources]
    rfl
  have hsynthesize : Signature.synthesize "P" [shader.reflection] {} =
      .ok (blockSignature ["Params"]) := by
    have hmerged : Synthesis.mergeAll [shader.reflection] = .ok [block "Params" 0] := by
      decide +kernel
    rw [Signature.synthesize, hmerged]
    simp only [List.map_cons, List.map_nil, List.mergeSort_singleton]
    rfl
  have hplaced : PipelineLayout.ofSignatures .vulkan [blockSignature ["Params"]] = .ok placed := by
    rw [PipelineLayout.ofSignatures, Signature.inBindingOrder, List.mergeSort_singleton]
    decide +kernel
  have hpatch : patchShader placed shader = .ok mergedBlock.toBytes := by
    refine patchShader_eq_ok_iff.2 ⟨[(block "Params" 0, blockBinding "Params" 0),
      (block "Params" 1, blockBinding "Params" 0)], Module.sharedBlock,
      { Module.sharedBlock with words := mergedBlock.words }, by decide +kernel, hparse, ?_, rfl⟩
    change (Module.sharedBlock.remapBindings .compute _).module? = _
    rw [Module.remapBindings, hresources]
    decide +kernel
  have hapart := h shader Module.sharedBlock mergedBlock .compute "main" "P" {} _ placed _ hparse
    hreflection (by rw [hresources]; decide) (by rw [hresources]; decide) hsynthesize hplaced hpatch
    (by decide +kernel)
  rw [resources_mergedBlock] at hapart
  exact absurd hapart (by decide)

end Vulkan

end Patch

end PipelineArchive
