import PipelineArchive.Patch.Pipeline
import PipelineArchive.Proofs.Encoding.Readable
import PipelineArchive.Proofs.Layout.BindingOrder
import PipelineArchive.Proofs.Patch.Places

/-!
# Root signatures

The header of a Direct3D12 pipeline holds a root signature for every signature and the registers
of every shader. `Header` is what can be read from it, a record without any bytes in it, and
`Header.Describes` says what it tells about the layout: the tables of a root signature and its
static samplers share the bindings of the signature out among them, and none is lost or listed
twice. The header is an encoding, so it is read back as this record if its texts and lists can be
counted, which they can in less than four gibibytes (`deviceHeader_d3d12`).

The tables are made by going through all bindings once for each table. They share the bindings out
because every binding is of one table (`RootTable.takes_iff`) and no table is gone through twice
(`flatMap_filter_perm`).
-/

set_option autoImplicit false

namespace PipelineArchive.Patch.Direct3d

open Results

/-! ## What a header holds -/

/-- An entry of a descriptor table: `count` registers of a range, from one register of a space
on. -/
structure TableEntry where
  range : DescriptorRange
  register : UInt32
  space : UInt32
  count : UInt32
  deriving DecidableEq, Repr

/-- A sampler that is part of a root signature. -/
structure StaticSampler where
  name : String
  register : UInt32
  space : UInt32
  stages : StageSet
  deriving DecidableEq, Repr

/-- A root signature: its tables with their entries, and its static samplers. -/
structure RootSignature where
  name : String
  bindingIndex : UInt32
  tables : List (RootTable × List TableEntry)
  samplers : List StaticSampler
  deriving DecidableEq, Repr

/-- The root signatures and register maps of a pipeline. -/
structure Header where
  signatures : List RootSignature
  shaders : List (ShaderStage × List RegisterBinding)
  deriving DecidableEq, Repr

instance : Encode TableEntry where
  encode e := encode e.range ++ encode e.register ++ encode e.space ++ encode e.count

instance : Encode StaticSampler where
  encode s := encode s.name ++ encode s.register ++ encode s.space ++ encode s.stages

instance : Encode RootSignature where
  encode r := encode r.name ++ encode r.bindingIndex ++ encode r.tables ++ encode r.samplers

instance : Encode Header where
  encode h := encode h.signatures ++ encode h.shaders

/-! ## Reading a header -/

instance : Word DescriptorRange := .ofOrdinal DescriptorRange.ctorIdx .ofNat

instance : Word RootTable := .ofOrdinal RootTable.ctorIdx .ofNat

instance : Readable DescriptorRange := .ofWord fun w => .ofNat w.toNat

instance : Readable RootTable := .ofWord fun w => .ofNat w.toNat

instance : Tupled TableEntry (DescriptorRange × UInt32 × UInt32 × UInt32) where
  fields e := (e.range, e.register, e.space, e.count)

instance : Readable TableEntry := .ofTuple fun (range, register, space, count) =>
  { range, register, space, count }

instance : Tupled StaticSampler (String × UInt32 × UInt32 × StageSet) where
  fields s := (s.name, s.register, s.space, s.stages)

instance : Readable StaticSampler := .ofTuple fun (name, register, space, stages) =>
  { name, register, space, stages }

instance : Tupled RootSignature (String × UInt32 × List (RootTable × List TableEntry) ×
    List StaticSampler) where
  fields r := (r.name, r.bindingIndex, r.tables, r.samplers)

instance : Readable RootSignature := .ofTuple fun (name, bindingIndex, tables, samplers) =>
  { name, bindingIndex, tables, samplers }

instance : Tupled RegisterBinding (String × DescriptorRange × UInt32 × UInt32 × UInt32) where
  fields r := (r.name, r.range, r.space, r.register, r.count)

instance : Readable RegisterBinding := .ofTuple fun (name, range, space, register, count) =>
  { name, range, space, register, count }

instance : Tupled Header (List RootSignature × List (ShaderStage × List RegisterBinding)) where
  fields h := (h.signatures, h.shaders)

instance : Readable Header := .ofTuple fun (signatures, shaders) => { signatures, shaders }

/-! ## What a header tells -/

namespace RootTable

/-- Whether a table is for dynamic bindings. -/
def isDynamic : RootTable → Bool
  | dynamicResources | dynamicSamplers => true
  | staticResources | staticSamplers => false

/-- Whether a table is for samplers. -/
def isForSamplers : RootTable → Bool
  | staticSamplers | dynamicSamplers => true
  | staticResources | dynamicResources => false

/-- Whether a binding belongs in a table: dynamic bindings belong in others than static and
mutable ones, and samplers in others than constant buffers and views. -/
def takes (table : RootTable) (b : LayoutBinding) : Bool :=
  (b.varType == .dynamic) == table.isDynamic &&
    (b.resourceType.range == .sampler) == table.isForSamplers

/-- A binding belongs in one table. -/
theorem takes_iff {table : RootTable} {b : LayoutBinding} : table.takes b ↔ of b = table := by
  unfold takes of
  cases b.varType == .dynamic <;>
    cases b.resourceType.range == .sampler <;>
    cases table <;>
    decide

end RootTable

/-- The entry of a binding. -/
def TableEntry.of (b : LayoutBinding) : TableEntry where
  range := b.resourceType.range
  register := b.binding
  space := b.set
  count := b.arraySize

/-- The static sampler of a binding. -/
def StaticSampler.of (b : LayoutBinding) : StaticSampler where
  name := b.name
  register := b.binding
  space := b.set
  stages := b.stages

/-- The entries that a root signature has in a table. -/
def RootSignature.entries (root : RootSignature) (table : RootTable) : List TableEntry :=
  (root.tables.lookup table).getD []

/-- A root signature shares the bindings of a signature out: each binding that is no immutable
sampler has one entry, in the table it belongs in, and each immutable sampler is one static
sampler. Bindings stay in the order of the signature. Tables stand in the order of all tables,
and those without entries are left out. -/
structure RootSignature.Shares (root : RootSignature) (signature : SignatureLayout) : Prop where
  name : root.name = signature.name
  bindingIndex : root.bindingIndex.toNat = signature.bindingIndex.toNat
  order : (root.tables.map (·.1)).Sublist RootTable.all
  nonempty : ∀ table ∈ root.tables, table.2 ≠ []
  entries (table : RootTable) : root.entries table =
    (signature.bindings.filter fun b => !b.isImmutable && table.takes b).map TableEntry.of
  once : (root.tables.flatMap (·.2)).Perm
    ((signature.bindings.filter fun b => !b.isImmutable).map TableEntry.of)
  samplers : root.samplers = (signature.bindings.filter (·.isImmutable)).map StaticSampler.of

/-- A register map lists the resources of a shader in their order, each with the registers of the
binding that the layout has for it. -/
def Maps (layout : PipelineLayout) (shader : CompiledShader)
    (map : ShaderStage × List RegisterBinding) : Prop :=
  map.1 = shader.reflection.stage ∧
  List.Forall₂ (fun r entry => ∃ b ∈ layout.bindings,
      layout.find? r.name r.resourceType = some b ∧ b.name = r.name ∧
      b.resourceType.range = r.resourceType.range ∧ entry = RegisterBinding.of r b)
    shader.reflection.resources map.2

/-- A header describes the signatures of a layout and the shaders of a pipeline, one for one. -/
structure Header.Describes (header : Header) (layout : PipelineLayout)
    (shaders : List CompiledShader) : Prop where
  signatures : List.Forall₂ RootSignature.Shares header.signatures layout.signatures
  shaders : List.Forall₂ (Maps layout) shaders header.shaders

/-! ## Tables -/

section

variable {α κ : Type}

/-- Elements that are filtered by each of their classes in turn are all listed, each one once. -/
theorem flatMap_filter_perm [DecidableEq κ] (classOf : α → κ) {classes : List κ}
    (hnodup : classes.Nodup) {xs : List α} (hxs : ∀ x ∈ xs, classOf x ∈ classes) :
    (classes.flatMap fun k => xs.filter fun x => classOf x = k).Perm xs := by
  induction classes generalizing xs with
  | nil =>
    have hnil : xs = [] := List.eq_nil_iff_forall_not_mem.2 fun x hx => List.not_mem_nil (hxs x hx)
    rw [hnil]
    exact .nil
  | cons k rest ih =>
    obtain ⟨hk, hrest⟩ := List.nodup_cons.1 hnodup
    -- the elements of the other classes are the same among those that are not of the first
    have hothers : rest.flatMap (fun k' => xs.filter fun x => classOf x = k') =
        rest.flatMap fun k' => (xs.filter fun x => !decide (classOf x = k)).filter
          fun x => classOf x = k' := by
      refine List.flatMap_congr fun k' hk' => ?_
      rw [List.filter_filter]
      refine List.filter_congr fun x _ => ?_
      by_cases hx : classOf x = k'
      · have hne : k' ≠ k := fun h => hk (h ▸ hk')
        simp [hx, hne]
      · simp [hx]
    rw [List.flatMap_cons, hothers]
    refine (List.Perm.append_left _ (ih hrest ?_)).trans (List.filter_append_perm _ xs)
    intro x hx
    obtain ⟨hmem, hne⟩ := List.mem_filter.1 hx
    exact (List.mem_cons.1 (hxs x hmem)).resolve_left (by simpa using hne)

/-- The groups of the keys, without the empty ones. -/
def grouped (keys : List κ) (group : κ → List α) : List (κ × List α) :=
  (keys.filter fun k => !(group k).isEmpty).map fun k => (k, group k)

variable {keys : List κ} {group : κ → List α}

theorem mem_grouped {p : κ × List α} :
    p ∈ grouped keys group ↔ p.1 ∈ keys ∧ p.2 = group p.1 ∧ p.2 ≠ [] := by
  simp only [grouped, List.mem_map, List.mem_filter, Bool.not_eq_true', List.isEmpty_eq_false_iff]
  constructor
  · rintro ⟨k, ⟨hk, hne⟩, rfl⟩
    exact ⟨hk, rfl, hne⟩
  · rintro ⟨hk, hgroup, hne⟩
    exact ⟨p.1, ⟨hk, hgroup ▸ hne⟩, Prod.ext rfl hgroup.symm⟩

theorem map_fst_grouped_sublist : ((grouped keys group).map (·.1)).Sublist keys := by
  have hkeys : (grouped keys group).map (·.1) = keys.filter fun k => !(group k).isEmpty := by
    rw [grouped, List.map_map]
    exact List.map_id _
  exact hkeys ▸ List.filter_sublist

/-- A group is found under its key, or it is empty. -/
theorem lookup_grouped [DecidableEq κ] {k : κ} (hk : k ∈ keys) :
    ((grouped keys group).lookup k).getD [] = group k := by
  cases hfound : (grouped keys group).lookup k with
  | some xs =>
    obtain ⟨front, back, hgroups, -⟩ := List.lookup_eq_some_iff.1 hfound
    have hmem : (k, xs) ∈ grouped keys group :=
      hgroups ▸ List.mem_append_right front List.mem_cons_self
    exact (mem_grouped.1 hmem).2.1
  | none =>
    have hothers := List.lookup_eq_none_iff.1 hfound
    by_contra hne
    have hmem : (k, group k) ∈ grouped keys group := mem_grouped.2 ⟨hk, rfl, Ne.symm hne⟩
    simpa using hothers _ hmem

theorem flatMap_grouped : (grouped keys group).flatMap (·.2) = keys.flatMap group := by
  rw [grouped, List.flatMap_map]
  induction keys with
  | nil => rfl
  | cons k rest ih =>
    rw [List.filter_cons, List.flatMap_cons, ← ih]
    cases hgroup : group k with
    | nil => rfl
    | cons x xs => simp [hgroup]

theorem map_grouped {β : Type} (f : α → β) :
    (grouped keys group).map (fun (k, xs) => (k, xs.map f)) =
      grouped keys fun k => (group k).map f := by
  simp only [grouped, List.map_map, List.isEmpty_map]
  rfl

end

theorem RootTable.mem_all (table : RootTable) : table ∈ all := by cases table <;> decide

/-- The bindings of a signature that have their entries in a table. -/
def RootTable.bindings (table : RootTable) (signature : SignatureLayout) : List LayoutBinding :=
  signature.bindings.filter fun b => !b.isImmutable && table.takes b

theorem RootTable.tables_eq (signature : SignatureLayout) :
    tables signature = grouped all fun table => table.bindings signature := by
  have htakes (table : RootTable) (b : LayoutBinding) : (of b == table) = table.takes b := by
    rw [Bool.eq_iff_iff, takes_iff, beq_iff_eq]
  simp only [tables, grouped, bindings, htakes, List.filter_map]
  rfl

/-- The tables hold every binding that is no immutable sampler, once. -/
theorem RootTable.flatMap_bindings_perm (signature : SignatureLayout) :
    (all.flatMap fun table => table.bindings signature).Perm
      (signature.bindings.filter fun b => !b.isImmutable) := by
  have hbindings (table : RootTable) : table.bindings signature =
      (signature.bindings.filter fun b => !b.isImmutable).filter fun b => of b = table := by
    rw [bindings, List.filter_filter]
    refine List.filter_congr fun b _ => ?_
    rw [Bool.and_comm, Bool.eq_iff_iff, Bool.and_eq_true, Bool.and_eq_true, takes_iff,
      decide_eq_true_iff]
  simp only [hbindings]
  exact flatMap_filter_perm of (by decide) fun b _ => mem_all (of b)

/-! ## Root signatures -/

/-- The root signature of a signature. -/
def RootSignature.of (signature : SignatureLayout) : RootSignature where
  name := signature.name
  bindingIndex := signature.bindingIndex.toUInt32
  tables := grouped RootTable.all fun table => (table.bindings signature).map TableEntry.of
  samplers := (signature.bindings.filter (·.isImmutable)).map StaticSampler.of

theorem RootSignature.of_shares (signature : SignatureLayout) :
    (RootSignature.of signature).Shares signature where
  name := rfl
  bindingIndex := UInt8.toNat_toUInt32 _
  order := map_fst_grouped_sublist
  nonempty _ htable := (mem_grouped.1 htable).2.2
  entries table := lookup_grouped table.mem_all
  once := by
    rw [RootSignature.of, flatMap_grouped, ← List.map_flatMap]
    exact (RootTable.flatMap_bindings_perm signature).map _
  samplers := rfl

/-- A list whose elements are made from others is encoded as it is written. -/
theorem encode_map {α β : Type} [Encode β] (f : α → β) (xs : List α) :
    encode (xs.map f) = Encode.count xs.length ++ xs.flatMap fun x => encode (f x) := by
  change Encode.list _ = _
  rw [Encode.list, List.length_map, List.flatMap_map]

/-- A root signature is written as its encoding. -/
theorem rootSignature_eq (signature : SignatureLayout) :
    rootSignature signature = encode (RootSignature.of signature) := by
  have htable (p : RootTable × List LayoutBinding) :
      encode (p.1, p.2.map TableEntry.of) =
        encode p.1 ++ Encode.count p.2.length ++ p.2.flatMap tableEntry := by
    rw [encode_mk, encode_map, List.append_assoc]
    rfl
  have htables : encode (RootSignature.of signature).tables =
      Encode.count (RootTable.tables signature).length ++
        (RootTable.tables signature).flatMap fun p =>
          encode p.1 ++ Encode.count p.2.length ++ p.2.flatMap tableEntry := by
    rw [RootSignature.of, ← map_grouped, ← RootTable.tables_eq, encode_map]
    simp only [htable]
  have hsamplers : encode (RootSignature.of signature).samplers =
      Encode.count (signature.bindings.filter (·.isImmutable)).length ++
        (signature.bindings.filter (·.isImmutable)).flatMap staticSampler :=
    encode_map _ _
  change _ = encode _ ++ encode _ ++ encode _ ++ encode _
  rw [htables, hsamplers, rootSignature]
  simp only [List.append_assoc]
  rfl

/-! ## Headers -/

/-- The registers of a shader are those that its register map lists. -/
theorem maps_of_registers {backend : Backend} {layout : PipelineLayout} {shader : CompiledShader}
    {map : ShaderStage × List RegisterBinding} (h : registers backend layout shader = .ok map) :
    Maps layout shader map := by
  obtain ⟨places, hplaces, h⟩ := bind_eq_ok_iff.1 h
  cases h
  obtain ⟨hresources, hfound⟩ := resolveAll_eq_ok_iff.1 hplaces
  refine ⟨rfl, ?_⟩
  rw [← hresources, List.forall₂_map_left_iff, List.forall₂_map_right_iff, List.forall₂_same]
  intro (r, b) hplace
  have hb := hfound _ hplace
  obtain ⟨hmem, hname, hrange⟩ := PipelineLayout.find?_spec hb
  exact ⟨b, hmem, hb, hname, hrange, rfl⟩

/-- A header is written as the encoding of one that describes the layout and the shaders. -/
theorem exists_describes {layout : PipelineLayout} {shaders : List CompiledShader} {bytes : Bytes}
    (h : header12 layout shaders = .ok bytes) :
    ∃ header : Header, header.Describes layout shaders ∧ bytes = encode header := by
  obtain ⟨written, hwritten, h⟩ := bind_eq_ok_iff.1 h
  cases h
  obtain ⟨maps, hmaps, hwritten⟩ := bind_eq_ok_iff.1 hwritten
  cases hwritten
  rw [mapM_eq_ok_iff] at hmaps
  -- the count of the register maps is that of the shaders
  refine ⟨⟨layout.signatures.map .of, maps⟩, ⟨?_, ?_⟩, ?_⟩
  · rw [List.forall₂_map_left_iff, List.forall₂_same]
    exact fun signature _ => RootSignature.of_shares signature
  · exact hmaps.imp fun _ _ => maps_of_registers
  · change _ = encode (layout.signatures.map RootSignature.of) ++ encode maps
    rw [encode_map, hmaps.length_eq]
    simp only [← rootSignature_eq]
    rfl

end PipelineArchive.Patch.Direct3d

namespace PipelineArchive.Patch

open Direct3d

/-- The header of a Direct3D12 pipeline is the encoding of one that describes its signatures in
binding order and its shaders. It is read back, whatever follows it, exactly if its texts and lists
can be counted, as they all can in a header of less than four gibibytes. -/
theorem deviceHeader_d3d12 (layout : PipelineLayout) (shaders : List CompiledShader)
    {bytes : Bytes} (h : deviceHeader .d3d12 layout shaders = .ok bytes) :
    ∃ header : Header, header.Describes layout shaders ∧ bytes = encode header ∧
      ((Readable.decoder : Decoder Header).Reads bytes header ↔ isBounded header) ∧
      (bytes.length < UInt32.size → isBounded header) ∧
      ∀ signatures, PipelineLayout.ofSignatures .d3d12 signatures = .ok layout →
        List.Forall₂ SignatureLayout.Places layout.signatures
          (Signature.inBindingOrder signatures) := by
  obtain ⟨header, hdescribes, rfl⟩ := exists_describes h
  refine ⟨header, hdescribes, rfl, Readable.reads_iff, ?_, ?_⟩
  · exact Readable.isBounded_of_length
  · intro signatures hlayout
    exact PipelineLayout.ofSignatures_places hlayout

/-- A signature with resources for three tables, one of which is shared by a static and a mutable
resource, and an immutable sampler of its own. -/
def sceneSignature : Signature where
  name := "Scene"
  bindingIndex := 2
  resources := [
    { name := "g_Textures", stages := .singleton .pixel, arraySize := 3
      resourceType := .textureSrv, varType := .mutable },
    { name := "g_Sampler", stages := .singleton .pixel, arraySize := 1
      resourceType := .sampler, varType := .dynamic },
    { name := "g_Object", stages := .singleton .vertex, arraySize := 1
      resourceType := .constantBuffer, varType := .dynamic },
    { name := "g_Noise", stages := .singleton .pixel, arraySize := 1
      resourceType := .textureSrv, varType := .static }]
  immutableSamplers := [⟨.singleton .pixel, "g_Shadow", {}⟩]

/-- A shader that uses the second texture of the signature and its immutable sampler. -/
def sceneShader : CompiledShader where
  backend := .d3d12
  language := .hlsl
  code := containerMagic
  entryPoint := "main"
  reflection := {
    stage := .pixel, entryPoint := "main", vertexInputs := []
    resources := [
      { name := "g_Shadow", resourceType := .sampler, set := 0, binding := 0, arraySize := 1
        stages := .singleton .pixel },
      { name := "g_Noise", resourceType := .textureSrv, set := 0, binding := 0, arraySize := 1
        stages := .singleton .pixel }] }

def sceneLayout : PipelineLayout where
  backend := .d3d12
  signatures := [{
    backend := .d3d12, name := "Scene", bindingIndex := 2, setCount := 0
    bindings := [
      ⟨"g_Textures", .textureSrv, .mutable, .singleton .pixel, 3, 2, 0, false⟩,
      ⟨"g_Sampler", .sampler, .dynamic, .singleton .pixel, 1, 2, 0, false⟩,
      ⟨"g_Object", .constantBuffer, .dynamic, .singleton .vertex, 1, 2, 0, false⟩,
      ⟨"g_Noise", .textureSrv, .static, .singleton .pixel, 1, 2, 3, false⟩,
      ⟨"g_Shadow", .sampler, .static, .singleton .pixel, 1, 2, 1, true⟩] }]

theorem ofSignatures_sceneSignature :
    PipelineLayout.ofSignatures .d3d12 [sceneSignature] = .ok sceneLayout := by
  rw [PipelineLayout.ofSignatures, Signature.inBindingOrder, List.mergeSort_singleton]
  decide

def sceneHeader : Header where
  signatures := [{
    name := "Scene", bindingIndex := 2
    tables := [
      (.staticResources, [⟨.srv, 0, 2, 3⟩, ⟨.srv, 3, 2, 1⟩]),
      (.dynamicResources, [⟨.cbv, 0, 2, 1⟩]),
      (.dynamicSamplers, [⟨.sampler, 0, 2, 1⟩])]
    samplers := [⟨"g_Shadow", 1, 2, .singleton .pixel⟩] }]
  shaders := [(.pixel, [⟨"g_Shadow", .sampler, 2, 1, 1⟩, ⟨"g_Noise", .srv, 2, 3, 1⟩])]

/-- The header of the signature has three tables and a static sampler, and is read back. -/
theorem deviceHeader_d3d12_sceneSignature :
    PipelineLayout.ofSignatures .d3d12 [sceneSignature] = .ok sceneLayout ∧
    deviceHeader .d3d12 sceneLayout [sceneShader] = .ok (encode sceneHeader) ∧
    sceneHeader.Describes sceneLayout [sceneShader] ∧
    (Readable.decoder : Decoder Header).Reads (encode sceneHeader) sceneHeader := by
  have hbytes : deviceHeader .d3d12 sceneLayout [sceneShader] = .ok (encode sceneHeader) := by
    decide +kernel
  obtain ⟨header, hdescribes, -, hreads, hbounded, -⟩ :=
    deviceHeader_d3d12 sceneLayout [sceneShader] hbytes
  have hread := hreads.2 (hbounded (by decide +kernel))
  have hscene : (Readable.decoder : Decoder Header).Reads (encode sceneHeader) sceneHeader :=
    Readable.reads (by decide +kernel)
  -- the bytes are read as both headers
  have hsame : header = sceneHeader :=
    Except.ok.inj (congrArg Prod.fst ((hread 0 []).symm.trans (hscene 0 [])))
  exact ⟨ofSignatures_sceneSignature, hbytes, hsame ▸ hdescribes, hscene⟩

end PipelineArchive.Patch
