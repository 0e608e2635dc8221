import PipelineArchive.Proofs.Patch.ArgumentSlots

/-!
# Limits of argument tables

A layout of Metal fits into the argument tables as far as words tell: the first free slot of a table
is inside of it, or at its end (`firstFree_le_slotLimit`). The arguments that belong to no resource
have the slots from there on, and nothing checks that these are inside as well.
`patchShader_within_iff` says exactly when all arguments of a patched text are inside of their
tables, and `not_always_within` that they need not be: behind a full table there is no slot left.
-/

set_option autoImplicit false

namespace PipelineArchive.Patch.Metal

open LayoutBinding Results SignatureLayout

/-- All arguments of a text have indices inside of their tables. -/
def WithinTables (text : List Char) : Prop :=
  ∀ front table digits rest, IsIndex digits → text = front ++ (indexText table digits ++ rest) →
    Nat.ofDigitChars 10 digits 0 < table.slotLimit

/-- The last reflected resource of an argument, which is the one that gives it a slot. -/
def resourceOf? (resources : List ReflectedResource) (key : Key) : Option ReflectedResource :=
  resources.reverse.find? fun r => r.set == UInt32.ofNat key.1.ordinal && r.binding == key.2

theorem mem_arguments_iff {pieces : List Piece} {key : Key} :
    key ∈ arguments pieces ↔
      ∃ digits, .argument key.1 digits ∈ pieces ∧ placeholder digits = key.2 := by
  rw [arguments, List.mem_filterMap]
  constructor
  · rintro ⟨piece, hpiece, heq⟩
    cases piece with
    | copied c => cases heq
    | argument table digits =>
      cases heq
      exact ⟨digits, hpiece, rfl⟩
  · rintro ⟨digits, hpiece, heq⟩
    exact ⟨_, hpiece, congrArg some (Prod.ext rfl heq)⟩

/-- The arguments of a patched text have the slots that their placeholders are given. -/
theorem withinTables_iff {pieces : List Piece} (h : IsCut pieces)
    (slot : MetalArgument → UInt32 → UInt32) :
    WithinTables ((pieces.map (Piece.withSlot slot)).flatMap Piece.text) ↔
      ∀ key ∈ arguments pieces, (slot key.1 key.2).toNat < key.1.slotLimit := by
  have hvalue (n : Nat) : Nat.ofDigitChars 10 (toString n).toList 0 = n := by
    have hdigits : (toString n).toList = Nat.toDigits 10 n := by simp
    rw [hdigits, Nat.ofDigitChars_ten_toDigits]
  constructor
  · intro hwithin key hkey
    obtain ⟨digits, hpiece, hplaceholder⟩ := mem_arguments_iff.1 hkey
    obtain ⟨front, rest, hpieces⟩ := List.append_of_mem
      (List.mem_map_of_mem (f := Piece.withSlot slot) hpiece)
    have hplace := hwithin (front.flatMap Piece.text) key.1 _ (rest.flatMap Piece.text)
      (isIndex_toString (slot key.1 (placeholder digits)).toNat)
      (by rw [hpieces, List.flatMap_append, List.flatMap_cons]; rfl)
    rwa [hvalue, hplaceholder] at hplace
  · intro hwithin front table digits rest hdigits htext
    obtain ⟨piece, hpiece, heq⟩ := List.mem_map.1 (h.withSlots.mem_of_text_eq hdigits htext)
    cases piece with
    | copied c => cases heq
    | argument other index =>
      cases heq
      rw [hvalue]
      exact hwithin (table, placeholder index) (mem_arguments_iff.2 ⟨index, hpiece, rfl⟩)

section

variable {layout : PipelineLayout} {places : List (ReflectedResource × LayoutBinding)}
  {pieces : List Piece}

/-- An argument has the slot of the last resource with its set and binding. -/
theorem resource?_start_eq_some_iff
    (hplaces : ∀ p ∈ places, layout.find? p.1.name p.1.resourceType = some p.2) {key : Key}
    {slot : UInt32} :
    (Slots.start layout places).resource? key = some slot ↔
      ∃ r b, resourceOf? (places.map (·.1)) key = some r ∧
        layout.find? r.name r.resourceType = some b ∧ b.binding = slot := by
  have hresource : resourceOf? (places.map (·.1)) key = (places.reverse.find? fun p =>
      (p.1.set, p.1.binding) = (UInt32.ofNat key.1.ordinal, key.2)).map (·.1) := by
    rw [resourceOf?, ← List.map_reverse, List.find?_map]
    congr 2
    funext p
    rw [Bool.eq_iff_iff, decide_eq_true_eq, Prod.mk.injEq, Function.comp_apply, Bool.and_eq_true,
      beq_iff_eq, beq_iff_eq]
  have hslot : (Slots.start layout places).resource? key = (places.reverse.find? fun p =>
      (p.1.set, p.1.binding) = (UInt32.ofNat key.1.ordinal, key.2)).map (·.2.binding) :=
    lastValue?_map (fun p : ReflectedResource × LayoutBinding => (p.1.set, p.1.binding))
      (fun p => p.2.binding) places
  rw [hresource, hslot]
  cases hfind : places.reverse.find? fun p =>
      (p.1.set, p.1.binding) = (UInt32.ofNat key.1.ordinal, key.2) with
  | none => simp
  | some p =>
    have hp := hplaces p (List.mem_reverse.1 (List.mem_of_find?_eq_some hfind))
    simp [hp]

/-- The arguments of no resource are inside of a table exactly if there are slots left for each
of them. -/
theorem strangers_within_iff {table : MetalArgument}
    (hfits : (firstFree layout table).toNat ≤ table.slotLimit) :
    (∀ key ∈ strangers (places.map (·.1)) pieces table,
        (slotOf layout places pieces key.1 key.2).toNat < table.slotLimit) ↔
      (firstFree layout table).toNat + (strangers (places.map (·.1)) pieces table).length ≤
        table.slotLimit := by
  have hlimit : table.slotLimit < UInt32.size := by cases table <;> decide
  constructor
  · intro hwithin
    by_contra hover
    -- the slot at the end of the table has been handed out
    have hlast : table.slotLimit - (firstFree layout table).toNat <
        (strangers (places.map (·.1)) pieces table).length := by omega
    obtain ⟨key, hkey, hslot⟩ := exists_stranger_iff.2 ⟨_, hlast, rfl⟩
    have hlt := hwithin key hkey
    rw [hslot, toNat_add_ofNat (by omega)] at hlt
    omega
  · intro hroom key hkey
    obtain ⟨i, hi, hslot⟩ := exists_stranger_iff.1 ⟨key, hkey, rfl⟩
    rw [hslot, toNat_add_ofNat (by omega)]
    omega

end

/-- The first free slot of a layout is inside of its table, or at its end. -/
theorem firstFree_le_slotLimit {backend : Backend} (hbackend : backend.isMetal)
    {signatures : List Signature} {layout : PipelineLayout}
    (hlayout : PipelineLayout.ofSignatures backend signatures = .ok layout)
    (table : MetalArgument) : (firstFree layout table).toNat ≤ table.slotLimit :=
  firstFree_le_iff.2 fun b hb htable =>
    htable ▸ PipelineLayout.stop_le_slotLimit hbackend hlayout b hb

/-- A resource with the set of its table that is found with its type has a slot inside of the
table. -/
theorem binding_lt_slotLimit {backend : Backend} (hbackend : backend.isMetal)
    {signatures : List Signature} {layout : PipelineLayout}
    (hlayout : PipelineLayout.ofSignatures backend signatures = .ok layout)
    (hfits : ∀ table, slotSum (under argumentKey table layout.bindings) < UInt32.size)
    {r : ReflectedResource} (hset : r.set = UInt32.ofNat (MetalArgument.of r.resourceType).ordinal)
    {b : LayoutBinding} (hb : layout.find? r.name r.resourceType = some b)
    (htype : b.resourceType = r.resourceType) {table : MetalArgument}
    (htable : r.set = UInt32.ofNat table.ordinal) : b.binding.toNat < table.slotLimit := by
  have hown : MetalArgument.of b.resourceType = table := by
    rw [htype]
    exact table_eq_of_ordinal (hset.symm.trans htable)
  have hunder : b ∈ under argumentKey table layout.bindings :=
    List.mem_filter.2 ⟨(PipelineLayout.find?_spec hb).1, decide_eq_true (congrArg some hown)⟩
  obtain ⟨htiled, hsum⟩ := tiled_arguments hbackend hlayout hfits table
  calc b.binding.toNat
      < b.binding.toNat + b.slotCount := Nat.lt_add_of_pos_right b.slotCount_pos
    _ ≤ slotSum (under argumentKey table layout.bindings) := htiled.stop_le hunder
    _ ≤ table.slotLimit := hsum

/-- The arguments of a patched text are inside of their tables exactly if those of resources are,
and if each table has slots left from the first free one on for all arguments that belong to no
resource. If the slots of the layout fit in words, the first free slot is their number, and the
arguments of resources are inside where resources are found with their types and have the numbers
of their tables as sets. -/
theorem patchShader_within_iff {backend : Backend} (hbackend : backend.isMetal)
    {signatures : List Signature} {layout : PipelineLayout}
    (hlayout : PipelineLayout.ofSignatures backend signatures = .ok layout)
    {shader : CompiledShader} {code : Bytes} (h : patchShader backend layout shader = .ok code) :
    ∃ pieces patched, IsCut pieces ∧
      shader.code = Bytes.ofText (String.ofList (pieces.flatMap Piece.text)) ∧
      code = Bytes.ofText patched ∧
      (WithinTables patched.toList ↔
        (∀ key ∈ arguments pieces, ∀ r b, resourceOf? shader.reflection.resources key = some r →
          layout.find? r.name r.resourceType = some b → b.binding.toNat < key.1.slotLimit) ∧
        ∀ table, (firstFree layout table).toNat +
          (strangers shader.reflection.resources pieces table).length ≤ table.slotLimit) ∧
      ((∀ table, slotSum (under argumentKey table layout.bindings) < UInt32.size) →
        (∀ table, (firstFree layout table).toNat =
          slotSum (under argumentKey table layout.bindings)) ∧
        ((∀ r ∈ shader.reflection.resources,
            r.set = UInt32.ofNat (MetalArgument.of r.resourceType).ordinal ∧
            ∀ b, layout.find? r.name r.resourceType = some b → b.resourceType = r.resourceType) →
          ∀ key ∈ arguments pieces, ∀ r b, resourceOf? shader.reflection.resources key = some r →
            layout.find? r.name r.resourceType = some b →
              b.binding.toNat < key.1.slotLimit)) := by
  obtain ⟨places, text, hplaces, hcode, rfl⟩ := patchShader_eq_ok_iff.1 h
  obtain ⟨pieces, hcut, htext⟩ := exists_isCut text.toList
  obtain ⟨hmap, hfind⟩ := resolveAll_eq_ok_iff.1 hplaces
  have hpieces : String.ofList (pieces.flatMap Piece.text) = text := by
    rw [htext, String.ofList_toList]
  refine ⟨pieces, _, hcut, by rw [hpieces, hcode], rfl, ?_, fun hfits => ⟨fun table => ?_, ?_⟩⟩
  · rw [String.toList_ofList, ← htext, assignSlots_eq hcut, withinTables_iff hcut, ← hmap]
    have hfirst (table : MetalArgument) :=
      firstFree_le_slotLimit hbackend hlayout table
    constructor
    · intro hall
      refine ⟨fun key hkey r b hr hb => ?_, fun table => ?_⟩
      · rw [← slotOf_of_resource? ((resource?_start_eq_some_iff hfind).2 ⟨r, b, hr, hb, rfl⟩)]
        exact hall key hkey
      · refine (strangers_within_iff (hfirst table)).1 fun key hkey => ?_
        obtain ⟨rfl, hkey, -⟩ := mem_strangers_iff.1 hkey
        exact hall key hkey
    · rintro ⟨hresources, hstrangers⟩ key hkey
      cases hslot : (Slots.start layout places).resource? key with
      | some slot =>
        obtain ⟨r, b, hr, hb, rfl⟩ := (resource?_start_eq_some_iff hfind).1 hslot
        rw [slotOf_of_resource? hslot]
        exact hresources key hkey r b hr hb
      | none =>
        have hforeign := resource?_start_eq_none_iff.1 hslot
        exact (strangers_within_iff (hfirst key.1)).2 (hstrangers key.1) key
          (mem_strangers_iff.2 ⟨rfl, hkey, hforeign⟩)
  · exact toNat_firstFree (tiled_arguments hbackend hlayout hfits table).1 (hfits table)
  · intro hshape key _ r b hr hb
    obtain ⟨hset, htype⟩ := hshape r (List.mem_reverse.1 (List.mem_of_find?_eq_some hr))
    have hkey := List.find?_some hr
    rw [Bool.and_eq_true, beq_iff_eq] at hkey
    exact binding_lt_slotLimit hbackend hlayout hfits hset hb (htype b hb) hkey.1

/-- The kernel leaves room for its table of sizes. -/
theorem patchShader_within_iff_kernelShader :
    Backend.metalMacos.isMetal = true ∧
    PipelineLayout.ofSignatures .metalMacos [kernelSignature] = .ok kernelLayout ∧
    patchShader .metalMacos kernelLayout kernelShader = .ok (Bytes.ofText patchedKernelText) ∧
    WithinTables patchedKernelText.toList := by
  refine ⟨rfl, ofSignatures_kernelSignature, patchShader_kernelShader, ?_⟩
  obtain ⟨pieces, patched, hcut, hcode, hpatched, hiff, hlaidOut⟩ :=
    patchShader_within_iff rfl ofSignatures_kernelSignature patchShader_kernelShader
  have hfits (table : MetalArgument) : slotSum (under argumentKey table kernelLayout.bindings) <
      UInt32.size := by cases table <;> decide
  obtain ⟨hfirst, hshape⟩ := hlaidOut hfits
  rw [Bytes.ofText_injective hpatched]
  refine hiff.2 ⟨hshape ?_, fun table => ?_⟩
  · intro r hr
    simp only [kernelShader, List.mem_cons, List.not_mem_nil, or_false] at hr
    rcases hr with rfl | rfl | rfl
    all_goals exact ⟨rfl, by rintro b ⟨⟩; rfl⟩
  · have hlength := length_strangers_le hcut kernelShader.reflection.resources table
    have htext : kernelText = String.ofList (pieces.flatMap Piece.text) :=
      Bytes.ofText_injective hcode
    have hpieces := congrArg (fun text => text.toList.length) htext
    simp only [String.toList_ofList] at hpieces
    have hcount : kernelText.toList.length = 96 := by decide +kernel
    have hroom : slotSum (under argumentKey table kernelLayout.bindings) + 13 ≤
        table.slotLimit := by
      cases table <;> decide
    rw [hfirst]
    omega

/-! ## A full table -/

/-- A signature that takes all slots of the buffer table. -/
def fullSignature : Signature where
  name := "S"
  bindingIndex := 0
  resources := [
    { name := "g_Full", stages := .singleton .compute, arraySize := 31
      resourceType := .constantBuffer, varType := .static }]
  immutableSamplers := []

def fullLayout : PipelineLayout where
  backend := .metalMacos
  signatures := [{
    backend := .metalMacos, name := "S", bindingIndex := 0, setCount := 0
    bindings := [⟨"g_Full", .constantBuffer, .static, .singleton .compute, 31, 0, 0, false⟩] }]

/-- A kernel with a table of buffer sizes, which is no resource. -/
def sizesShader : CompiledShader where
  backend := .metalMacos
  language := .glsl
  code := Bytes.ofText "kernel void main0(constant uint* sizes [[buffer(0)]]) \x7b\x7d"
  entryPoint := "main0"
  reflection := { stage := .compute, entryPoint := "main0", resources := [], vertexInputs := [] }

/-- It is not so that all arguments of a patched text are inside of their tables: behind a full
table the next one is outside. -/
theorem not_always_within :
    ¬∀ (backend : Backend) (signatures : List Signature) (layout : PipelineLayout)
      (shader : CompiledShader) (patched : String), backend.isMetal →
      PipelineLayout.ofSignatures backend signatures = .ok layout →
      patchShader backend layout shader = .ok (Bytes.ofText patched) →
      WithinTables patched.toList := by
  intro hall
  have hlayout : PipelineLayout.ofSignatures .metalMacos [fullSignature] = .ok fullLayout := by
    rw [PipelineLayout.ofSignatures, Signature.inBindingOrder, List.mergeSort_singleton]
    decide
  have hassigned : assignSlots (.start fullLayout [])
      "kernel void main0(constant uint* sizes [[buffer(0)]]) \x7b\x7d".toList =
      "kernel void main0(constant uint* sizes [[buffer(31)]]) \x7b\x7d".toList := by decide +kernel
  have hpatched : patchShader .metalMacos fullLayout sizesShader = .ok (Bytes.ofText (String.ofList
      "kernel void main0(constant uint* sizes [[buffer(31)]]) \x7b\x7d".toList)) := by
    rw [← hassigned]
    exact patchShader_eq_ok_iff.2 ⟨[], _, rfl, rfl, rfl⟩
  have hwithin := hall .metalMacos _ _ _ _ rfl hlayout hpatched
    "kernel void main0(constant uint* sizes ".toList .buffer ['3', '1'] ") \x7b\x7d".toList
    ⟨by decide, List.all_eq_true.1 (by decide)⟩ (by decide +kernel)
  exact absurd hwithin (by decide)

end PipelineArchive.Patch.Metal
