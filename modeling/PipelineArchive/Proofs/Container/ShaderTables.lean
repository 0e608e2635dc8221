import PipelineArchive.Proofs.Container.Formats
import PipelineArchive.Proofs.Container.Soundness

/-!
# Tables of shaders

The shaders of a backend are found through a table in its region. `Archive.HasShaders` says what
must be there: a table that ends in the region, in which a count is followed by as many places, and
in each of these places, within the region, the bytes of a shader. `shaders_eq_ok_iff` says that
shaders are read if it is there, and not otherwise.

Verification looks at a table only on behalf of a pipeline. `verify_shaders` says what it finds out:
the shaders of every backend that a pipeline uses are there, while any other table may be put in the
place of one that no pipeline uses, and the archive still passes (`Archive.withTable`).
`not_always_shaders` shows an archive that passes and whose only table leads out of its region.
-/

set_option autoImplicit false

namespace PipelineArchive

/-- A slice that lies in a byte string stands there. -/
theorem Bytes.hasAt_slice {whole : Bytes} {offset size : Nat} (h : offset + size ≤ whole.length) :
    whole.HasAt offset (whole.slice offset size) := by
  refine ⟨whole.take offset, whole.drop (offset + size), ?_, List.length_take_of_le (by omega)⟩
  rw [List.append_assoc, slice, ← List.drop_drop, List.take_append_drop, List.take_append_drop]

namespace Container

open Results

namespace Archive

/-! ## Shaders in a region -/

/-- A shader stands in a region in the place that a table gives for it. -/
structure Holds (region : Bytes) (place : UInt32 × UInt32) (view : ShaderView) : Prop where
  within : place.1.toNat + place.2.toNat ≤ region.length
  fits : view.bytes.length ≤ place.2.toNat
  stands : region.HasAt place.1.toNat view.bytes

/-- The places that a table lists. -/
def placeBytes (places : List (UInt32 × UInt32)) : Bytes :=
  places.flatMap fun place => encode place.1 ++ encode place.2

/-- A table stands in a region: a count, as many places, and in each of them a shader. -/
def Tabulates (region : Bytes) (offset : Nat) (views : List ShaderView) : Prop :=
  ∃ places, places.length < UInt32.size ∧
    region.HasAt offset (Encode.count places.length ++ placeBytes places) ∧
    List.Forall₂ (Holds region) places views

theorem slicePart_eq_ok_iff {region bytes : Bytes} {place : UInt32 × UInt32} {part : Part} :
    slicePart region place.1.toNat place.2.toNat part = .ok bytes ↔
      place.1.toNat + place.2.toNat ≤ region.length ∧
        bytes = region.slice place.1.toNat place.2.toNat := by
  have hoffset : place.1.toNat < UInt32.size := place.1.toNat_lt
  have hsize : place.2.toNat < UInt32.size := place.2.toNat_lt
  have hmax : 2 * UInt32.size ≤ maxOffset := by decide
  -- words are too small for their sum to saturate
  simp only [slicePart, saturatingAdd_eq (show place.1.toNat + place.2.toNat ≤ maxOffset by omega)]
  split
  · refine iff_of_false (by rintro ⟨⟩) ?_
    rintro ⟨hwithin, -⟩
    omega
  · rw [sliceBetween_eq_ok (Nat.le_add_right _ _) (by omega), Nat.add_sub_cancel_left]
    constructor
    · intro h
      cases h
      exact ⟨by omega, rfl⟩
    · rintro ⟨-, rfl⟩
      rfl

/-- A slice up to the end is what is left. -/
theorem sliceBetween_end {bytes : Bytes} {start : Nat} (h : start ≤ bytes.length) :
    sliceBetween bytes start bytes.length = .ok (bytes.drop start) := by
  rw [sliceBetween_eq_ok h (Nat.le_refl _), Bytes.slice,
    List.take_of_length_le (Nat.le_of_eq List.length_drop)]

/-- A shader is read from a place exactly if it stands there. -/
theorem holds_iff {region : Bytes} {place : UInt32 × UInt32} {view : ShaderView} (b : Backend)
    (index : Nat) (part : Part) : Holds region place view ↔
      ∃ bytes, slicePart region place.1.toNat place.2.toNat part = .ok bytes ∧
        (readShader b index).value? bytes = .ok view := by
  have hsize : place.2.toNat < UInt32.size := place.2.toNat_lt
  have hslice : (region.slice place.1.toNat place.2.toNat).length ≤ place.2.toNat :=
    List.length_take_le _ _
  have hread := readShader_eq_ok_iff b index view (Nat.lt_of_le_of_lt hslice hsize)
  constructor
  · intro h
    refine ⟨_, slicePart_eq_ok_iff.2 ⟨h.within, rfl⟩, hread.2 ?_⟩
    obtain ⟨after, hafter⟩ := h.stands.drop
    rw [Bytes.slice, hafter, List.take_append, List.take_of_length_le h.fits]
    exact ⟨_, rfl⟩
  · rintro ⟨bytes, hbytes, hview⟩
    obtain ⟨hwithin, rfl⟩ := slicePart_eq_ok_iff.1 hbytes
    obtain ⟨more, hmore⟩ := hread.1 hview
    have hat := Bytes.hasAt_slice hwithin
    rw [hmore] at hat hslice
    rw [List.length_append] at hslice
    have hfront : (view.bytes ++ more).HasAt 0 view.bytes := ⟨[], more, rfl, rfl⟩
    exact ⟨hwithin, by omega, hat.trans hfront⟩

theorem follows_readShaders (b : Backend) (region : Bytes) (index count : Nat) :
    (readShaders b region index count).Follows fun bytes views => ∃ places, places.length = count ∧
      bytes = placeBytes places ∧ List.Forall₂ (Holds region) places views := by
  induction count generalizing index with
  | zero => exact Read.follows_pure ⟨[], rfl, rfl, .nil⟩
  | succ count ih =>
    refine Read.follows_u32.bind ?_
    rintro _ offset rfl
    refine Read.follows_u32.bind ?_
    rintro _ size rfl
    refine (Read.follows_lift _).bind ?_
    rintro _ bytes ⟨rfl, hslice⟩
    refine (Read.follows_lift _).bind ?_
    rintro _ view ⟨rfl, hview⟩
    refine (ih (index + 1)).bind ?_
    rintro _ views ⟨places, rfl, rfl, hplaces⟩
    apply Read.follows_pure
    have hholds : Holds region (offset, size) view := (holds_iff b index _).2 ⟨bytes, hslice, hview⟩
    refine ⟨(offset, size) :: places, rfl, ?_, .cons hholds hplaces⟩
    simp [placeBytes]

theorem reads_placeBytes (b : Backend) {region : Bytes} {places : List (UInt32 × UInt32)}
    {views : List ShaderView} (h : List.Forall₂ (Holds region) places views) (index : Nat) :
    (readShaders b region index places.length).Reads (placeBytes places) views := by
  induction h generalizing index with
  | nil => exact Read.Reads.pure []
  | @cons place view places views hfirst _ ih =>
    obtain ⟨bytes, hslice, hview⟩ := (holds_iff b index (.shader b index)).1 hfirst
    rw [placeBytes, List.flatMap_cons, List.append_assoc]
    refine (Read.reads_u32 place.1).bind ?_
    refine (Read.reads_u32 place.2).bind ?_
    -- what stands in the place takes no bytes of the table
    exact (Read.Reads.lift hslice).bind ((Read.Reads.lift hview).bind (ih (index + 1)).bind_pure)

/-- A table is read exactly if it stands there. -/
theorem readTable_eq_ok_iff (b : Backend) {region : Bytes} {offset : Nat}
    (hoffset : offset ≤ region.length) (views : List ShaderView) :
    (do
      let count ← Read.ofDecoder (.count shaderEntrySize)
      readShaders b region 0 count : Read (List ShaderView)).value? (region.drop offset) =
        .ok views ↔ Tabulates region offset views := by
  constructor
  · intro h
    have hfollows : (do
        let count ← Read.ofDecoder (.count shaderEntrySize)
        readShaders b region 0 count : Read (List ShaderView)).Follows fun bytes views =>
          ∃ places, places.length < UInt32.size ∧
            bytes = Encode.count places.length ++ placeBytes places ∧
            List.Forall₂ (Holds region) places views := by
      refine (Read.follows_ofDecoder (Decoder.follows_count _)).bind ?_
      rintro _ count ⟨rfl, hcount⟩ c c' views hread
      obtain ⟨_, hrest, places, rfl, rfl, hplaces⟩ :=
        follows_readShaders b region 0 count c c' views hread
      exact ⟨_, hrest, places, hcount, rfl, hplaces⟩
    obtain ⟨_, more, hdrop, places, hcount, rfl, hplaces⟩ := hfollows.value? h
    refine ⟨places, hcount, ⟨region.take offset, more, ?_, List.length_take_of_le hoffset⟩, hplaces⟩
    rw [List.append_assoc, ← hdrop, List.take_append_drop]
  · rintro ⟨places, hcount, hat, hplaces⟩
    obtain ⟨after, hafter⟩ := hat.drop
    rw [hafter]
    refine (Read.Reads.count_bind hcount ?_ (reads_placeBytes b hplaces 0)).value? after
    have hlength : (placeBytes places).length = shaderEntrySize * places.length :=
      Encode.length_flatMap_const (fun place => by simp [shaderEntrySize]) places
    rw [hlength, Nat.mul_comm]

/-! ## Shaders of a backend -/

/-- The shaders of a backend are there: its table ends in its region, and it and the shaders that it
lists stand there. Without a table there are none. -/
def HasShaders (a : Archive) (b : Backend) (views : List ShaderView) : Prop :=
  (a.shaderTable? b = none ∧ views = []) ∨
    ∃ table start, a.shaderTable? b = some table ∧ a.header.region? b = some start ∧
      start + table.1.toNat + table.2.toNat ≤ a.regionEnd b ∧
      Tabulates (a.data.slice start (a.regionEnd b - start)) table.1.toNat views

variable {a : Archive} {b : Backend}

/-- Shaders are read exactly if they are there. -/
theorem shaders_eq_ok_iff (hlength : a.data.length ≤ maxLength) (hwithin : a.RegionsWithin)
    {views : List ShaderView} : a.shaders b = .ok views ↔ a.HasShaders b views := by
  unfold shaders HasShaders
  cases htable : a.shaderTable? b with
  | none =>
    constructor
    · intro h
      cases h
      exact .inl ⟨rfl, rfl⟩
    · rintro (⟨-, rfl⟩ | ⟨_, _, h, -⟩)
      · rfl
      · cases h
  | some table =>
    obtain ⟨offset, size⟩ := table
    cases hregion : a.header.region? b with
    | none =>
      refine iff_of_false (by rintro ⟨⟩) ?_
      rintro (⟨h, -⟩ | ⟨_, _, -, h, -⟩)
      · cases h
      · cases h
    | some start =>
      have hend := hwithin.regionEnd_le b
      have hmax : maxLength < maxOffset := by decide
      simp only [Option.some.injEq, reduceCtorEq, false_and, false_or]
      by_cases htable : start + offset.toNat + size.toNat ≤ a.regionEnd b
      · -- the sums end in the data, so they do not saturate
        rw [saturatingAdd_eq (show start + offset.toNat ≤ maxOffset by omega),
          saturatingAdd_eq (by omega), if_neg (by omega), sliceBetween_eq_ok (by omega) hend]
        have hoffset : offset.toNat ≤ (a.data.slice start (a.regionEnd b - start)).length := by
          rw [Bytes.slice, List.length_take, List.length_drop]
          omega
        have hread := readTable_eq_ok_iff b hoffset views
        constructor
        · intro h
          obtain ⟨region, hregion, h⟩ := bind_eq_ok_iff.1 h
          cases hregion
          rw [sliceBetween_end hoffset] at h
          exact ⟨_, _, rfl, rfl, htable, hread.1 h⟩
        · rintro ⟨_, _, rfl, rfl, -, h⟩
          refine bind_eq_ok_iff.2 ⟨_, rfl, ?_⟩
          rw [sliceBetween_end hoffset]
          exact hread.2 h
      · refine iff_of_false ?_ ?_
        · have hrefused : a.regionEnd b <
              saturatingAdd (saturatingAdd start offset.toNat) size.toNat := by
            unfold saturatingAdd
            omega
          rw [if_pos hrefused]
          rintro ⟨⟩
        · rintro ⟨_, _, rfl, rfl, h, -⟩
          exact htable h

/-! ## Backends that are used -/

/-- A pipeline that uses a backend is found under the name of an entry. -/
theorem uses_iff : a.Uses b ↔ ∃ kind ∈ ChunkKind.all, kind.isPipeline = true ∧
    ∃ e ∈ a.entries kind, (a.pipeline kind e.name).toOption.any
      (fun view => (view.device.get b).isSome) = true := by
  constructor
  · rintro ⟨kind, name, view, hkind, hview, hdata⟩
    obtain ⟨e, hlookup, -⟩ := bind_eq_ok_iff.1 hview
    obtain ⟨he, rfl⟩ := mem_of_lookup hlookup
    refine ⟨kind, ChunkKind.mem_all kind, hkind, e, he, ?_⟩
    rw [hview]
    exact hdata
  · rintro ⟨kind, -, hkind, e, -, h⟩
    cases hview : a.pipeline kind e.name with
    | error reason =>
      rw [hview] at h
      cases h
    | ok view =>
      rw [hview] at h
      exact ⟨kind, e.name, view, hkind, hview, h⟩

instance (a : Archive) (b : Backend) : Decidable (a.Uses b) := decidable_of_iff _ uses_iff.symm

/-- The archive with another place for the table of a backend. -/
def withTable (a : Archive) (b : Backend) (table : Option (UInt32 × UInt32)) : Archive :=
  { a with chunks := a.chunks.map fun (header, body) =>
      (header, match body with
        | .shaders tables => .shaders (tables.set b table)
        | body => body) }

section

variable (a : Archive) (b : Backend) (table : Option (UInt32 × UInt32))

theorem chunk?_withTable (kind : ChunkKind) :
    (a.withTable b table).chunk? kind = (a.chunk? kind).map fun body =>
      match body with
      | .shaders tables => .shaders (tables.set b table)
      | body => body := by
  unfold chunk? withTable
  rw [List.find?_map, Option.map_map, Option.map_map]
  rfl

theorem entries_withTable (kind : ChunkKind) :
    (a.withTable b table).entries kind = a.entries kind := by
  unfold entries
  rw [chunk?_withTable]
  cases a.chunk? kind with
  | none => rfl
  | some body => cases body <;> rfl

theorem shaderTable?_withTable {other : Backend} (h : other ≠ b) :
    (a.withTable b table).shaderTable? other = a.shaderTable? other := by
  unfold shaderTable?
  rw [chunk?_withTable]
  cases a.chunk? .shaders with
  | none => rfl
  | some body =>
    cases body with
    | shaders tables => simp [h]
    | _ => rfl

theorem lookup_withTable (kind : ChunkKind) (name : String) :
    (a.withTable b table).lookup kind name = a.lookup kind name := by
  simp only [lookup, find?, entries_withTable]

/-- Records are found without tables. -/
theorem pipeline_withTable (kind : ChunkKind) (name : String) :
    (a.withTable b table).pipeline kind name = a.pipeline kind name := by
  simp only [pipeline, lookup_withTable]
  rfl

theorem shaders_withTable {other : Backend} (h : other ≠ b) :
    (a.withTable b table).shaders other = a.shaders other := by
  simp only [shaders, shaderTable?_withTable a b table h]
  rfl

end

/-- A pipeline refers to the same things whatever is said of a backend that it does not use. -/
theorem Refers.withTable {view : PipelineView} (h : a.Refers view)
    (hunused : view.device.get b = none) (table : Option (UInt32 × UInt32)) :
    (a.withTable b table).Refers view where
  signatures := by
    rw [entries_withTable]
    exact h.signatures
  renderPass := by
    rw [entries_withTable]
    exact h.renderPass
  shaders other device hdevice := by
    have hne : other ≠ b := by
      rintro rfl
      rw [hunused] at hdevice
      cases hdevice
    rw [shaders_withTable a b table hne]
    exact h.shaders other device hdevice

/-- Nothing depends on the table of a backend that no pipeline uses. -/
theorem Sound.withTable (h : a.Sound) (hunused : ¬a.Uses b)
    (table : Option (UInt32 × UInt32)) : (a.withTable b table).Sound where
  common := h.common
  entry {kind e} hkind he := by
    rw [entries_withTable] at he
    obtain ⟨hplace, hhead, hrecord, hpipeline⟩ := h.entry hkind he
    refine ⟨hplace, hhead, hrecord, fun hkind => ?_⟩
    obtain ⟨view, hview, hrefers⟩ := hpipeline hkind
    refine ⟨view, (a.pipeline_withTable b table kind e.name).trans hview,
      hrefers.withTable ?_ table⟩
    by_contra hdata
    exact hunused ⟨kind, e.name, view, hkind, hview, Option.isSome_iff_ne_none.2 hdata⟩

/-- What verification says about shaders. Shaders are read exactly if their table and they
themselves stand in the region of their backend. In an archive that passes verification this is so
for every backend that a pipeline uses. But whatever place is given for the table of another
backend, the archive passes all the same. -/
theorem verify_shaders {a : Archive} (hlength : a.data.length ≤ maxLength)
    (hwithin : a.RegionsWithin) (h : a.verify = .ok ()) :
    (∀ b views, a.shaders b = .ok views ↔ a.HasShaders b views) ∧
      (∀ b, a.Uses b → ∃ views, a.HasShaders b views) ∧
      ∀ b, ¬a.Uses b → ∀ table, (a.withTable b table).verify = .ok () := by
  have hsound : a.Sound := verify_eq_ok_iff.1 h
  refine ⟨fun b views => shaders_eq_ok_iff hlength hwithin, fun b huses => ?_,
    fun b hunused table => verify_eq_ok_iff.2 (hsound.withTable hunused table)⟩
  obtain ⟨kind, name, view, hkind, hview, hdata⟩ := huses
  obtain ⟨device, hdevice⟩ := Option.isSome_iff_exists.1 hdata
  obtain ⟨views, hviews, -⟩ := (hsound.refers hkind hview).shaders b device hdevice
  exact ⟨views, (shaders_eq_ok_iff hlength hwithin).1 hviews⟩

/-- The pipelines of the archive in disorder use Vulkan, so their shaders are there. A table for a
backend that has no region does not keep it from passing, though nothing can be read there. -/
theorem verify_shaders_tangled : ∃ a, ofBytes tangled = .ok a ∧ a.verify = .ok () ∧
    a.Uses .vulkan ∧ (∃ views, a.shaders .vulkan = .ok views) ∧ ¬a.Uses .metalIos ∧
    (a.withTable .metalIos (some (0, 4))).verify = .ok () ∧
    ∀ views, (a.withTable .metalIos (some (0, 4))).shaders .metalIos ≠ .ok views := by
  have hopened : (ofBytes tangled).map (fun a => (decide (a.data.length ≤ maxLength),
      decide a.RegionsWithin, a.verify.isOk, decide (a.Uses .vulkan), decide (a.Uses .metalIos),
      ((a.withTable .metalIos (some (0, 4))).shaders .metalIos).isOk)) =
      .ok (true, true, true, true, false, false) := by decide +kernel
  obtain ⟨a, ha, hfacts⟩ := map_eq_ok_iff.1 hopened
  simp only [Prod.mk.injEq, decide_eq_true_eq, decide_eq_false_iff_not] at hfacts
  obtain ⟨hlength, hwithin, hverified, hused, hunused, hlost⟩ := hfacts
  obtain ⟨⟨⟩, hverify⟩ := exists_ok_of_isOk hverified
  obtain ⟨hiff, hshaders, htables⟩ := verify_shaders hlength hwithin hverify
  obtain ⟨views, hviews⟩ := hshaders .vulkan hused
  refine ⟨a, ha, hverify, hused, ⟨views, (hiff .vulkan views).2 hviews⟩, hunused,
    htables .metalIos hunused _, ?_⟩
  intro views hviews
  rw [hviews] at hlost
  cases hlost

/-- An archive of nothing but a table of shaders, which is said to lie in a region without bytes. -/
def stray : Bytes :=
  let regions : PerBackend UInt64 :=
    (PerBackend.replicate (UInt64.ofNat invalidOffset.toNat)).set .vulkan 144
  let tables : PerBackend (UInt32 × UInt32) :=
    (PerBackend.replicate (invalidOffset, 0)).set .vulkan (0, 4)
  encode (⟨magic, version, 1, regions, 144⟩ : Header) ++ encode (⟨.shaders, 56, 88⟩ : ChunkHeader)
    ++ tables.toList.flatMap (fun table => encode table.1 ++ encode table.2)

/-- It passes, but its shaders cannot be read. -/
theorem not_always_shaders : ∃ a, ofBytes stray = .ok a ∧ a.RegionsWithin ∧ a.verify = .ok () ∧
    ∀ views, a.shaders .vulkan ≠ .ok views := by
  have hopened : (ofBytes stray).map (fun a =>
      (decide a.RegionsWithin, a.verify.isOk, (a.shaders .vulkan).isOk)) =
      .ok (true, true, false) := by decide +kernel
  obtain ⟨a, ha, hfacts⟩ := map_eq_ok_iff.1 hopened
  simp only [Prod.mk.injEq, decide_eq_true_eq] at hfacts
  obtain ⟨hwithin, hverified, hlost⟩ := hfacts
  obtain ⟨⟨⟩, hverify⟩ := exists_ok_of_isOk hverified
  refine ⟨a, ha, hwithin, hverify, ?_⟩
  intro views hviews
  rw [hviews] at hlost
  cases hlost

end Archive

end Container

end PipelineArchive
