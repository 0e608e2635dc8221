import PipelineArchive.Proofs.Container.Records

/-!
# Regions of backends

The region of a backend holds the packed data of the records and then, if the backend has
shaders, a table of their places and the packed shaders. `region_spec` says so of every region
that is written, and `reads_shaders` that the table leads the reader to every shader.

A region ends where the next one starts. The reader finds this place as the least start of the
regions that follow; `min?_regionStarts` says that it finds the right one, since empty regions
have no start and the others stand in order.
-/

set_option autoImplicit false

namespace PipelineArchive.Container

open Results

/-! ## Tables of shaders -/

theorem length_shaderEntries {offset : Nat} {shaders : List Bytes} {entries : Bytes}
    (h : shaderEntries offset shaders = .ok entries) :
    entries.length = shaderEntrySize * shaders.length := by
  induction shaders generalizing offset entries with
  | nil =>
    cases h
    rfl
  | cons shader rest ih =>
    obtain ⟨w, -, h⟩ := bind_eq_ok_iff.1 h
    obtain ⟨s, -, h⟩ := bind_eq_ok_iff.1 h
    obtain ⟨others, hothers, h⟩ := bind_eq_ok_iff.1 h
    cases h
    simp only [List.length_append, length_encode_u32, ih hothers, List.length_cons, shaderEntrySize]
    omega

/-- What a shader record is read as. -/
def shaderView (stage : ShaderStage) (entryPoint : String) (language : InputLanguage)
    (code : Bytes) : Archive.ShaderView :=
  ⟨stage, entryPoint, language.tag, code⟩

theorem find?_stage (stage : ShaderStage) :
    ShaderStage.all.find? (fun other => (StageSet.singleton other).bits ==
      (StageSet.singleton stage).bits) = some stage := by
  cases stage <;> decide

/-- The bytes that a shader is read from. -/
def Archive.ShaderView.bytes (view : Archive.ShaderView) : Bytes :=
  encode view.stage ++ encode view.entryPoint ++ encode view.language ++ Encode.sized view.code

/-- A shader is read from its bytes, if they are not too long for the counts in them. -/
theorem reads_shaderView (b : Backend) (index : Nat) (view : Archive.ShaderView)
    (h : view.bytes.length < UInt32.size) :
    (Archive.readShader b index).Reads view.bytes view := by
  -- every part is shorter than the whole, so its count fits
  have htext : (encode view.entryPoint).length = 4 + (Bytes.ofText view.entryPoint).length :=
    Encode.length_sized _
  simp only [Archive.ShaderView.bytes, List.length_append, Encode.length_sized, htext] at h
  simp only [Archive.ShaderView.bytes, List.append_assoc]
  refine (Read.reads_u32 (StageSet.singleton view.stage).bits).bind ?_
  rw [find?_stage]
  refine (Read.Reads.ofDecoder (Decoder.reads_text (by omega))).bind ?_
  refine (Read.reads_u32 view.language).bind ?_
  exact (Read.Reads.ofDecoder (Decoder.reads_sized (by omega))).bind_pure

/-- A shader record is read back, if it is not too long for the counts in it. -/
theorem reads_shader (b : Backend) (index : Nat) (stage : ShaderStage) (entryPoint : String)
    (language : InputLanguage) (code : Bytes)
    (h : (Patch.shaderRecord stage entryPoint language code).length < UInt32.size) :
    (Archive.readShader b index).Reads (Patch.shaderRecord stage entryPoint language code)
      (shaderView stage entryPoint language code) :=
  reads_shaderView b index (shaderView stage entryPoint language code) h

/-- A table leads to the shaders that stand packed at its first place. -/
theorem reads_shaders (b : Backend) {region : Bytes} (hregion : region.length ≤ maxOffset)
    {offset index : Nat} {shaders : List Bytes} {entries : Bytes}
    {views : List Archive.ShaderView} (h : shaderEntries offset shaders = .ok entries)
    (hat : region.HasAt offset (packed (shaders.map some)))
    (hviews : List.Forall₂ (fun shader view =>
      ∀ index, (Archive.readShader b index).Reads shader view) shaders views) :
    (Archive.readShaders b region index shaders.length).Reads entries views := by
  induction hviews generalizing offset index entries with
  | nil =>
    cases h
    exact Read.Reads.pure []
  | @cons shader view rest views hview _ ih =>
    obtain ⟨w, hw, h⟩ := bind_eq_ok_iff.1 h
    obtain ⟨s, hs, h⟩ := bind_eq_ok_iff.1 h
    obtain ⟨others, hothers, h⟩ := bind_eq_ok_iff.1 h
    cases h
    rw [word_eq_ok_iff] at hw hs
    -- the first shader stands at the offset, and the others behind its padding
    have hfirst : region.HasAt offset shader := by
      have hhead : ((shader :: rest).map some)[0]? = some (some shader) := rfl
      have hzero := hat.trans (hasAt_packed hhead)
      simpa using hzero
    have hrest : region.HasAt (offset + paddedSize shader.length) (packed (rest.map some)) := by
      have hbehind : (packed ((shader :: rest).map some)).HasAt (paddedSize shader.length)
          (packed (rest.map some)) :=
        ⟨Bytes.padTo alignment shader, [], by simp, length_padTo shader⟩
      exact hat.trans hbehind
    rw [List.append_assoc]
    refine (Read.reads_u32 w).bind ?_
    refine (Read.reads_u32 s).bind ?_
    have hslice : slicePart region w.toNat s.toNat (.shader b index) = .ok shader :=
      slicePart_eq (hw ▸ hfirst) hs hregion
    have hread : (Archive.readShader b index).value? shader = .ok view := (hview index).value?_self
    -- the slice and the reading of it take no bytes of the table
    rw [← List.nil_append others]
    refine (Read.Reads.lift hslice).bind ?_
    rw [← List.nil_append others]
    exact (Read.Reads.lift hread).bind (ih hothers hrest).bind_pure

/-! ## Regions -/

/-- The bytes of a region. -/
def Region.bytes (r : Region) : Bytes := r.pieces.flatten

theorem flatten_shaderPieces (shaders : List Bytes) :
    (shaders.flatMap fun s => [s, List.replicate (Bytes.padding alignment s.length) 0]).flatten =
      packed (shaders.map some) := by
  induction shaders with
  | nil => rfl
  | cons shader rest ih =>
    simp only [List.flatMap_cons, List.flatten_append, ih, List.map_cons, packed_some]
    simp [Bytes.padTo]

/-- What is written into the region of a backend, and what is said about its table. -/
theorem region_spec {c : Contents} {records : List Record} {b : Backend} {r : Region}
    (h : region c records b = .ok r) :
    let head := packed (column records b)
    let shaders := (c.shaders.get b).shaders
    (shaders = [] ∧ r.bytes = head ∧ r.table = (invalidOffset, 0)) ∨
    (shaders ≠ [] ∧ ∃ entries,
      shaderEntries (head.length + 4 + shaderEntrySize * shaders.length) shaders = .ok entries ∧
      r.bytes =
        head ++ (Encode.count shaders.length ++ entries) ++ packed (shaders.map some) ∧
      r.table.1.toNat = head.length ∧
      r.table.2.toNat = 4 + shaderEntrySize * shaders.length
        + totalSize (shaders.map fun s => paddedSize s.length)) := by
  unfold region at h
  intro head shaders
  cases hshaders : (c.shaders.get b).shaders.isEmpty with
  -- without shaders there is no table
  | true =>
    simp only [hshaders, if_true] at h
    cases h
    exact .inl ⟨List.isEmpty_iff.1 hshaders, by simp [Region.bytes, head, column], rfl⟩
  | false =>
    simp only [hshaders, Bool.false_eq_true, if_false] at h
    -- behind the early return: the entries, and the two words of the table
    obtain ⟨-, -, h⟩ := bind_eq_ok_iff.1 h
    obtain ⟨entries, hentries, h⟩ := bind_eq_ok_iff.1 h
    obtain ⟨place, hplace, h⟩ := bind_eq_ok_iff.1 h
    obtain ⟨size, hsize, h⟩ := bind_eq_ok_iff.1 h
    cases h
    rw [word_eq_ok_iff] at hplace hsize
    refine .inr ⟨?_, entries, hentries, ?_, hplace, ?_⟩
    · intro hnil
      rw [show (c.shaders.get b).shaders = [] from hnil] at hshaders
      cases hshaders
    · rw [Region.bytes, List.flatten_cons, flatten_shaderPieces, ← List.append_assoc head]
      rfl
    · have hadd (n m k : Nat) : n + 4 + m - n + k = 4 + m + k := by omega
      exact hsize.trans (hadd _ _ _)

/-- The size of a region is the one that is predicted. -/
theorem size_region {c : Contents} {records : List Record} {b : Backend} {r : Region}
    (h : region c records b = .ok r) : r.size = regionSize c records b := by
  have hhead : (packed (column records b)).length =
      totalSize ((records.filterMap fun r => r.device.get b).map fun d => paddedSize d.length) := by
    rw [length_packed, column, List.filterMap_map, Function.id_comp]
  have hsize : r.size = r.bytes.length := rfl
  unfold regionSize
  rcases region_spec h with ⟨hnil, hpieces, -⟩ | ⟨hne, entries, hentries, hpieces, -, -⟩
  · have hzero : (c.shaders.get b).size = 0 := by rw [ShaderStore.size, hnil, List.length_nil]
    rw [hsize, hpieces, hhead]
    simp only [hzero, if_true]
    rfl
  · have hzero : ¬(c.shaders.get b).size = 0 := fun h => hne (List.eq_nil_of_length_eq_zero h)
    rw [hsize, hpieces]
    simp only [hzero, if_false]
    simp only [List.length_append, Encode.length_count, length_shaderEntries hentries, hhead,
      length_packed_some, ShaderStore.size]
    omega

/-- A region has a table exactly if its backend has shaders: no table is written at the place that
stands for none, for the shaders behind it would have places that do not fit. -/
theorem table_ne_invalid_iff {c : Contents} {records : List Record} {b : Backend} {r : Region}
    (h : region c records b = .ok r) :
    r.table.1 ≠ invalidOffset ↔ 0 < (c.shaders.get b).size := by
  rcases region_spec h with ⟨hnil, -, htable⟩ | ⟨hne, entries, hentries, -, hplace, -⟩
  · rw [htable, ShaderStore.size, hnil]
    simp
  · have hpositive : 0 < (c.shaders.get b).size := List.length_pos_of_ne_nil hne
    refine iff_of_true ?_ hpositive
    obtain ⟨shader, rest, hcons⟩ := List.exists_cons_of_ne_nil hne
    rw [hcons] at hentries
    obtain ⟨w, hw, -⟩ := bind_eq_ok_iff.1 hentries
    rw [word_eq_ok_iff] at hw
    have hlt : w.toNat < UInt32.size := w.toNat_lt
    have hbounds := offset_bounds
    exact ne_invalidOffset (by omega)

theorem hasTables_eq_true_iff (regions : PerBackend Region) :
    hasTables regions = true ↔ ∃ b, (regions.get b).table.1 ≠ invalidOffset := by
  simp [hasTables, PerBackend.toList, Backend.mem_all]

/-- The tables of shaders are written exactly if they are predicted. -/
theorem hasTables_eq {c : Contents} {records : List Record} {regions : PerBackend Region}
    (h : ∀ b, region c records b = .ok (regions.get b)) : hasTables regions = hasShaders c := by
  rw [Bool.eq_iff_iff, hasTables_eq_true_iff, hasShaders, List.any_eq_true]
  simp only [table_ne_invalid_iff (h _), Backend.mem_all, true_and, decide_eq_true_eq]

/-- The data of the records stand at the head of a region. -/
theorem hasAt_column {c : Contents} {records : List Record} {b : Backend} {r : Region}
    (h : region c records b = .ok r) : r.bytes.HasAt 0 (packed (column records b)) := by
  rcases region_spec h with ⟨-, hbytes, -⟩ | ⟨-, entries, -, hbytes, -⟩
  · exact ⟨[], [], by rw [hbytes, List.append_nil]; rfl, rfl⟩
  · exact ⟨[], _, by rw [hbytes, List.append_assoc]; rfl, rfl⟩

/-- The table of a region with shaders starts in it and ends, with the shaders, where it ends. -/
theorem table_add_eq_size {c : Contents} {records : List Record} {b : Backend} {r : Region}
    (h : region c records b = .ok r) (hne : (c.shaders.get b).shaders ≠ []) :
    r.table.1.toNat + r.table.2.toNat = r.size ∧ r.table.1.toNat < r.size := by
  rcases region_spec h with ⟨hnil, -⟩ | ⟨-, entries, hentries, hbytes, hplace, hlength⟩
  · exact absurd hnil hne
  · have hentriesLength := length_shaderEntries hentries
    -- the size is the sum of its three parts: data, table, shaders
    have hr : r.size = (packed (column records b)).length
        + (4 + shaderEntrySize * (c.shaders.get b).shaders.length
          + totalSize ((c.shaders.get b).shaders.map fun s => paddedSize s.length)) := by
      show r.bytes.length = _
      rw [hbytes]
      simp only [List.length_append, Encode.length_count, hentriesLength, length_packed_some]
      omega
    exact ⟨by omega, by omega⟩

/-- The table of a region with shaders lies in it, and the shaders are read through it if each of
them can be. -/
theorem read_shaderTable {c : Contents} {records : List Record} {b : Backend} {r : Region}
    (h : region c records b = .ok r) (hsize : r.size < UInt32.size)
    (hne : (c.shaders.get b).shaders ≠ []) {views : List Archive.ShaderView}
    (hviews : List.Forall₂ (fun shader view =>
      ∀ index, (Archive.readShader b index).Reads shader view) (c.shaders.get b).shaders views) :
    r.table.1.toNat + r.table.2.toNat = r.size ∧ r.table.1.toNat < r.size ∧
      ∃ table, sliceBetween r.bytes r.table.1.toNat r.bytes.length = .ok table ∧
        Read.value? (do
          let count ← Read.ofDecoder (.count shaderEntrySize)
          Archive.readShaders b r.bytes 0 count) table = .ok views := by
  obtain ⟨hend, hstart⟩ := table_add_eq_size h hne
  rcases region_spec h with ⟨hnil, -⟩ | ⟨-, entries, hentries, hbytes, hplace, hlength⟩
  · exact absurd hnil hne
  have hentriesLength := length_shaderEntries hentries
  refine ⟨hend, hstart, Encode.count (c.shaders.get b).shaders.length ++ entries
    ++ packed ((c.shaders.get b).shaders.map some), ?_, ?_⟩
  · rw [hplace]
    refine sliceBetween_eq ⟨packed (column records b), [], ?_, rfl⟩ ?_
    · simp only [hbytes, List.append_nil, List.append_assoc]
    · rw [hbytes]
      simp only [List.length_append]
      omega
  · -- the shaders stand where the first entry of the table says
    have hshaders : r.bytes.HasAt ((packed (column records b)).length + 4
          + shaderEntrySize * (c.shaders.get b).shaders.length)
        (packed ((c.shaders.get b).shaders.map some)) := by
      refine ⟨packed (column records b)
        ++ (Encode.count (c.shaders.get b).shaders.length ++ entries), [], ?_, ?_⟩
      · rw [hbytes, List.append_nil]
      · rw [List.length_append, List.length_append, Encode.length_count, hentriesLength,
          Nat.add_assoc]
    have hregion : r.bytes.length ≤ maxOffset := by
      have hbounds := offset_bounds
      have hbytesSize : r.size = r.bytes.length := rfl
      omega
    simp only [shaderEntrySize] at hlength
    refine (Read.Reads.count_bind (by omega) ?_
      (reads_shaders b hregion hentries hshaders hviews)).value? _
    exact Nat.le_of_eq (by rw [hentriesLength, Nat.mul_comm])

/-! ## Starts and ends -/

/-- The start that a word of the header stands for, if it is one. -/
def validStart? (start : Nat) : Option Nat :=
  if start = invalidOffset.toNat then none else some start

theorem length_regionStarts (offset : Nat) (sizes : List Nat) :
    (regionStarts offset sizes).length = sizes.length := by
  induction sizes generalizing offset with
  | nil => rfl
  | cons size rest ih => simp [regionStarts, ih]

theorem drop_regionStarts (offset : Nat) (sizes : List Nat) (i : Nat) :
    (regionStarts offset sizes).drop i =
      regionStarts (offset + totalSize (sizes.take i)) (sizes.drop i) := by
  induction i generalizing offset sizes with
  | zero => simp [totalSize]
  | succ i ih =>
    cases sizes with
    | nil => simp [regionStarts]
    | cons size rest =>
      rw [regionStarts, List.drop_succ_cons, ih, List.take_succ_cons, List.drop_succ_cons,
        totalSize, Nat.add_assoc]

/-- A region that is not empty starts behind those before it. -/
theorem getElem?_regionStarts (offset : Nat) (sizes : List Nat) (i : Nat) :
    (regionStarts offset sizes)[i]? = sizes[i]?.map fun size =>
      if size = 0 then invalidOffset.toNat else offset + totalSize (sizes.take i) := by
  induction sizes generalizing offset i with
  | nil => rfl
  | cons size rest ih =>
    cases i with
    | zero => simp [regionStarts, totalSize]
    | succ i =>
      simp only [regionStarts, List.getElem?_cons_succ, ih, List.take_succ_cons, totalSize,
        Nat.add_assoc]

/-- Every start is that of a region behind the offset. -/
theorem le_of_mem_regionStarts {offset start : Nat} {sizes : List Nat}
    (h : start ∈ (regionStarts offset sizes).filterMap validStart?) : offset ≤ start := by
  induction sizes generalizing offset with
  | nil => cases h
  | cons size rest ih =>
    rw [regionStarts] at h
    obtain ⟨first, hfirst, hvalid⟩ := List.mem_filterMap.1 h
    rcases List.mem_cons.1 hfirst with rfl | hfirst
    · by_cases hsize : size = 0
      · rw [if_pos hsize, validStart?, if_pos rfl] at hvalid
        cases hvalid
      · rw [if_neg hsize, validStart?] at hvalid
        split at hvalid
        · cases hvalid
        · injection hvalid with hvalid
          omega
    · have := ih (List.mem_filterMap.2 ⟨first, hfirst, hvalid⟩)
      omega

/-- The least start of regions that follow one another is where they start; if all of them are
empty this is also where they end. -/
theorem min?_regionStarts {offset : Nat} {sizes : List Nat}
    (h : offset + totalSize sizes ≤ invalidOffset.toNat) :
    ((regionStarts offset sizes).filterMap validStart?).min?.getD (offset + totalSize sizes) =
      offset := by
  induction sizes generalizing offset with
  | nil => simp [regionStarts, totalSize]
  | cons size rest ih =>
    rw [totalSize] at h ⊢
    rw [regionStarts]
    -- an empty region has no start and does not move the offset either
    by_cases hsize : size = 0
    · have hvalid : validStart? (if size = 0 then invalidOffset.toNat else offset) = none := by
        rw [if_pos hsize, validStart?, if_pos rfl]
      rw [List.filterMap_cons_none hvalid]
      subst hsize
      simp only [Nat.add_zero, Nat.zero_add] at h ⊢
      exact ih h
    · have hvalid :
          validStart? (if size = 0 then invalidOffset.toNat else offset) = some offset := by
        rw [if_neg hsize, validStart?, if_neg (by omega)]
      rw [List.filterMap_cons_some hvalid]
      -- the first region that is not empty has the least start
      have hmin : (offset :: (regionStarts (offset + size) rest).filterMap validStart?).min? =
          some offset := by
        rw [List.min?_eq_some_iff]
        refine ⟨List.mem_cons_self, ?_⟩
        intro start hstart
        rcases List.mem_cons.1 hstart with rfl | hstart
        · exact Nat.le_refl _
        · have := le_of_mem_regionStarts hstart
          omega
      rw [hmin, Option.getD_some]

end PipelineArchive.Container
