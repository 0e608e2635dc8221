import PipelineArchive.Proofs.Container.Opening

/-!
# What an opened archive answers

An archive that was opened from what was written lists the records of every kind in their order
(`entries_spec`), reads every record with its data on all backends (`record_spec`), and reads
the shaders of every backend (`shaders_eq`).

A datum without bytes would be lost, since a backend whose region is empty has none: data are
therefore asked not to be empty.
-/

set_option autoImplicit false

namespace PipelineArchive.Container

open Results

namespace Layout

variable {l : Layout} {c : Contents} {records : List Record} {builder : Option String} {a : Archive}

section

variable (h : l.Of c records builder) (hsize : l.bytes.length < UInt32.size) (ha : l.Opened a)
include h hsize ha

/-! ## Entries -/

/-- A kind of named records is listed in archive order. -/
theorem Of.entries_spec {kind : ChunkKind} (hkind : kind.isNamed = true) :
    List.Forall₂ EntryOf (placedOf (placedIn l.bodies records) kind) (a.entries kind) := by
  by_cases hmem : kind ∈ l.chunks.map (·.1)
  · obtain ⟨⟨_, bytes⟩, hchunk, rfl⟩ := List.mem_map.1 hmem
    obtain ⟨body, hbody, -, hnamed⟩ :=
      exists_body h.chunks hchunk (h.length_chunk_lt hsize hchunk)
    obtain ⟨found, rfl, hfound⟩ := hnamed hkind
    rw [Archive.entries, chunk?_of_mem ha.chunks h.nodup_kinds hchunk hbody]
    exact hfound
  -- a kind without a chunk has no records
  · rw [Archive.entries, chunk?_eq_none ha.chunks hmem, placedOf_of_notMem h.chunks hkind hmem]
    exact .nil

/-- A backend has a table of shaders where its region has one. -/
theorem Of.shaderTable?_eq (b : Backend) : a.shaderTable? b = (l.regions.get b).table? := by
  by_cases hmem : ChunkKind.shaders ∈ l.chunks.map (·.1)
  · obtain ⟨⟨kind, bytes⟩, hchunk, hkind⟩ := List.mem_map.1 hmem
    simp only at hkind
    subst hkind
    obtain ⟨body, hbody, hshaders, -⟩ :=
      exists_body h.chunks hchunk (h.length_chunk_lt hsize hchunk)
    rw [Archive.shaderTable?, chunk?_of_mem ha.chunks h.nodup_kinds hchunk hbody, hshaders rfl]
    exact PerBackend.get_map _ _ b
  -- without the chunk no region has a table
  · rw [Archive.shaderTable?, chunk?_eq_none ha.chunks hmem, table?_of_notMem h.chunks hmem b]

/-! ## Records -/

/-- The data of a record are found on every backend, if none of them is empty. -/
theorem Of.deviceData?_eq {i : Nat} {r : Record} (hr : records[i]? = some r) {b : Backend}
    (hne : r.device.get b ≠ some []) {view : Archive.RecordView}
    (hplace : placeWords ((r.device.get b).map fun d =>
      ((packed ((column records b).take i)).length, d.length)) =
        .ok (view.header.offsets.get b, view.header.sizes.get b)) (name : String) :
    a.deviceData? b view name = .ok (r.device.get b) := by
  cases hd : r.device.get b with
  | none =>
    rw [hd] at hplace
    rw [Archive.deviceData?, if_pos (placeWords_none hplace)]
  | some d =>
    rw [hd] at hplace hne
    obtain ⟨hoffset, hlength⟩ := placeWords_some hplace
    -- the datum has bytes, so its region is not empty and is found where it starts
    have hpositive : 0 < d.length := List.length_pos_of_ne_nil fun hnil => hne (by rw [hnil])
    have hdatum : (column records b)[i]? = some (some d) := by simp [column, hr, hd]
    have hat := (hasAt_column (h.regions b)).trans (hasAt_packed hdatum)
    rw [Nat.zero_add] at hat
    have hle := hat.le_length
    have hend := h.start_add_le b
    have hregionSize : (l.regions.get b).size = (l.regions.get b).bytes.length := rfl
    have hregion : a.header.region? b = some (l.start b) := by
      rw [ha.header, h.region?_eq hsize, if_neg (by omega)]
    have hbounds := offset_bounds
    -- its place lies in the archive, so it is not the invalid one
    have hvalid : view.header.offsets.get b ≠ invalidOffset := ne_invalidOffset (by omega)
    have hfirst : saturatingAdd (l.start b) (packed ((column records b).take i)).length =
        l.start b + (packed ((column records b).take i)).length := saturatingAdd_eq (by omega)
    rw [Archive.deviceData?, if_neg hvalid]
    simp only [hregion, h.regionEnd_eq hsize ha, hoffset, hlength]
    rw [hfirst, saturatingAdd_eq (by omega), if_neg (by omega), ha.data,
      sliceBetween_eq ((h.hasAt_region b).trans hat) rfl]
    rfl

/-- The record of a number is found in the common region, with the places of its data. -/
theorem Of.record_at {i : Nat} {r : Record} {body : Bytes} (hr : records[i]? = some r)
    (hbody : l.bodies[i]? = some body) {e : NamedEntry}
    (he : EntryOf (r, (packed ((l.bodies.map some).take i)).length, body.length) e) :
    a.verifyPlace r.kind e = .ok () ∧
      ∃ header, a.record r.kind e = .ok ⟨header, r.payload⟩ ∧
        ∀ b, placeWords ((r.device.get b).map fun d =>
            ((packed ((column records b).take i)).length, d.length)) =
          .ok (header.offsets.get b, header.sizes.get b) := by
  obtain ⟨-, hoffset, hsizeword⟩ := he
  simp only at hoffset hsizeword
  obtain ⟨header, hheader, hkind, hplaces⟩ := (commonRecords_spec h.bodies).2 i r hr
  rw [hbody] at hheader
  injection hheader with hheader
  have hpacked : l.common.HasAt (packed ((l.bodies.map some).take i)).length body :=
    hasAt_packed (by rw [List.getElem?_map, hbody]; rfl)
  -- the body stands in the common region, and that stands in the archive
  have hat := h.hasAt_common.trans hpacked
  have hle := hat.le_length
  have hinside := hpacked.le_length
  have hbodysize : body.length = DataHeader.size + r.payload.length := by
    rw [hheader, List.length_append, length_encode_dataHeader]
  have hbounds := offset_bounds
  refine ⟨?_, header, ?_, hplaces⟩
  · simp only [Archive.verifyPlace, h.common_eq hsize ha, h.commonEnd_eq hsize ha, hoffset,
      hsizeword]
    have hregionsStart : l.regionsStart = l.commonStart + l.common.length := rfl
    rw [if_neg (by omega), if_neg (by omega)]
  -- the reader takes the body, reads its head and keeps what is behind that
  · have hslice : slicePart a.data (saturatingAdd a.header.common.toNat e.offset.toNat)
        e.size.toNat (.record r.kind e.name) = .ok body := by
      rw [h.common_eq hsize ha, hoffset, saturatingAdd_eq (by omega), ha.data]
      exact slicePart_eq hat hsizeword (le_maxOffset hsize)
    have hread : Archive.readDataHeader.value? body = .ok header := by
      rw [hheader]
      exact (reads_dataHeader header).value? r.payload
    have hpayload : sliceBetween body DataHeader.size body.length = .ok r.payload :=
      sliceBetween_eq ⟨encode header, [], by rw [List.append_nil]; exact hheader,
        length_encode_dataHeader header⟩ hbodysize
    refine bind_eq_ok_iff.2 ⟨body, hslice, bind_eq_ok_iff.2 ⟨header, hread, ?_⟩⟩
    simp only [hkind, ne_eq, not_true_eq_false, if_false]
    exact bind_eq_ok_iff.2 ⟨r.payload, hpayload, rfl⟩

/-- A record is found in the common region, with its payload and its data on all backends. -/
theorem Of.record_spec {placed : Record × Nat × Nat}
    (hmem : placed ∈ placedIn l.bodies records) {e : NamedEntry} (he : EntryOf placed e)
    (hne : ∀ b, placed.1.device.get b ≠ some []) :
    a.verifyPlace placed.1.kind e = .ok () ∧
      ∃ header, a.record placed.1.kind e = .ok ⟨header, placed.1.payload⟩ ∧
        ∀ b name, a.deviceData? b ⟨header, placed.1.payload⟩ name =
          .ok (placed.1.device.get b) := by
  obtain ⟨r, offset, size⟩ := placed
  obtain ⟨i, body, hr, hbody, rfl, rfl⟩ := mem_placedIn hmem
  obtain ⟨hplace, header, hrecord, hplaces⟩ := h.record_at hsize ha hr hbody he
  exact ⟨hplace, header, hrecord, fun b name =>
    h.deviceData?_eq hsize ha hr (hne b) (hplaces b) name⟩

/-! ## Shaders -/

/-- The shaders of a backend are read, if each of them can be. -/
theorem Of.shaders_eq {b : Backend} {views : List Archive.ShaderView}
    (hviews : List.Forall₂ (fun shader view =>
      ∀ index, (Archive.readShader b index).Reads shader view) (c.shaders.get b).shaders views) :
    a.shaders b = .ok views := by
  by_cases hnil : (c.shaders.get b).shaders = []
  · rw [hnil] at hviews
    cases hviews
    have hnone : (l.regions.get b).table? = none := by
      rcases region_spec (h.regions b) with ⟨-, -, htable⟩ | ⟨hne, -⟩
      · rw [Region.table?, htable]
        rfl
      · exact absurd hnil hne
    simp only [Archive.shaders, h.shaderTable?_eq hsize ha, hnone]
    rfl
  · have hend := h.start_add_le b
    have hbounds := offset_bounds
    -- the table lies in the region, so the region is not empty and the place not invalid
    obtain ⟨hlength, hplace, table, htable, hread⟩ :=
      read_shaderTable (h.regions b) (by omega) hnil hviews
    have hregion : a.header.region? b = some (l.start b) := by
      rw [ha.header, h.region?_eq hsize, if_neg (by omega)]
    have hvalid : (l.regions.get b).table.1 ≠ invalidOffset := ne_invalidOffset (by omega)
    have hsome : (l.regions.get b).table? =
        some ((l.regions.get b).table.1, (l.regions.get b).table.2) := by
      rw [Region.table?, if_neg hvalid]
    have hslice : sliceBetween a.data (l.start b) (l.start b + (l.regions.get b).size) =
        .ok (l.regions.get b).bytes := by
      rw [ha.data]
      exact sliceBetween_eq (h.hasAt_region b) rfl
    have hfirst : saturatingAdd (l.start b) (l.regions.get b).table.1.toNat =
        l.start b + (l.regions.get b).table.1.toNat := saturatingAdd_eq (by omega)
    simp only [Archive.shaders, h.shaderTable?_eq hsize ha, hsome, hregion,
      h.regionEnd_eq hsize ha]
    rw [hfirst, saturatingAdd_eq (by omega), if_neg (by omega)]
    exact bind_eq_ok_iff.2 ⟨_, hslice, bind_eq_ok_iff.2 ⟨table, htable, hread⟩⟩

end

end Layout

end PipelineArchive.Container
