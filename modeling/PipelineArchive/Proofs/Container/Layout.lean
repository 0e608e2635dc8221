import PipelineArchive.Proofs.Container.Chunks

/-!
# What is written

A `Layout` has the parts of an archive: the bodies of the records, the regions of the backends,
the chunks and the directory. `exists_layout` says that every archive that is written consists
of the parts of a layout that belongs to its contents, one behind the other, and `length_bytes`
that it has the size that is predicted.

`exists_write` is the converse: the writer succeeds whenever the predicted size fits 32 bits,
since every number that it writes down is bounded by that size.
-/

set_option autoImplicit false

namespace PipelineArchive.Container

open Results

/-! ## The common region -/

/-- The records with their places in the common region. -/
def placedIn (bodies : List Bytes) (records : List Record) : List (Record × Nat × Nat) :=
  records.zip (((placesFrom 0 (bodies.map some)).map fun p => (p.map (·.1)).getD 0).zip
    (bodies.map List.length))

/-- The place of a record is that of its body. -/
theorem mem_placedIn {bodies : List Bytes} {records : List Record} {r : Record}
    {offset size : Nat} (h : (r, offset, size) ∈ placedIn bodies records) :
    ∃ (i : Nat) (body : Bytes), records[i]? = some r ∧ bodies[i]? = some body ∧
      offset = (packed ((bodies.map some).take i)).length ∧ size = body.length := by
  obtain ⟨i, hi⟩ := List.mem_iff_getElem?.1 h
  obtain ⟨hr, hplace⟩ := List.getElem?_zip_eq_some.1 hi
  obtain ⟨hoffset, hsize⟩ := List.getElem?_zip_eq_some.1 hplace
  simp only [List.getElem?_map, getElem?_placesFrom] at hr hoffset hsize
  cases hbody : bodies[i]? with
  | none =>
    rw [hbody] at hsize
    cases hsize
  | some body =>
    rw [hbody] at hoffset hsize
    simp only [Option.map_some, Option.some.injEq, Option.getD_some, Nat.zero_add] at hoffset hsize
    exact ⟨i, body, hr, hbody, hoffset.symm, hsize.symm⟩

/-- Every record has the place of its body. -/
theorem getElem?_placedIn {bodies : List Bytes} {records : List Record} {i : Nat} {r : Record}
    {body : Bytes} (hr : records[i]? = some r) (hbody : bodies[i]? = some body) :
    (placedIn bodies records)[i]? =
      some (r, (packed ((bodies.map some).take i)).length, body.length) := by
  refine List.getElem?_zip_eq_some.2 ⟨hr, List.getElem?_zip_eq_some.2 ⟨?_, ?_⟩⟩
  · simp [getElem?_placesFrom, hbody]
  · rw [List.getElem?_map, hbody]
    rfl

theorem map_placedIn {bodies : List Bytes} {records : List Record}
    (h : bodies.length = records.length) : (placedIn bodies records).map (·.1) = records := by
  rw [placedIn, List.map_fst_zip]
  rw [List.length_zip, List.length_map, length_placesFrom, List.length_map, List.length_map]
  omega

/-- A record ends no later than the common region. -/
theorem place_le_packed {bodies : List Bytes} {records : List Record} {r : Record}
    {offset size : Nat} (h : (r, offset, size) ∈ placedIn bodies records) :
    offset + size ≤ (packed (bodies.map some)).length := by
  obtain ⟨i, body, -, hbody, rfl, rfl⟩ := mem_placedIn h
  exact packed_take_add_le (by rw [List.getElem?_map, hbody]; rfl)

/-- The sizes of the records are those of their heads and payloads. -/
theorem map_length_bodies {bodies : List Bytes} {records : List Record}
    (h : commonRecords records = .ok bodies) :
    bodies.map List.length = records.map fun r => DataHeader.size + r.payload.length := by
  obtain ⟨hlength, hspec⟩ := commonRecords_spec h
  apply List.ext_getElem?
  intro i
  rw [List.getElem?_map, List.getElem?_map]
  -- the two lists agree at every index, for there are as many bodies as records
  cases hr : records[i]? with
  | none =>
    rw [List.getElem?_eq_none_iff] at hr
    rw [List.getElem?_eq_none (by omega)]
    rfl
  | some r =>
    obtain ⟨header, hbody, -, -⟩ := hspec i r hr
    simp [hbody]

/-- The size of the common region is the one that is predicted. -/
theorem length_common {bodies : List Bytes} {records : List Record}
    (h : commonRecords records = .ok bodies) : (packed (bodies.map some)).length =
      totalSize (records.map fun r => paddedSize (DataHeader.size + r.payload.length)) := by
  have hbodies := congrArg (List.map paddedSize) (map_length_bodies h)
  rw [List.map_map, List.map_map] at hbodies
  rw [length_packed_some]
  exact congrArg totalSize hbodies

/-! ## The parts of an archive -/

/-- The parts that an archive consists of. -/
structure Layout where
  bodies : List Bytes
  regions : PerBackend Region
  chunks : List (ChunkKind × Bytes)
  chunkCount : UInt32
  directory : Bytes

namespace Layout

/-- The common region. -/
def common (l : Layout) : Bytes := packed (l.bodies.map some)

/-- Where the chunks start. -/
def chunksStart (l : Layout) : Nat := Header.size + ChunkHeader.byteSize * l.chunks.length

/-- Where the common region starts. -/
def commonStart (l : Layout) : Nat :=
  l.chunksStart + totalSize (l.chunks.map fun chunk => chunk.2.length)

/-- Where the regions of the backends start. -/
def regionsStart (l : Layout) : Nat := l.commonStart + l.common.length

/-- The sizes of the regions of the backends. -/
def sizes (l : Layout) : List Nat := l.regions.toList.map Region.size

/-- The header. -/
def header (l : Layout) : Header where
  magic := magic
  version := version
  chunkCount := l.chunkCount
  regions := .ofFn fun b =>
    UInt64.ofNat ((regionStarts l.regionsStart l.sizes).getD b.ordinal 0)
  common := UInt64.ofNat l.commonStart

/-- The regions of the backends as they follow one another. -/
def regionBytes (l : Layout) : Bytes := l.regions.toList.flatMap Region.bytes

/-- The parts one behind the other. -/
def bytes (l : Layout) : Bytes :=
  encode l.header ++ l.directory ++ chunkBodies l.chunks ++ l.common ++ l.regionBytes

/-- The parts belong to some contents. -/
structure Of (l : Layout) (c : Contents) (records : List Record) (builder : Option String) :
    Prop where
  bodies : commonRecords records = .ok l.bodies
  regions (b : Backend) : region c records b = .ok (l.regions.get b)
  chunks : Container.chunks builder (placedIn l.bodies records) l.regions = .ok l.chunks
  chunkCount : word l.chunks.length = .ok l.chunkCount
  directory : chunkHeaders l.chunksStart l.chunks = .ok l.directory

theorem flatten_filter (pieces : List Bytes) :
    (pieces.filter fun piece => !piece.isEmpty).flatten = pieces.flatten := by
  induction pieces with
  | nil => rfl
  | cons piece rest ih =>
    cases piece with
    | nil => exact ih
    | cons byte bytes => simp [ih]

theorem flatten_pieces (regions : List Region) :
    (regions.flatMap Region.pieces).flatten = regions.flatMap Region.bytes := by
  induction regions with
  | nil => rfl
  | cons r rest ih =>
    rw [List.flatMap_cons, List.flatten_append, ih, List.flatMap_cons, Region.bytes]

/-- An archive that is written has the parts of a layout. -/
theorem exists_layout {c : Contents} {records : List Record} {builder : Option String}
    {image : Image} (h : write c records builder = .ok image) :
    ∃ l : Layout, l.Of c records builder ∧ image.bytes = l.bytes := by
  obtain ⟨bodies, hbodies, h⟩ := bind_eq_ok_iff.1 h
  obtain ⟨regions, hregions, h⟩ := bind_eq_ok_iff.1 h
  obtain ⟨written, hchunks, h⟩ := bind_eq_ok_iff.1 h
  obtain ⟨count, hcount, h⟩ := bind_eq_ok_iff.1 h
  obtain ⟨directory, hdirectory, h⟩ := bind_eq_ok_iff.1 h
  cases h
  refine ⟨⟨bodies, regions, written, count, directory⟩,
    ⟨hbodies, ofFnM_eq_ok_iff.1 hregions, hchunks, hcount, hdirectory⟩, ?_⟩
  -- the parts are written in pieces, of which the empty ones are left out
  rw [Image.bytes_eq, flatten_filter, List.flatten_append, flatten_pieces]
  simp only [List.flatten_cons, List.flatten_nil, List.append_nil]
  rfl

/-- The size that is said of an archive is that of its pieces. -/
theorem size_of_write {c : Contents} {records : List Record} {builder : Option String}
    {image : Image} (h : write c records builder = .ok image) :
    image.size = totalSize (image.pieces.map List.length) := by
  obtain ⟨_, -, h⟩ := bind_eq_ok_iff.1 h
  obtain ⟨_, -, h⟩ := bind_eq_ok_iff.1 h
  obtain ⟨_, -, h⟩ := bind_eq_ok_iff.1 h
  obtain ⟨_, -, h⟩ := bind_eq_ok_iff.1 h
  obtain ⟨_, -, h⟩ := bind_eq_ok_iff.1 h
  cases h
  rfl

/-- A layout is written as an archive. -/
theorem Of.exists_image {l : Layout} {c : Contents} {records : List Record}
    {builder : Option String} (h : l.Of c records builder) :
    ∃ image, write c records builder = .ok image :=
  ⟨_, bind_eq_ok_iff.2 ⟨_, h.bodies, bind_eq_ok_iff.2 ⟨_, ofFnM_eq_ok_iff.2 h.regions,
    bind_eq_ok_iff.2 ⟨_, h.chunks, bind_eq_ok_iff.2 ⟨_, h.chunkCount,
      bind_eq_ok_iff.2 ⟨_, h.directory, rfl⟩⟩⟩⟩⟩⟩

/-! ## Sizes -/

theorem length_encode_header (h : Header) : (encode h).length = Header.size := by
  show (encode h.magic ++ encode h.version ++ encode h.chunkCount
    ++ h.regions.toList.flatMap encode ++ encode h.common).length = _
  simp only [List.length_append, length_encode_u32, length_encode_u64,
    length_toList_flatMap length_encode_u64]
  rfl

variable {l : Layout} {c : Contents} {records : List Record} {builder : Option String}

theorem Of.sizes_eq (h : l.Of c records builder) :
    l.sizes = Backend.all.map (regionSize c records) := by
  rw [sizes, PerBackend.toList, List.map_map]
  exact List.map_congr_left fun b _ => size_region (h.regions b)

theorem length_regionBytes : l.regionBytes.length = totalSize l.sizes := length_flatMap _ _

theorem Of.chunkSizes_eq (h : l.Of c records builder) :
    (l.chunks.map fun chunk => chunk.2.length) = chunkSizes c records builder := by
  have hsizes := map_length_chunks h.chunks (hasTables_eq h.regions)
  rwa [map_placedIn (commonRecords_spec h.bodies).1] at hsizes

theorem Of.length_directory (h : l.Of c records builder) :
    l.directory.length = ChunkHeader.byteSize * l.chunks.length := length_chunkHeaders h.directory

theorem length_chunkBodies (written : List (ChunkKind × Bytes)) :
    (chunkBodies written).length = totalSize (written.map fun chunk => chunk.2.length) :=
  length_flatMap _ _

/-- The archive has the size that is predicted. -/
theorem Of.length_bytes (h : l.Of c records builder) :
    l.bytes.length = measure c records builder := by
  have hcount : l.chunks.length = (chunkSizes c records builder).length := by
    rw [← h.chunkSizes_eq, List.length_map]
  simp only [bytes, List.length_append, length_encode_header, h.length_directory,
    length_chunkBodies, common, length_common h.bodies, length_regionBytes, h.chunkSizes_eq,
    h.sizes_eq, hcount, measure]

/-- The pieces that are written have the size that is predicted. -/
theorem totalSize_pieces {image : Image} (h : write c records builder = .ok image) :
    totalSize (image.pieces.map List.length) = measure c records builder := by
  obtain ⟨l, hl, hbytes⟩ := exists_layout h
  rw [← hl.length_bytes, ← hbytes, length_imageBytes]

end Layout

/-! ## Success -/

theorem regionSize_le_measure (c : Contents) (records : List Record) (builder : Option String)
    (b : Backend) : regionSize c records b ≤ measure c records builder := by
  have hmem := List.mem_map_of_mem (f := regionSize c records) (Backend.mem_all b)
  exact Nat.le_trans (le_totalSize hmem) (Nat.le_add_left _ _)

theorem packed_column_le_regionSize (c : Contents) (records : List Record) (b : Backend) :
    (packed (column records b)).length ≤ regionSize c records b := by
  rw [length_packed, column, List.filterMap_map, Function.id_comp]
  exact Nat.le_add_right _ _

theorem exists_commonRecords {records : List Record}
    (h : ∀ b, (packed (column records b)).length < UInt32.size) :
    ∃ bodies, commonRecords records = .ok bodies := by
  apply exists_mapM
  rintro ⟨r, i⟩ hmem
  have hr : records[i]? = some r := List.mem_zipIdx_iff_getElem?.1 hmem
  have hwords (b : Backend) : ∃ words, placeWords ((PerBackend.map (fun p => p[i]?.join)
      (.ofFn fun b => placesFrom 0 (records.map fun r => r.device.get b))).get b) = .ok words := by
    rw [get_places hr b]
    cases hd : r.device.get b with
    | none => exact ⟨_, rfl⟩
    | some d =>
      have hdatum : (column records b)[i]? = some (some d) := by simp [column, hr, hd]
      -- the place and the size are bounded by the packed data
      have hle := packed_take_add_le hdatum
      have hlt := h b
      obtain ⟨w, hw⟩ := exists_word (n := (packed ((column records b).take i)).length) (by omega)
      obtain ⟨s, hs⟩ := exists_word (n := d.length) (by omega)
      exact ⟨(w, s), bind_eq_ok_iff.2 ⟨w, hw, bind_eq_ok_iff.2 ⟨s, hs, rfl⟩⟩⟩
  obtain ⟨words, hwords⟩ := exists_ofFnM hwords
  exact ⟨_, bind_eq_ok_iff.2 ⟨words, hwords, rfl⟩⟩

theorem exists_shaderEntries (offset : Nat) (shaders : List Bytes)
    (h : offset + totalSize (shaders.map fun s => paddedSize s.length) < UInt32.size) :
    ∃ entries, shaderEntries offset shaders = .ok entries := by
  induction shaders generalizing offset with
  | nil => exact ⟨[], rfl⟩
  | cons shader rest ih =>
    rw [List.map_cons, totalSize] at h
    have hle := le_paddedSize shader.length
    obtain ⟨w, hw⟩ := exists_word (n := offset) (by omega)
    obtain ⟨s, hs⟩ := exists_word (n := shader.length) (by omega)
    obtain ⟨others, hothers⟩ := ih (offset + paddedSize shader.length) (by omega)
    exact ⟨_, bind_eq_ok_iff.2 ⟨w, hw, bind_eq_ok_iff.2 ⟨s, hs,
      bind_eq_ok_iff.2 ⟨others, hothers, rfl⟩⟩⟩⟩

theorem exists_region {c : Contents} {records : List Record} {b : Backend}
    (h : regionSize c records b < UInt32.size) : ∃ r, region c records b = .ok r := by
  have hhead := packed_column_le_regionSize c records b
  cases hshaders : (c.shaders.get b).shaders.isEmpty with
  | true => exact ⟨_, by simp only [region, hshaders, if_true]; rfl⟩
  | false =>
    -- the table is written with its place and size, both of which are parts of the region
    have hsize : regionSize c records b = (packed (column records b)).length
        + (4 + shaderEntrySize * (c.shaders.get b).shaders.length
          + totalSize ((c.shaders.get b).shaders.map fun s => paddedSize s.length)) := by
      have hne : ¬(c.shaders.get b).size = 0 := by
        intro hzero
        rw [List.eq_nil_of_length_eq_zero hzero] at hshaders
        cases hshaders
      rw [length_packed, column, List.filterMap_map, Function.id_comp]
      simp only [regionSize, hne, if_false]
      rfl
    obtain ⟨entries, hentries⟩ := exists_shaderEntries
      ((packed (column records b)).length + 4
        + shaderEntrySize * (c.shaders.get b).shaders.length)
      (c.shaders.get b).shaders (by omega)
    obtain ⟨w, hw⟩ := exists_word (n := (packed (column records b)).length) (by omega)
    obtain ⟨s, hs⟩ := exists_word (n := (packed (column records b)).length + 4
      + shaderEntrySize * (c.shaders.get b).shaders.length - (packed (column records b)).length
      + totalSize ((c.shaders.get b).shaders.map fun s => paddedSize s.length)) (by omega)
    simp only [region, hshaders, Bool.false_eq_true, if_false]
    exact ⟨_, bind_eq_ok_iff.2 ⟨entries, hentries, bind_eq_ok_iff.2 ⟨w, hw,
      bind_eq_ok_iff.2 ⟨s, hs, rfl⟩⟩⟩⟩

theorem exists_namedEntries (offset : Nat) {entries : List (Record × Nat × Nat)}
    (hnames : offset + (nameBytes entries).length < UInt32.size)
    (hplaces : ∀ entry ∈ entries, entry.2.1 + entry.2.2 < UInt32.size) :
    ∃ table, namedEntries offset entries = .ok table := by
  induction entries generalizing offset with
  | nil => exact ⟨[], rfl⟩
  | cons entry rest ih =>
    obtain ⟨r, place, size⟩ := entry
    have hplace := hplaces _ List.mem_cons_self
    have hlength : (nameBytes ((r, place, size) :: rest)).length =
        (Bytes.ofText r.name).length + 1 + (nameBytes rest).length := by
      simp [nameBytes]
      omega
    obtain ⟨w₁, hw₁⟩ := exists_word (n := offset) (by omega)
    obtain ⟨w₂, hw₂⟩ := exists_word (n := place) (by simp only at hplace; omega)
    obtain ⟨w₃, hw₃⟩ := exists_word (n := size) (by simp only at hplace; omega)
    obtain ⟨others, hothers⟩ := ih (offset + (Bytes.ofText r.name).length + 1)
      (by omega) fun entry hentry => hplaces entry (List.mem_cons_of_mem _ hentry)
    exact ⟨_, bind_eq_ok_iff.2 ⟨w₁, hw₁, bind_eq_ok_iff.2 ⟨w₂, hw₂, bind_eq_ok_iff.2 ⟨w₃, hw₃,
      bind_eq_ok_iff.2 ⟨others, hothers, rfl⟩⟩⟩⟩⟩

theorem exists_namedChunk {entries : List (Record × Nat × Nat)}
    (hsize : namedChunkSize (entries.map (·.1)) < UInt32.size)
    (hplaces : ∀ entry ∈ entries, entry.2.1 + entry.2.2 < UInt32.size) :
    ∃ bytes, namedChunk entries = .ok bytes := by
  have hnames : 4 + namedEntrySize * entries.length + (nameBytes entries).length ≤
      namedChunkSize (entries.map (·.1)) := by
    rw [namedChunkSize, List.length_map, length_nameBytes]
    exact le_paddedSize _
  obtain ⟨table, htable⟩ := exists_namedEntries _ (Nat.lt_of_le_of_lt hnames hsize) hplaces
  exact ⟨_, bind_eq_ok_iff.2 ⟨table, htable, rfl⟩⟩

theorem exists_chunks (c : Contents) (builder : Option String)
    (placed : List (Record × Nat × Nat)) (regions : PerBackend Region)
    (hsize : totalSize (chunkSizes c (placed.map (·.1)) builder) < UInt32.size)
    (hplaces : ∀ entry ∈ placed, entry.2.1 + entry.2.2 < UInt32.size) :
    ∃ written, chunks builder placed regions = .ok written := by
  have hnamed : ∃ named, ((presentKinds placed).mapM fun present =>
      do return (present.1, ← namedChunk present.2)) = Except.ok named := by
    apply exists_mapM
    intro present hmem
    obtain ⟨kind, entries⟩ := present
    obtain ⟨-, rfl, -⟩ := mem_presentKinds_iff.1 hmem
    -- the chunk of a kind is one of those whose sizes are summed up
    have hmem' :=
      List.mem_map_of_mem (f := fun present => namedChunkSize (present.2.map (·.1))) hmem
    rw [map_presentKinds] at hmem'
    have hle : namedChunkSize ((placedOf placed kind).map (·.1)) ≤
        totalSize (chunkSizes c (placed.map (·.1)) builder) :=
      le_totalSize (List.mem_append_left _ (List.mem_append_right _ hmem'))
    obtain ⟨bytes, hbytes⟩ := exists_namedChunk (Nat.lt_of_le_of_lt hle hsize) fun entry hentry =>
      hplaces entry (List.mem_filter.1 hentry).1
    exact ⟨_, bind_eq_ok_iff.2 ⟨bytes, hbytes, rfl⟩⟩
  obtain ⟨named, hnamed⟩ := hnamed
  exact ⟨_, bind_eq_ok_iff.2 ⟨named, hnamed, rfl⟩⟩

theorem exists_chunkHeaders (offset : Nat) (written : List (ChunkKind × Bytes))
    (h : offset + totalSize (written.map fun chunk => chunk.2.length) < UInt32.size) :
    ∃ bytes, chunkHeaders offset written = .ok bytes := by
  induction written generalizing offset with
  | nil => exact ⟨[], rfl⟩
  | cons chunk rest ih =>
    rw [List.map_cons, totalSize] at h
    obtain ⟨w₁, hw₁⟩ := exists_word (n := chunk.2.length) (by omega)
    obtain ⟨w₂, hw₂⟩ := exists_word (n := offset) (by omega)
    obtain ⟨others, hothers⟩ := ih (offset + chunk.2.length) (by omega)
    exact ⟨_, bind_eq_ok_iff.2 ⟨w₁, hw₁, bind_eq_ok_iff.2 ⟨w₂, hw₂,
      bind_eq_ok_iff.2 ⟨others, hothers, rfl⟩⟩⟩⟩

/-- The writer succeeds if the predicted size fits 32 bits. -/
theorem exists_write (c : Contents) (records : List Record) (builder : Option String)
    (h : measure c records builder < UInt32.size) :
    ∃ image, write c records builder = .ok image := by
  have hregion (b : Backend) : regionSize c records b < UInt32.size :=
    Nat.lt_of_le_of_lt (regionSize_le_measure c records builder b) h
  obtain ⟨bodies, hbodies⟩ := exists_commonRecords fun b =>
    Nat.lt_of_le_of_lt (packed_column_le_regionSize c records b) (hregion b)
  obtain ⟨regions, hregions⟩ := exists_ofFnM fun b => exists_region (hregion b)
  have hplaced : (placedIn bodies records).map (·.1) = records :=
    map_placedIn (commonRecords_spec hbodies).1
  have hcommon := length_common hbodies
  -- the predicted size is a sum, and every number that is written is one of its summands or a
  -- place that is the sum of some of them
  have hmeasure : measure c records builder = Header.size
      + ChunkHeader.byteSize * (chunkSizes c records builder).length
      + totalSize (chunkSizes c records builder) + (packed (bodies.map some)).length
      + totalSize (Backend.all.map (regionSize c records)) := by rw [hcommon, measure]
  obtain ⟨written, hchunks⟩ := exists_chunks c builder
    (placedIn bodies records) regions (by rw [hplaced]; omega)
    fun (r, place, size) hentry => by
      have hle := place_le_packed hentry
      show place + size < UInt32.size
      omega
  have hsizes := map_length_chunks hchunks (hasTables_eq (ofFnM_eq_ok_iff.1 hregions))
  rw [hplaced] at hsizes
  have hlength : written.length = (chunkSizes c records builder).length := by
    rw [← hsizes, List.length_map]
  simp only [ChunkHeader.byteSize] at hmeasure
  obtain ⟨count, hcount⟩ := exists_word (n := written.length) (by omega)
  obtain ⟨directory, hdirectory⟩ := exists_chunkHeaders
    (Header.size + ChunkHeader.byteSize * written.length) written
    (by rw [hsizes, hlength, ChunkHeader.byteSize]; omega)
  exact Layout.Of.exists_image (l := ⟨bodies, regions, written, count, directory⟩)
    ⟨hbodies, ofFnM_eq_ok_iff.1 hregions, hchunks, hcount, hdirectory⟩

end PipelineArchive.Container
