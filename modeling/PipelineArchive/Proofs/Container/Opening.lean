import PipelineArchive.Container.Verification
import PipelineArchive.Proofs.Container.Layout

/-!
# Opening what was written

The reader accepts an archive that was written (`exists_opened`) and finds the chunks in it
that were written. It works out the regions of the backends from their starts: `region?_eq` and
`regionEnd_eq` say that it finds each where it was put, and `commonEnd_eq` that it finds the end
of the common region.
-/

set_option autoImplicit false

namespace PipelineArchive.Container

open Results

theorem reads_header (h : Header) : Header.read.Reads (encode h) h := by
  obtain ⟨magic, version, chunkCount, regions, common⟩ := h
  have hregions := Read.Reads.ofFnM fun b => Read.reads_u64 (regions.get b)
  rw [ofFn_get, ← toList_flatMap] at hregions
  show Header.read.Reads (encode magic ++ encode version ++ encode chunkCount
    ++ regions.toList.flatMap encode ++ encode common) _
  simp only [List.append_assoc]
  exact (Read.reads_u32 magic).bind <| (Read.reads_u32 version).bind <|
    (Read.reads_u32 chunkCount).bind <| hregions.bind (Read.reads_u64 common).bind_pure

namespace Layout

variable {l : Layout} {c : Contents} {records : List Record} {builder : Option String}

/-! ## Where the parts stand -/

/-- Where the region of a backend starts. -/
def start (l : Layout) (b : Backend) : Nat :=
  l.regionsStart + totalSize (l.sizes.take b.ordinal)

theorem Of.length_front (h : l.Of c records builder) :
    (encode l.header ++ l.directory).length = l.chunksStart := by
  rw [List.length_append, length_encode_header, h.length_directory, chunksStart]

theorem Of.hasAt_chunks (h : l.Of c records builder) :
    l.bytes.HasAt l.chunksStart (chunkBodies l.chunks) :=
  ⟨encode l.header ++ l.directory, l.common ++ l.regionBytes,
    by simp only [bytes, List.append_assoc], h.length_front⟩

theorem Of.hasAt_common (h : l.Of c records builder) :
    l.bytes.HasAt l.commonStart l.common := by
  refine ⟨encode l.header ++ l.directory ++ chunkBodies l.chunks, l.regionBytes, rfl, ?_⟩
  rw [List.length_append, h.length_front, length_chunkBodies, commonStart]

theorem Of.hasAt_regions (h : l.Of c records builder) :
    l.bytes.HasAt l.regionsStart l.regionBytes := by
  refine ⟨encode l.header ++ l.directory ++ chunkBodies l.chunks ++ l.common, [],
    by rw [List.append_nil]; rfl, ?_⟩
  rw [List.length_append, List.length_append, h.length_front, length_chunkBodies, regionsStart,
    commonStart]

theorem Of.length_eq (h : l.Of c records builder) :
    l.bytes.length = l.regionsStart + totalSize l.sizes := by
  have hend := h.hasAt_regions
  obtain ⟨before, after, hbytes, hbefore⟩ := hend
  rw [bytes, List.length_append, length_regionBytes]
  congr 1
  rw [List.length_append, List.length_append, h.length_front, length_chunkBodies, regionsStart,
    commonStart]

theorem getElem?_toList {α : Type} (p : PerBackend α) (b : Backend) :
    p.toList[b.ordinal]? = some (p.get b) := by
  cases b <;> rfl

theorem Of.hasAt_region (h : l.Of c records builder) (b : Backend) :
    l.bytes.HasAt (l.start b) (l.regions.get b).bytes := by
  -- split the regions at the backend: those before it take up what its start says
  have hsplit : l.regions.toList = l.regions.toList.take b.ordinal ++
      l.regions.get b :: l.regions.toList.drop (b.ordinal + 1) := by
    obtain ⟨hlt, hget⟩ := List.getElem?_eq_some_iff.1 (getElem?_toList l.regions b)
    rw [← hget, ← List.drop_eq_getElem_cons hlt, List.take_append_drop]
  have hregion : l.regionBytes.HasAt (totalSize (l.sizes.take b.ordinal))
      (l.regions.get b).bytes := by
    refine ⟨(l.regions.toList.take b.ordinal).flatMap Region.bytes,
      (l.regions.toList.drop (b.ordinal + 1)).flatMap Region.bytes, ?_, ?_⟩
    · conv_lhs => rw [regionBytes, hsplit, List.flatMap_append, List.flatMap_cons]
      rw [List.append_assoc]
    · rw [length_flatMap, sizes, ← List.map_take]
      rfl
  exact h.hasAt_regions.trans hregion

/-! ## Opening -/

/-- An archive that was opened from what was written. -/
structure Opened (l : Layout) (a : Archive) : Prop where
  data : a.data = l.bytes
  header : a.header = l.header
  chunks : List.Forall₂ FoundAs l.chunks a.chunks

theorem le_maxOffset {n : Nat} (h : n < UInt32.size) : n ≤ maxOffset :=
  Nat.le_trans (Nat.le_of_lt h) offset_bounds.2.1

theorem Of.nodup_kinds (h : l.Of c records builder) : (l.chunks.map (·.1)).Nodup :=
  (sublist_chunks h.chunks).nodup (by decide)

theorem Of.length_chunk_lt (h : l.Of c records builder) (hsize : l.bytes.length < UInt32.size)
    {kind : ChunkKind} {body : Bytes} (hmem : (kind, body) ∈ l.chunks) :
    body.length < UInt32.size := by
  have hle := le_totalSize (List.mem_map_of_mem (f := fun chunk => chunk.2.length) hmem)
  have hchunks := h.hasAt_chunks.le_length
  rw [length_chunkBodies] at hchunks
  simp only at hle
  omega

/-- The reader accepts what was written. -/
theorem Of.exists_opened (h : l.Of c records builder) (hsize : l.bytes.length < UInt32.size) :
    ∃ a, Archive.ofBytes l.bytes = .ok a ∧ l.Opened a := by
  have hseen : ∀ header ∈ ([] : List ChunkHeader), header.kind ∉ l.chunks.map (·.1) :=
    fun _ hmem => (by cases hmem)
  obtain ⟨headers, hheaders, hrel⟩ :=
    reads_directory h.directory h.nodup_kinds hseen h.hasAt_chunks
  obtain ⟨parsed, hparsed, hfound⟩ := mapM_readChunk (le_maxOffset hsize) hrel
    fun kind body hmem => by
      obtain ⟨parsed, hparsed, -⟩ :=
        exists_body h.chunks hmem (h.length_chunk_lt hsize hmem)
      exact ⟨parsed, hparsed⟩
  refine ⟨⟨l.bytes, l.header, parsed⟩, ?_, rfl, rfl, hfound⟩
  have hcount : l.header.chunkCount.toNat = l.chunks.length := word_eq_ok_iff.1 h.chunkCount
  have hbytes : l.bytes = encode l.header ++
      (l.directory ++ (chunkBodies l.chunks ++ (l.common ++ l.regionBytes))) := by
    simp only [bytes, List.append_assoc]
  -- the header is at the very start, and the cursor then stands before the directory
  have hread : Header.read (.start l.bytes) = .ok (l.header, ⟨0 + (encode l.header).length,
      l.directory ++ (chunkBodies l.chunks ++ (l.common ++ l.regionBytes))⟩) := by
    rw [hbytes, Cursor.start, reads_header l.header]
  have hmagic : l.header.magic = magic := rfl
  have hversion : l.header.version = version := rfl
  refine bind_eq_ok_iff.2 ⟨_, hread, ?_⟩
  simp only [hmagic, hversion, hcount, ne_eq, not_true_eq_false, if_false]
  exact bind_eq_ok_iff.2 ⟨_, hheaders _ _, bind_eq_ok_iff.2 ⟨parsed, hparsed, rfl⟩⟩

/-! ## Regions -/

theorem map_getD_ordinal {starts : List Nat} (h : starts.length = 7) :
    (Backend.all.map fun b => starts.getD b.ordinal 0) = starts := by
  match starts, h with
  | [_, _, _, _, _, _, _], _ => rfl

theorem length_sizes (l : Layout) : l.sizes.length = 7 := by
  rw [sizes, List.length_map]
  rfl

theorem getElem?_sizes (l : Layout) (b : Backend) :
    l.sizes[b.ordinal]? = some (l.regions.get b).size := by
  rw [sizes, List.getElem?_map, getElem?_toList]
  rfl

/-- The start that is written for a backend. -/
theorem getD_regionStarts (l : Layout) (b : Backend) :
    (regionStarts l.regionsStart l.sizes).getD b.ordinal 0 =
      if (l.regions.get b).size = 0 then invalidOffset.toNat else l.start b := by
  rw [List.getD_eq_getElem?_getD, getElem?_regionStarts, getElem?_sizes]
  rfl

theorem Of.start_add_le (h : l.Of c records builder) (b : Backend) :
    l.start b + (l.regions.get b).size ≤ l.bytes.length := (h.hasAt_region b).le_length

section Regions

variable (h : l.Of c records builder) (hsize : l.bytes.length < UInt32.size)
include h hsize

theorem Of.region?_eq_validStart? (b : Backend) :
    l.header.region? b =
      validStart? ((regionStarts l.regionsStart l.sizes).getD b.ordinal 0) := by
  -- a start is written as a 64-bit word, which it does not exceed
  have hlt : (regionStarts l.regionsStart l.sizes).getD b.ordinal 0 < UInt64.size := by
    have hle := h.start_add_le b
    have hbounds := offset_bounds
    rw [getD_regionStarts]
    split <;> omega
  simp only [Header.region?, header, PerBackend.get_ofFn, validStart?,
    UInt64.toNat_ofNat_of_lt' hlt]

/-- The region of a backend is found where it was put, unless it is empty. -/
theorem Of.region?_eq (b : Backend) : l.header.region? b =
    if (l.regions.get b).size = 0 then none else some (l.start b) := by
  rw [h.region?_eq_validStart? hsize, getD_regionStarts]
  split
  · rfl
  · have hle := h.start_add_le b
    have hbounds := offset_bounds
    rw [validStart?, if_neg (by omega)]

theorem Of.filterMap_region? (i : Nat) : (Backend.all.drop i).filterMap l.header.region? =
    (regionStarts (l.regionsStart + totalSize (l.sizes.take i)) (l.sizes.drop i)).filterMap
      validStart? := by
  have hregion : l.header.region? = validStart? ∘ fun b : Backend =>
      (regionStarts l.regionsStart l.sizes).getD b.ordinal 0 := by
    funext b
    exact h.region?_eq_validStart? hsize b
  rw [hregion, ← List.filterMap_map, List.map_drop,
    map_getD_ordinal (by rw [length_regionStarts, length_sizes]), drop_regionStarts]

/-- The regions from one on are found to start where it was put. -/
theorem Of.min?_region? (i : Nat) :
    ((Backend.all.drop i).filterMap l.header.region?).min?.getD l.bytes.length =
      l.regionsStart + totalSize (l.sizes.take i) := by
  -- the regions before `i` and those from it on make up all of them
  have hsplit : totalSize (l.sizes.take i) + totalSize (l.sizes.drop i) = totalSize l.sizes := by
    rw [← totalSize_append, List.take_append_drop]
  have hend : l.bytes.length =
      l.regionsStart + totalSize (l.sizes.take i) + totalSize (l.sizes.drop i) := by
    rw [h.length_eq]
    omega
  have hbounds := offset_bounds
  rw [h.filterMap_region? hsize, hend, min?_regionStarts (by omega)]

variable {a : Archive} (ha : l.Opened a)
include ha

/-- A region is found to end where it does. -/
theorem Of.regionEnd_eq (b : Backend) :
    a.regionEnd b = l.start b + (l.regions.get b).size := by
  rw [Archive.regionEnd, ha.header, ha.data, h.min?_region? hsize, start, Nat.add_assoc]
  -- the regions up to this one are those before it and itself
  congr 1
  rw [List.take_add_one, getElem?_sizes, totalSize_append]
  simp [totalSize]

/-- The common region is found to end where it does. -/
theorem Of.commonEnd_eq : a.commonEnd = l.regionsStart := by
  have hmin := h.min?_region? hsize 0
  rw [Archive.commonEnd, ha.header, ha.data]
  simpa [totalSize] using hmin

theorem Of.common_eq : a.header.common.toNat = l.commonStart := by
  have hle := h.hasAt_common.le_length
  have hbounds := offset_bounds
  rw [ha.header]
  exact UInt64.toNat_ofNat_of_lt' (by omega)

end Regions

end Layout

end PipelineArchive.Container
