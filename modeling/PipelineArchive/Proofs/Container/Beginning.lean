import PipelineArchive.Proofs.Container.Safety

/-!
# The beginning of an archive

What is left of an archive that has lost its end may still be opened. `Archive.extend` puts the
bytes that were lost back: opening all of the bytes gives the extended archive
(`ofBytesOfVersion_append`), and whatever is read before is read after, for the slices that were
taken are still there and regions only grow (`partOf_extend`). So nothing is ever read wrongly from
the beginning of an archive; it can only be missing.

Verification follows the references of the archive. `Archive.Verified` says what there must be
where it succeeds: every entry has a record with all of its data, and there are the shaders of
every backend that a pipeline uses (`Archive.Uses`), where a pipeline is one that is found under
the name of an entry. `Verified.readsAlike_extend` turns this around: what passes verification
answers as the archive that it is the beginning of.
-/

set_option autoImplicit false

namespace PipelineArchive.Container

open Results

/-! ## Slices -/

/-- A slice up to the end takes in what follows. -/
theorem sliceBetween_end_append {bytes part : Bytes} {start : Nat}
    (h : sliceBetween bytes start bytes.length = .ok part) (more : Bytes) :
    sliceBetween (bytes ++ more) start (bytes ++ more).length = .ok (part ++ more) := by
  unfold sliceBetween at h
  split at h
  · rename_i hplace
    cases h
    rw [sliceBetween_eq_ok (by rw [List.length_append]; omega) (Nat.le_refl _), Bytes.slice,
      Bytes.slice, List.drop_append_of_le_length hplace.1, List.take_of_length_le,
      List.take_of_length_le]
    · rw [List.length_drop]
    · rw [List.length_append, List.length_append, List.length_drop]
      omega
  · cases h

/-- A slice that ends in the beginning is a slice of that. -/
theorem sliceBetween_append_of_le {bytes : Bytes} {start stop : Nat} (h : stop ≤ bytes.length)
    (more : Bytes) (hstart : start ≤ stop) :
    sliceBetween (bytes ++ more) start stop = sliceBetween bytes start stop := by
  rw [sliceBetween_append (sliceBetween_eq_ok hstart h) more, sliceBetween_eq_ok hstart h]

theorem le_of_sliceBetween {bytes part : Bytes} {start stop : Nat}
    (h : sliceBetween bytes start stop = .ok part) : start ≤ stop ∧ stop ≤ bytes.length := by
  unfold sliceBetween at h
  split at h
  · assumption
  · cases h

namespace Archive

variable {a : Archive} {kind : ChunkKind} {b : Backend} {e : NamedEntry} {name : String}

/-! ## Opening -/

/-- An archive with more bytes at the end. -/
def extend (a : Archive) (more : Bytes) : Archive := { a with data := a.data ++ more }

@[simp] theorem data_extend (a : Archive) (more : Bytes) :
    (a.extend more).data = a.data ++ more := rfl

@[simp] theorem header_extend (a : Archive) (more : Bytes) :
    (a.extend more).header = a.header := rfl

@[simp] theorem lookup_extend (a : Archive) (more : Bytes) (kind : ChunkKind) (name : String) :
    (a.extend more).lookup kind name = a.lookup kind name := rfl

@[simp] theorem shaderTable?_extend (a : Archive) (more : Bytes) (b : Backend) :
    (a.extend more).shaderTable? b = a.shaderTable? b := rfl

theorem extend_nil (a : Archive) : a.extend [] = a := by
  rw [extend, List.append_nil]

theorem readChunk_append {data : Bytes} {header : ChunkHeader} {chunk : ChunkHeader × ChunkBody}
    (h : readChunk data header = .ok chunk) (more : Bytes) :
    readChunk (data ++ more) header = .ok chunk := by
  obtain ⟨body, hbody, h⟩ := bind_eq_ok_iff.1 h
  exact bind_eq_ok_iff.2 ⟨body, slicePart_append hbody more, h⟩

/-- What is opened from the beginning is the archive without the rest. -/
theorem ofBytesOfVersion_append {data : Bytes} {expected : UInt32}
    (h : ofBytesOfVersion data expected = .ok a) (more : Bytes) :
    ofBytesOfVersion (data ++ more) expected = .ok (a.extend more) := by
  obtain ⟨hdata, hmagic, hversion, cursor, cursor', directory, hheader, hdirectory, hchunks⟩ :=
    ofBytesOfVersion_eq_ok_iff.1 h
  refine ofBytesOfVersion_eq_ok_iff.2 ⟨by rw [data_extend, hdata], hmagic, hversion,
    cursor.append more, cursor'.append more, directory, ?_, ?_, ?_⟩
  · rw [← Cursor.start_append]
    exact Header.forward_read.appends hheader more
  · exact (ChunkHeader.forward_readAll _ _).appends hdirectory more
  · exact mapM_eq_ok_iff.2 ((mapM_eq_ok_iff.1 hchunks).imp fun _ _ hchunk =>
      readChunk_append hchunk more)

/-- The chunks that are not of names have none. -/
theorem entries_eq_nil {data : Bytes} {expected : UInt32}
    (h : ofBytesOfVersion data expected = .ok a) (hkind : kind.isNamed = false) :
    a.entries kind = [] := by
  obtain ⟨-, -, -, -, -, directory, -, -, hchunks⟩ := ofBytesOfVersion_eq_ok_iff.1 h
  unfold entries chunk?
  cases hfind : a.chunks.find? fun chunk => chunk.1.kind == kind with
  | none => rfl
  | some chunk =>
    obtain ⟨header, -, hchunk⟩ :=
      exists_of_mem_right (mapM_eq_ok_iff.1 hchunks) (List.mem_of_find?_eq_some hfind)
    have hheader : chunk.1.kind = kind := by simpa using List.find?_some hfind
    obtain ⟨body, -, hchunk⟩ := bind_eq_ok_iff.1 hchunk
    obtain ⟨parsed, hparsed, hchunk⟩ := bind_eq_ok_iff.1 hchunk
    cases hchunk
    subst hheader
    obtain ⟨⟨_, c⟩, hread, rfl⟩ := map_eq_ok_iff.1 hparsed
    -- the reader of such a chunk gives what is not a list of entries
    simp only at hkind hread ⊢
    cases hk : header.kind with
    | debugInfo =>
      rw [hk] at hread
      obtain ⟨_, _, -, hread⟩ := Read.bind_eq_ok_iff.1 hread
      obtain ⟨_, _, -, hread⟩ := Read.bind_eq_ok_iff.1 hread
      cases hread
      rfl
    | shaders =>
      rw [hk] at hread
      obtain ⟨_, _, -, hread⟩ := Read.bind_eq_ok_iff.1 hread
      cases hread
      rfl
    | _ =>
      rw [hk] at hkind
      cases hkind

/-! ## Records and their data -/

/-- A region that ended with the beginning ends with the whole; any other ends where it did. -/
theorem regionEnd_extend_cases (a : Archive) (more : Bytes) (b : Backend) :
    (a.extend more).regionEnd b = a.regionEnd b ∨
      (a.regionEnd b = a.data.length ∧ (a.extend more).regionEnd b = (a.data ++ more).length) := by
  unfold regionEnd
  rw [header_extend, data_extend]
  cases ((Backend.all.drop (b.ordinal + 1)).filterMap a.header.region?).min? with
  | none => exact .inr ⟨rfl, rfl⟩
  | some least => exact .inl rfl

theorem regionEnd_le_extend (a : Archive) (more : Bytes) (b : Backend) :
    a.regionEnd b ≤ (a.extend more).regionEnd b := by
  rcases a.regionEnd_extend_cases more b with hsame | ⟨hend, hlonger⟩
  · exact Nat.le_of_eq hsame.symm
  · rw [hend, hlonger, List.length_append]
    exact Nat.le_add_right _ _

theorem record_extend {r : RecordView} (h : a.record kind e = .ok r) (more : Bytes) :
    (a.extend more).record kind e = .ok r := by
  obtain ⟨bytes, hbytes, h⟩ := bind_eq_ok_iff.1 h
  exact bind_eq_ok_iff.2 ⟨bytes, slicePart_append hbytes more, h⟩

theorem deviceData?_extend {r : RecordView} {d : Option Bytes}
    (h : a.deviceData? b r name = .ok d) (more : Bytes) :
    (a.extend more).deviceData? b r name = .ok d := by
  have hend := a.regionEnd_le_extend more b
  unfold deviceData? at h ⊢
  split at h
  · rename_i hinvalid
    rw [if_pos hinvalid]
    exact h
  · rename_i hvalid
    rw [if_neg hvalid, header_extend]
    cases hregion : a.header.region? b with
    | none =>
      rw [hregion] at h
      cases h
    | some start =>
      simp only [hregion] at h ⊢
      split at h
      · cases h
      · rename_i hstop
        obtain ⟨bytes, hbytes, rfl⟩ := map_eq_ok_iff.1 h
        rw [if_neg (by omega), data_extend, sliceBetween_append hbytes more]
        rfl

/-- Data that are read end no later than the archive. -/
theorem le_length_of_deviceData? {r : RecordView} {d : Option Bytes}
    (h : a.deviceData? b r name = .ok d) (hvalid : r.header.offsets.get b ≠ invalidOffset) :
    ∃ start, a.header.region? b = some start ∧
      saturatingAdd (saturatingAdd start (r.header.offsets.get b).toNat)
        (r.header.sizes.get b).toNat ≤ a.data.length := by
  unfold deviceData? at h
  rw [if_neg hvalid] at h
  cases hregion : a.header.region? b with
  | none =>
    rw [hregion] at h
    cases h
  | some start =>
    simp only [hregion] at h
    split at h
    · cases h
    · obtain ⟨bytes, hbytes, -⟩ := map_eq_ok_iff.1 h
      exact ⟨start, rfl, (le_of_sliceBetween hbytes).2⟩

theorem signature_extend {view : SignatureView} (h : a.signature name = .ok view) (more : Bytes) :
    (a.extend more).signature name = .ok view := by
  obtain ⟨e, hlookup, h⟩ := bind_eq_ok_iff.1 h
  obtain ⟨r, hrecord, h⟩ := bind_eq_ok_iff.1 h
  obtain ⟨device, hdevice, h⟩ := bind_eq_ok_iff.1 h
  exact bind_eq_ok_iff.2 ⟨e, hlookup, bind_eq_ok_iff.2 ⟨r, record_extend hrecord more,
    bind_eq_ok_iff.2 ⟨device, ofFnM_eq_ok_iff.2 fun b =>
      deviceData?_extend (ofFnM_eq_ok_iff.1 hdevice b) more, h⟩⟩⟩

theorem renderPass_extend {desc : Bytes} (h : a.renderPass name = .ok desc) (more : Bytes) :
    (a.extend more).renderPass name = .ok desc := by
  obtain ⟨e, hlookup, h⟩ := bind_eq_ok_iff.1 h
  obtain ⟨r, hrecord, h⟩ := bind_eq_ok_iff.1 h
  exact bind_eq_ok_iff.2 ⟨e, hlookup, bind_eq_ok_iff.2 ⟨r, record_extend hrecord more, h⟩⟩

theorem pipeline_extend {view : PipelineView} (h : a.pipeline kind name = .ok view)
    (more : Bytes) : (a.extend more).pipeline kind name = .ok view := by
  obtain ⟨e, hlookup, h⟩ := bind_eq_ok_iff.1 h
  obtain ⟨r, hrecord, h⟩ := bind_eq_ok_iff.1 h
  obtain ⟨payload, hpayload, h⟩ := bind_eq_ok_iff.1 h
  obtain ⟨device, hdevice, h⟩ := bind_eq_ok_iff.1 h
  refine bind_eq_ok_iff.2 ⟨e, hlookup, bind_eq_ok_iff.2 ⟨r, record_extend hrecord more,
    bind_eq_ok_iff.2 ⟨payload, hpayload, bind_eq_ok_iff.2 ⟨device, ?_, h⟩⟩⟩⟩
  refine ofFnM_eq_ok_iff.2 fun b => ?_
  obtain ⟨data?, hdata, hread⟩ := bind_eq_ok_iff.1 (ofFnM_eq_ok_iff.1 hdevice b)
  exact bind_eq_ok_iff.2 ⟨data?, deviceData?_extend hdata more, hread⟩

/-! ## Shaders -/

/-- The bytes of a region only grow at their end. -/
theorem exists_regionBytes_extend {start : Nat} {region : Bytes}
    (h : sliceBetween a.data start (a.regionEnd b) = .ok region) (more : Bytes) :
    ∃ extra, sliceBetween (a.extend more).data start ((a.extend more).regionEnd b) =
      .ok (region ++ extra) := by
  rcases a.regionEnd_extend_cases more b with hsame | ⟨hend, hlonger⟩
  · refine ⟨[], ?_⟩
    rw [hsame, List.append_nil]
    exact sliceBetween_append h more
  · refine ⟨more, ?_⟩
    rw [hend] at h
    rw [hlonger]
    exact sliceBetween_end_append h more

theorem shaders_extend {views : List ShaderView} (h : a.shaders b = .ok views) (more : Bytes) :
    (a.extend more).shaders b = .ok views := by
  have hend := a.regionEnd_le_extend more b
  unfold shaders at h ⊢
  rw [shaderTable?_extend, header_extend]
  cases htable : a.shaderTable? b with
  | none =>
    rw [htable] at h
    exact h
  | some place =>
    obtain ⟨offset, size⟩ := place
    cases hregion : a.header.region? b with
    | none =>
      rw [htable, hregion] at h
      cases h
    | some start =>
      simp only [htable, hregion] at h ⊢
      split at h
      · cases h
      · rename_i hstop
        obtain ⟨region, hbytes, h⟩ := bind_eq_ok_iff.1 h
        obtain ⟨table, hslice, hread⟩ := bind_eq_ok_iff.1 h
        obtain ⟨extra, hbytes'⟩ := exists_regionBytes_extend hbytes more
        rw [if_neg (by omega)]
        -- the table is read from where it starts, and shaders only where they were found before
        exact bind_eq_ok_iff.2 ⟨_, hbytes', bind_eq_ok_iff.2
          ⟨_, sliceBetween_end_append hslice extra,
            (forwardTo_readShaderTable b fun h => slicePart_append h extra).value?_append hread
              extra⟩⟩

/-- Whatever is read from an archive is read from another one that it is part of. -/
structure PartOf (a a' : Archive) : Prop where
  signature {name : String} {view : SignatureView} :
    a.signature name = .ok view → a'.signature name = .ok view
  renderPass {name : String} {desc : Bytes} :
    a.renderPass name = .ok desc → a'.renderPass name = .ok desc
  pipeline {kind : ChunkKind} {name : String} {view : PipelineView} :
    a.pipeline kind name = .ok view → a'.pipeline kind name = .ok view
  shaders {b : Backend} {views : List ShaderView} :
    a.shaders b = .ok views → a'.shaders b = .ok views

theorem partOf_extend (a : Archive) (more : Bytes) : a.PartOf (a.extend more) where
  signature h := signature_extend h more
  renderPass h := renderPass_extend h more
  pipeline h := pipeline_extend h more
  shaders h := shaders_extend h more

/-- What is opened from the beginning of the bytes is part of the archive that they are. -/
theorem partOf_of_append {data more : Bytes} {full : Archive}
    (hfull : ofBytes (data ++ more) = .ok full) (h : ofBytes data = .ok a) : a.PartOf full := by
  cases Except.ok.inj (hfull.symm.trans (ofBytesOfVersion_append h more))
  exact a.partOf_extend more

/-- A table through which shaders are read ends no later than its region, and that no later than the
archive. -/
theorem le_regionEnd_of_shaders {views : List ShaderView} (h : a.shaders b = .ok views)
    {place : UInt32 × UInt32} (htable : a.shaderTable? b = some place) :
    ∃ start, a.header.region? b = some start ∧
      saturatingAdd (saturatingAdd start place.1.toNat) place.2.toNat ≤ a.regionEnd b ∧
      a.regionEnd b ≤ a.data.length := by
  unfold shaders at h
  cases hregion : a.header.region? b with
  | none =>
    rw [htable, hregion] at h
    cases h
  | some start =>
    simp only [htable, hregion] at h
    split at h
    · cases h
    · rename_i hstop
      obtain ⟨region, hbytes, -⟩ := bind_eq_ok_iff.1 h
      exact ⟨start, rfl, Nat.le_of_not_lt hstop, (le_of_sliceBetween hbytes).2⟩

/-- Shaders whose region ends in the beginning are read from there. -/
theorem shaders_of_extend {more : Bytes} {views : List ShaderView}
    (h : (a.extend more).shaders b = .ok views)
    (hsame : (a.extend more).regionEnd b = a.regionEnd b) (hend : a.regionEnd b ≤ a.data.length) :
    a.shaders b = .ok views := by
  unfold shaders at h ⊢
  rw [shaderTable?_extend, header_extend] at h
  cases htable : a.shaderTable? b with
  | none =>
    rw [htable] at h
    exact h
  | some place =>
    obtain ⟨offset, size⟩ := place
    cases hregion : a.header.region? b with
    | none =>
      rw [htable, hregion] at h
      cases h
    | some start =>
      simp only [htable, hregion, hsame, data_extend] at h ⊢
      split at h
      · cases h
      · rename_i hstop
        rw [if_neg hstop]
        obtain ⟨region, hbytes, h⟩ := bind_eq_ok_iff.1 h
        rw [sliceBetween_append_of_le hend more (le_of_sliceBetween hbytes).1] at hbytes
        exact bind_eq_ok_iff.2 ⟨region, hbytes, h⟩

/-! ## Verification -/

/-- Some pipeline that is found under a name has data on the backend. -/
def Uses (a : Archive) (b : Backend) : Prop :=
  ∃ kind name view, kind.isPipeline = true ∧ a.pipeline kind name = .ok view ∧
    (view.device.get b).isSome = true

/-- What there is in an archive that passes verification. -/
structure Verified (a : Archive) : Prop where
  common : a.header.common.toNat ≤ a.commonEnd
  place {kind : ChunkKind} {e : NamedEntry} : kind.isNamed = true → e ∈ a.entries kind →
    a.verifyPlace kind e = .ok ()
  record {kind : ChunkKind} {e : NamedEntry} : kind.isNamed = true → e ∈ a.entries kind →
    ∃ r, a.record kind e = .ok r ∧ ∀ b, ∃ d, a.deviceData? b r e.name = .ok d
  shaders {b : Backend} : a.Uses b → ∃ views, a.shaders b = .ok views

theorem mem_of_lookup (h : a.lookup kind name = .ok e) : e ∈ a.entries kind ∧ e.name = name := by
  unfold lookup find? at h
  cases hfind : (a.entries kind).find? fun e => e.name == name with
  | none =>
    rw [hfind] at h
    cases h
  | some found =>
    rw [hfind] at h
    cases h
    exact ⟨List.mem_of_find?_eq_some hfind, by simpa using List.find?_some hfind⟩

/-- A record that is in its place ends no later than the common region. -/
theorem le_commonEnd_of_verifyPlace (h : a.verifyPlace kind e = .ok ()) :
    a.header.common.toNat + e.offset.toNat + e.size.toNat ≤ a.commonEnd := by
  simp only [verifyPlace] at h
  split at h
  · cases h
  · split at h
    · cases h
    · rename_i hplace
      exact Nat.le_of_not_lt fun hlt => hplace (.inl hlt)

/-- A pipeline is verified only together with the shaders of the backends that it has data on. -/
theorem exists_shaders_of_verifyPipeline {shaders : PerBackend (Except ReadError Nat)}
    (h : a.verifyPipeline shaders kind name = .ok ()) {view : PipelineView}
    (hview : a.pipeline kind name = .ok view) (hdata : (view.device.get b).isSome = true) :
    ∃ count, shaders.get b = .ok count := by
  obtain ⟨view', hview', h⟩ := bind_eq_ok_iff.1 h
  rw [hview] at hview'
  cases hview'
  simp only at h
  split at h
  · cases h
  · split at h
    · cases h
    · have hbackend := forM_eq_ok_iff.1 h b (Backend.mem_all b)
      obtain ⟨device, hdevice⟩ := Option.isSome_iff_exists.1 hdata
      rw [hdevice] at hbackend
      obtain ⟨count, hcount, -⟩ := bind_eq_ok_iff.1 hbackend
      exact ⟨count, hcount⟩

theorem verified_of_verify (h : a.verify = .ok ()) : a.Verified := by
  unfold verify at h
  split at h
  · cases h
  · rename_i hcommon
    have hentry {kind : ChunkKind} {e : NamedEntry} (hkind : kind.isNamed = true)
        (he : e ∈ a.entries kind) := forM_eq_ok_iff.1 (forM_eq_ok_iff.1 h kind
          (List.mem_filter.2 ⟨ChunkKind.mem_all kind, hkind⟩)) e he
    refine ⟨Nat.le_of_not_lt hcommon, ?_, ?_, ?_⟩
    · intro kind e hkind he
      obtain ⟨⟨⟩, hplace, -⟩ := bind_eq_ok_iff.1 (hentry hkind he)
      exact hplace
    · intro kind e hkind he
      obtain ⟨-, -, hrest⟩ := bind_eq_ok_iff.1 (hentry hkind he)
      obtain ⟨r, hrecord, hrest⟩ := bind_eq_ok_iff.1 hrest
      obtain ⟨⟨⟩, hdata, -⟩ := bind_eq_ok_iff.1 hrest
      refine ⟨r, hrecord, fun b => ?_⟩
      obtain ⟨d, hd, -⟩ := bind_eq_ok_iff.1 (forM_eq_ok_iff.1 hdata b (Backend.mem_all b))
      exact ⟨d, hd⟩
    · -- the pipeline is found through an entry, whose verification looks at the same pipeline
      rintro b ⟨kind, name, view, hkind, hview, hdata⟩
      obtain ⟨e, hlookup, -⟩ := bind_eq_ok_iff.1 hview
      obtain ⟨he, rfl⟩ := mem_of_lookup hlookup
      obtain ⟨-, -, hrest⟩ := bind_eq_ok_iff.1 (hentry (Built.isNamed_of_isPipeline hkind) he)
      obtain ⟨r, -, hrest⟩ := bind_eq_ok_iff.1 hrest
      obtain ⟨⟨⟩, -, hpipeline⟩ := bind_eq_ok_iff.1 hrest
      rw [if_pos hkind] at hpipeline
      obtain ⟨count, hcount⟩ := exists_shaders_of_verifyPipeline hpipeline hview hdata
      rw [PerBackend.get_ofFn] at hcount
      obtain ⟨views, hviews, -⟩ := map_eq_ok_iff.1 hcount
      exact ⟨views, hviews⟩

namespace Verified

/-- A signature reads as in the archive that this is the beginning of. -/
theorem signature_eq (h : a.Verified) (more : Bytes) (name : String) :
    a.signature name = (a.extend more).signature name := by
  cases hlookup : a.lookup .signatures name with
  | error reason => simp only [signature, lookup_extend, hlookup, bind, Except.bind]
  | ok e =>
    obtain ⟨he, rfl⟩ := mem_of_lookup hlookup
    obtain ⟨r, hrecord, hdata⟩ := h.record rfl he
    obtain ⟨device, hdevice⟩ := exists_ofFnM hdata
    have hview : a.signature e.name = .ok ⟨r.payload, device⟩ :=
      bind_eq_ok_iff.2 ⟨e, hlookup, bind_eq_ok_iff.2 ⟨r, hrecord,
        bind_eq_ok_iff.2 ⟨device, hdevice, rfl⟩⟩⟩
    rw [hview, signature_extend hview more]

theorem renderPass_eq (h : a.Verified) (more : Bytes) (name : String) :
    a.renderPass name = (a.extend more).renderPass name := by
  cases hlookup : a.lookup .renderPasses name with
  | error reason => simp only [renderPass, lookup_extend, hlookup, bind, Except.bind]
  | ok e =>
    obtain ⟨he, rfl⟩ := mem_of_lookup hlookup
    obtain ⟨r, hrecord, -⟩ := h.record rfl he
    have hdesc : a.renderPass e.name = .ok r.payload :=
      bind_eq_ok_iff.2 ⟨e, hlookup, bind_eq_ok_iff.2 ⟨r, hrecord, rfl⟩⟩
    rw [hdesc, renderPass_extend hdesc more]

/-- The record and the data of a pipeline are the same, so the pipeline is read alike, or is
refused alike. -/
theorem pipeline_eq (h : a.Verified) (more : Bytes) (hkind : kind.isNamed = true)
    (name : String) : a.pipeline kind name = (a.extend more).pipeline kind name := by
  cases hlookup : a.lookup kind name with
  | error reason => simp only [pipeline, lookup_extend, hlookup, bind, Except.bind]
  | ok e =>
    obtain ⟨he, rfl⟩ := mem_of_lookup hlookup
    obtain ⟨r, hrecord, hdata⟩ := h.record hkind he
    have hsame (b : Backend) :
        (a.extend more).deviceData? b r e.name = a.deviceData? b r e.name := by
      obtain ⟨d, hd⟩ := hdata b
      rw [hd, deviceData?_extend hd more]
    simp only [pipeline, lookup_extend, hlookup, hrecord, record_extend hrecord more, hsame, bind,
      Except.bind]

end Verified

/-- Every signature, render pass and pipeline reads alike from two archives. -/
structure ReadsAlike (a a' : Archive) : Prop where
  signature (name : String) : a.signature name = a'.signature name
  renderPass (name : String) : a.renderPass name = a'.renderPass name
  pipeline (kind : ChunkKind) (name : String) : a.pipeline kind name = a'.pipeline kind name

/-- What is opened and passes verification reads as the archive that it is the beginning of, but
for the shaders. -/
theorem Verified.readsAlike_extend (h : a.Verified) {data : Bytes} {expected : UInt32}
    (ha : ofBytesOfVersion data expected = .ok a) (more : Bytes) :
    a.ReadsAlike (a.extend more) where
  signature := h.signature_eq more
  renderPass := h.renderPass_eq more
  pipeline kind name := by
    cases hkind : kind.isNamed with
    | true => exact h.pipeline_eq more hkind name
    | false =>
      -- a chunk that is not of names has none in either archive
      have hnone : a.lookup kind name = .error (.notFound kind name) := by
        rw [lookup, find?, entries_eq_nil ha hkind]
        rfl
      simp only [Archive.pipeline, lookup_extend, hnone, bind, Except.bind]

end Archive

end PipelineArchive.Container
