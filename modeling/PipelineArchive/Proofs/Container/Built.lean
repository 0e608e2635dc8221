import PipelineArchive.Proofs.Container.Sources

/-!
# Archives that were built

`Built` collects what is known of an archive that was built from some contents and opened again.
Such an archive lists every record under its kind (`exists_entry`) and nothing else
(`exists_source`); it reads every pipeline as what it was (`pipeline_eq`), and the shaders of
every backend as what they were made of (`exists_shaders`). The positions that pipelines hold
are small enough to be told from the one that leads nowhere (`toNat_index`).

`exists_built` says that opening what was built gives such an archive, and `build_cases` that
contents whose references resolve are only ever refused for their size.
-/

set_option autoImplicit false

namespace PipelineArchive.Container

open Results

/-- What is known of an archive that was opened from what some contents were written as. -/
structure Built (c : Contents) (builder : Option String) (rs : List Record) (l : Layout)
    (a : Archive) : Prop where
  records : records c = .ok rs
  layout : l.Of c rs builder
  size : l.bytes.length < UInt32.size
  opened : l.Opened a

/-- An archive is written unless it is predicted to be too large. No size differs from the
predicted one, so the comparison at the end has no effect. -/
theorem build_eq {c : Contents} {rs : List Record} (hrs : records c = .ok rs)
    (builder : Option String) (limit : Nat) : build c builder limit =
      if limit < measure c rs builder then .error (.tooLarge (measure c rs builder))
      else write c rs builder := by
  simp only [build, hrs, bind, Except.bind]
  split
  · rfl
  · cases himage : write c rs builder with
    | error e => rfl
    | ok image =>
      simp only [Layout.totalSize_pieces himage, ne_eq, not_true_eq_false, if_false]
      rfl

/-- Contents whose references resolve are written, or they are too large. -/
theorem build_cases {c : Contents} (hc : c.Resolves) (builder : Option String) {limit : Nat}
    (hlimit : limit < UInt32.size) :
    (∃ image, build c builder limit = .ok image) ∨
      ∃ size, limit < size ∧ build c builder limit = .error (.tooLarge size) := by
  obtain ⟨rs, hrs⟩ := exists_records hc.linked
  rw [build_eq hrs]
  split
  · rename_i hlarge
    exact .inr ⟨_, hlarge, rfl⟩
  · exact .inl (exists_write c rs builder (by omega))

/-- What was built is opened again. -/
theorem exists_built {c : Contents} {builder : Option String} {limit : Nat} {image : Image}
    (hlimit : limit < UInt32.size) (h : build c builder limit = .ok image) :
    ∃ rs l a, Archive.ofBytes image.bytes = .ok a ∧ Built c builder rs l a := by
  obtain ⟨rs, hrs, -⟩ := bind_eq_ok_iff.1 h
  rw [build_eq hrs] at h
  split at h
  · cases h
  · obtain ⟨l, hl, hbytes⟩ := Layout.exists_layout h
    have hlt : l.bytes.length < UInt32.size := by
      rw [hl.length_bytes]
      omega
    obtain ⟨a, ha, hopened⟩ := hl.exists_opened hlt
    exact ⟨rs, l, a, by rw [hbytes]; exact ha, hrs, hl, hlt, hopened⟩

namespace Built

variable {c : Contents} {builder : Option String} {rs : List Record} {l : Layout} {a : Archive}

/-! ## Entries -/

/-- Every entry comes from a record of its kind. -/
theorem exists_source (h : Built c builder rs l a) {kind : ChunkKind}
    (hkind : kind.isNamed = true) {e : NamedEntry} (he : e ∈ a.entries kind) :
    ∃ placed ∈ placedIn l.bodies rs, placed.1 ∈ rs ∧ placed.1.kind = kind ∧ EntryOf placed e := by
  obtain ⟨placed, hplaced, hentry⟩ :=
    exists_of_mem_right (h.layout.entries_spec h.size h.opened hkind) he
  obtain ⟨hmem, heq⟩ := List.mem_filter.1 hplaced
  have hrecord := List.mem_map_of_mem (f := (·.1)) hmem
  rw [map_placedIn (commonRecords_spec h.layout.bodies).1] at hrecord
  exact ⟨placed, hmem, hrecord, eq_of_beq heq, hentry⟩

/-- The record of a number has an entry under its kind, which leads to its body. -/
theorem exists_entry_at (h : Built c builder rs l a) {i : Nat} {r : Record}
    (hr : rs[i]? = some r) (hkind : r.kind.isNamed = true) :
    ∃ body e, l.bodies[i]? = some body ∧ e ∈ a.entries r.kind ∧
      EntryOf (r, (packed ((l.bodies.map some).take i)).length, body.length) e := by
  obtain ⟨header, hbody, -⟩ := (commonRecords_spec h.layout.bodies).2 i r hr
  have hmem : (r, _, _) ∈ placedOf (placedIn l.bodies rs) r.kind :=
    List.mem_filter.2 ⟨List.mem_of_getElem? (getElem?_placedIn hr hbody), beq_self_eq_true r.kind⟩
  obtain ⟨e, he, hentry⟩ :=
    exists_of_mem_left (h.layout.entries_spec h.size h.opened hkind) hmem
  exact ⟨_, e, hbody, he, hentry⟩

/-- Every record has an entry under its kind. -/
theorem exists_entry (h : Built c builder rs l a) {r : Record} (hr : r ∈ rs)
    (hkind : r.kind.isNamed = true) :
    ∃ placed ∈ placedIn l.bodies rs, placed.1 = r ∧
      ∃ e ∈ a.entries r.kind, EntryOf placed e := by
  obtain ⟨i, hi⟩ := List.mem_iff_getElem?.1 hr
  obtain ⟨body, e, hbody, he, hentry⟩ := h.exists_entry_at hi hkind
  exact ⟨_, List.mem_of_getElem? (getElem?_placedIn hi hbody), rfl, e, he, hentry⟩

theorem length_entries (h : Built c builder rs l a) {kind : ChunkKind}
    (hkind : kind.isNamed = true) : (a.entries kind).length = (recordsOf rs kind).length := by
  have hplaced := map_placedIn (commonRecords_spec h.layout.bodies).1
  have hkinds := map_fst_placedOf (placedIn l.bodies rs) kind
  rw [hplaced] at hkinds
  rw [← (h.layout.entries_spec h.size h.opened hkind).length_eq, ← hkinds, List.length_map]

/-- The entries have the names of the records, each up to its first zero byte. -/
theorem seen_entries (h : Built c builder rs l a) {kind : ChunkKind}
    (hkind : kind.isNamed = true) :
    List.Forall₂ (fun name (e : NamedEntry) => SeenAs name e.name)
      ((recordsOf rs kind).map (·.name)) (a.entries kind) := by
  have hplaced := map_placedIn (commonRecords_spec h.layout.bodies).1
  rw [← hplaced, ← map_fst_placedOf, List.map_map, List.forall₂_map_left_iff]
  exact (h.layout.entries_spec h.size h.opened hkind).imp fun _ _ hentry => hentry.1

/-- A name that is listed leads to an entry of this name. -/
theorem exists_lookup {kind : ChunkKind} {e : NamedEntry} (he : e ∈ a.entries kind) :
    ∃ e' ∈ a.entries kind, e'.name = e.name ∧ a.lookup kind e.name = .ok e' := by
  have hsome : ((a.entries kind).find? fun other => other.name == e.name).isSome := by
    rw [List.find?_isSome]
    exact ⟨e, he, by simp⟩
  obtain ⟨e', hfind⟩ := Option.isSome_iff_exists.1 hsome
  refine ⟨e', List.mem_of_find?_eq_some hfind, by simpa using List.find?_some hfind, ?_⟩
  rw [Archive.lookup, Archive.find?, hfind]

/-! ## Positions -/

/-- A record takes up space, so that there are fewer of them than positions. -/
theorem length_records_lt (h : Built c builder rs l a) : rs.length < UInt32.size - 1 := by
  -- the head alone takes 60 bytes
  have hle (records : List Record) : 60 * records.length ≤
      totalSize (records.map fun r => paddedSize (DataHeader.size + r.payload.length)) := by
    induction records with
    | nil => exact Nat.zero_le _
    | cons r rest ih =>
      have hpadded := le_paddedSize (DataHeader.size + r.payload.length)
      have hsize : DataHeader.size = 60 := rfl
      rw [List.map_cons, totalSize, List.length_cons]
      omega
  have hcommon := h.layout.hasAt_common.le_length
  rw [Layout.common, length_common h.layout.bodies] at hcommon
  have hrecords := hle rs
  have hsize := h.size
  have h32 : UInt32.size = 4294967296 := rfl
  omega

/-- The position of a record is written as a word that stands for it and leads somewhere. -/
theorem toNat_index (h : Built c builder rs l a) {kind : ChunkKind} {index : Nat}
    (hindex : index < (recordsOf rs kind).length) :
    (UInt32.ofNat index).toNat = index ∧ UInt32.ofNat index ≠ invalidOffset := by
  have hle : (recordsOf rs kind).length ≤ rs.length := List.length_filter_le _ _
  have hlt := h.length_records_lt
  have hbounds := offset_bounds
  have hword : (UInt32.ofNat index).toNat = index := UInt32.toNat_ofNat_of_lt' (by omega)
  exact ⟨hword, ne_invalidOffset (by omega)⟩

/-- The position of a signature is one of the listed signatures. -/
theorem signatureIndex_spec (h : Built c builder rs l a) (hc : c.Resolves) {pipeline name : String}
    {w : UInt32} (hw : signatureIndex c pipeline name = .ok w) :
    w.toNat < (a.entries .signatures).length ∧ c.signatures.keys[w.toNat]? = some name := by
  obtain ⟨index, hindex, rfl⟩ := signatureIndex_eq_ok_iff.1 hw
  have hlt : index < (recordsOf rs .signatures).length := by
    have hkeys := congrArg List.length (recordsOf_signatures hc h.records)
    rw [List.length_map] at hkeys
    rw [hkeys]
    exact (List.getElem?_eq_some_iff.1 hindex).1
  rw [(h.toNat_index hlt).1, h.length_entries rfl]
  exact ⟨hlt, hindex⟩

/-- The position of a render pass is one of the listed render passes. -/
theorem renderPassIndex_spec (h : Built c builder rs l a) (hc : c.Resolves)
    {pipeline name : String} {w : UInt32}
    (hw : renderPassIndex c pipeline (some name) = .ok w) :
    w ≠ invalidOffset ∧ w.toNat < (a.entries .renderPasses).length ∧
      c.renderPasses.keys[w.toNat]? = some name := by
  obtain ⟨index, hindex, rfl⟩ := renderPassIndex_eq_ok_iff.1 hw
  have hlt : index < (recordsOf rs .renderPasses).length := by
    have hkeys := congrArg List.length (recordsOf_renderPasses hc h.records)
    rw [List.length_map] at hkeys
    rw [hkeys]
    exact (List.getElem?_eq_some_iff.1 hindex).1
  obtain ⟨hword, hvalid⟩ := h.toNat_index hlt
  rw [hword, h.length_entries rfl]
  exact ⟨hvalid, hlt, hindex⟩

/-! ## Pipelines -/

/-- What a pipeline is read as, given the positions it refers to. -/
def pipelineView (p : PipelineRecord) (signatures : List UInt32) (renderPass : UInt32) :
    Archive.PipelineView where
  desc := p.desc
  signatures := signatures
  renderPass := if renderPass = invalidOffset then none else some renderPass
  layoutIds := p.layoutIds
  device := p.device.map (Option.map fun d => ⟨d.shaders.map UInt32.ofNat, d.header⟩)

/-- A record and its data are no longer than the archive. -/
theorem length_payload_lt (h : Built c builder rs l a) {r : Record} (hr : r ∈ rs) :
    r.payload.length < UInt32.size := by
  have hmem := List.mem_map_of_mem
    (f := fun r : Record => paddedSize (DataHeader.size + r.payload.length)) hr
  have hle := le_totalSize hmem
  rw [← length_common h.layout.bodies] at hle
  have hpadded := le_paddedSize (DataHeader.size + r.payload.length)
  have hcommon := h.layout.hasAt_common.le_length
  have hsize := h.size
  rw [Layout.common] at hcommon
  omega

theorem length_data_lt (h : Built c builder rs l a) {r : Record} (hr : r ∈ rs) {b : Backend}
    {d : Bytes} (hd : r.device.get b = some d) : d.length < UInt32.size := by
  obtain ⟨i, hi⟩ := List.mem_iff_getElem?.1 hr
  have hdatum : (column rs b)[i]? = some (some d) := by simp [column, hi, hd]
  have hle := packed_take_add_le hdatum
  have hcolumn := (hasAt_column (h.layout.regions b)).le_length
  have hregion := (h.layout.hasAt_region b).le_length
  have hsize := h.size
  omega

/-- A pipeline is read as what it was, wherever its name leads to its record. -/
theorem pipeline_eq (h : Built c builder rs l a) (hc : c.Readable) {key : PipelineKey}
    {p : PipelineRecord} {placed : Record × Nat × Nat} (hplaced : placed ∈ placedIn l.bodies rs)
    (hmem : placed.1 ∈ rs) (hp : pipelineRecord c key p = .ok placed.1) {e : NamedEntry}
    (he : EntryOf placed e) {name : String} (hlookup : a.lookup key.1 name = .ok e) :
    ∃ signatures renderPass,
      List.Forall₂ (fun name w => signatureIndex c key.2 name = .ok w) p.signatures signatures ∧
      renderPassIndex c key.2 p.renderPass = .ok renderPass ∧
      a.pipeline key.1 name = .ok (pipelineView p signatures renderPass) := by
  obtain ⟨hkind, -, ⟨signatures, renderPass, hpayload, hsignatures, hrenderPass⟩, -, hdevice⟩ :=
    pipelineRecord_spec hp
  refine ⟨signatures, renderPass, hsignatures, hrenderPass, ?_⟩
  obtain ⟨-, header, hrecord, hdata⟩ := h.layout.record_spec h.size h.opened hplaced he
    (device_ne_nil hc h.records hmem)
  rw [hkind] at hrecord
  -- the payload gives everything but the data on the backends
  have hread : (Archive.readPipeline name).value? placed.1.payload = .ok
      { pipelineView p signatures renderPass with device := .replicate none } := by
    have hlt := h.length_payload_lt hmem
    rw [hpayload] at hlt ⊢
    exact (reads_pipeline name p signatures renderPass hlt).value?_self
  refine bind_eq_ok_iff.2 ⟨e, hlookup, bind_eq_ok_iff.2 ⟨_, hrecord,
    bind_eq_ok_iff.2 ⟨_, hread, bind_eq_ok_iff.2
      ⟨(pipelineView p signatures renderPass).device, ?_, rfl⟩⟩⟩⟩
  rw [ofFnM_eq_ok_iff]
  intro b
  refine bind_eq_ok_iff.2 ⟨_, hdata b name, ?_⟩
  have hget : placed.1.device.get b = (p.device.get b).map devicePayload := by
    rw [hdevice, PerBackend.get_ofFn]
  rw [hget, pipelineView, PerBackend.get_map]
  cases hd : p.device.get b with
  | none => rfl
  | some d =>
    have hlt : (devicePayload d).length < UInt32.size :=
      h.length_data_lt hmem (b := b) (by rw [hget, hd]; rfl)
    exact bind_eq_ok_iff.2 ⟨_, (reads_device d hlt).value?_self, rfl⟩

/-! ## Shaders -/

/-- A shader is no longer than the archive, and a store has fewer of them than positions. -/
theorem shader_lt (h : Built c builder rs l a) (b : Backend) :
    (c.shaders.get b).size < UInt32.size ∧
      ∀ shader ∈ (c.shaders.get b).shaders, shader.length < UInt32.size := by
  have hregion := regionSize_le_measure c rs builder b
  rw [← h.layout.length_bytes] at hregion
  have hsize := h.size
  by_cases hzero : (c.shaders.get b).size = 0
  · refine ⟨by omega, ?_⟩
    intro shader hmem
    rw [List.eq_nil_of_length_eq_zero hzero] at hmem
    cases hmem
  · simp only [regionSize, hzero, if_false, shaderEntrySize] at hregion
    refine ⟨by omega, ?_⟩
    intro shader hmem
    have hle := le_totalSize (List.mem_map_of_mem (f := fun s : Bytes => paddedSize s.length) hmem)
    have hpadded := le_paddedSize shader.length
    omega

/-- A shader is read as what it is made of. -/
theorem exists_view (b : Backend) {shader : Bytes} (hlength : shader.length < UInt32.size)
    (h : ∃ stage entryPoint language code,
      shader = Patch.shaderRecord stage entryPoint language code) :
    ∃ view, (∀ index, (Archive.readShader b index).Reads shader view) ∧
      ∀ stage entryPoint language code,
        shader = Patch.shaderRecord stage entryPoint language code →
          view = shaderView stage entryPoint language code := by
  obtain ⟨stage, entryPoint, language, code, rfl⟩ := h
  refine ⟨shaderView stage entryPoint language code, fun index =>
    reads_shader b index stage entryPoint language code hlength, ?_⟩
  intro stage' entryPoint' language' code' heq
  -- the reader is a function: however the bytes are taken for a record, it is the same one
  have hread := (reads_shader b 0 stage entryPoint language code hlength).value?_self
  rw [heq] at hlength hread
  have hread' := (reads_shader b 0 stage' entryPoint' language' code' hlength).value?_self
  exact Except.ok.inj (hread.symm.trans hread')

/-- The shaders of a backend are read in their order, each as what it is made of. -/
theorem exists_shaders (h : Built c builder rs l a) (hc : c.Readable) (b : Backend) :
    ∃ views, a.shaders b = .ok views ∧ List.Forall₂ (fun shader view =>
      ∀ stage entryPoint language code,
        shader = Patch.shaderRecord stage entryPoint language code →
          view = shaderView stage entryPoint language code) (c.shaders.get b).shaders views := by
  obtain ⟨views, hviews⟩ := exists_forall₂ fun shader hmem =>
    exists_view b ((h.shader_lt b).2 shader hmem) (hc.shader b shader hmem)
  exact ⟨views, h.layout.shaders_eq h.size h.opened (hviews.imp fun _ _ hview => hview.1),
    hviews.imp fun _ _ hview => hview.2⟩

end Built

end PipelineArchive.Container
