import PipelineArchive.Proofs.Container.Answers

/-!
# What the records come from

The names and positions that pipelines hold must be those of something archived, or the archive
cannot be written. `Contents.Linked` says that they are, and `exists_records` that the records
can then be made. `Contents.Resolves` adds that pipelines are filed where they are looked for.
`Contents.Readable` says that the shaders are shader records and that no signature has a datum
without bytes.

`mem_records` tells where a record comes from, and the converses that everything archived has one.
The records of signatures and of render passes stand in the order of their names
(`recordsOf_signatures`, `recordsOf_renderPasses`), which is the order that positions count in.
-/

set_option autoImplicit false

namespace PipelineArchive

/-- Whatever a pipeline refers to is archived, and pipelines are filed under the chunks of
pipelines. -/
structure Contents.Resolves (c : Contents) : Prop where
  kind {key : PipelineKey} {p : PipelineRecord} :
    c.pipelines.get? key = some p → key.1.isPipeline = true
  signature {key : PipelineKey} {p : PipelineRecord} :
    c.pipelines.get? key = some p → ∀ name ∈ p.signatures, (c.signatures.get? name).isSome
  renderPass {key : PipelineKey} {p : PipelineRecord} :
    c.pipelines.get? key = some p →
      ∀ name, p.renderPass = some name → (c.renderPasses.get? name).isSome
  shader {key : PipelineKey} {p : PipelineRecord} {b : Backend} {d : DevicePipeline} :
    c.pipelines.get? key = some p → p.device.get b = some d →
      ∀ index ∈ d.shaders, index < (c.shaders.get b).size

/-- Whatever a pipeline refers to is archived, wherever the pipeline itself is filed. -/
structure Contents.Linked (c : Contents) : Prop where
  signature {key : PipelineKey} {p : PipelineRecord} :
    c.pipelines.get? key = some p → ∀ name ∈ p.signatures, (c.signatures.get? name).isSome
  renderPass {key : PipelineKey} {p : PipelineRecord} :
    c.pipelines.get? key = some p →
      ∀ name, p.renderPass = some name → (c.renderPasses.get? name).isSome
  shader {key : PipelineKey} {p : PipelineRecord} {b : Backend} {d : DevicePipeline} :
    c.pipelines.get? key = some p → p.device.get b = some d →
      ∀ index ∈ d.shaders, index < (c.shaders.get b).size

theorem Contents.Resolves.linked {c : Contents} (h : c.Resolves) : c.Linked :=
  ⟨h.signature, h.renderPass, h.shader⟩

/-- Everything that is archived can be read: the shaders are shader records, and no signature
has data without bytes. -/
structure Contents.Readable (c : Contents) : Prop where
  data {name : String} {r : SignatureRecord} :
    c.signatures.get? name = some r → ∀ b, r.device.get b ≠ some []
  shader (b : Backend) : ∀ shader ∈ (c.shaders.get b).shaders, Patch.IsRecord shader

namespace Container

open Results

variable {c : Contents} {rs : List Record}

/-! ## Making records -/

theorem exists_pipelineRecord (h : c.Linked) {key : PipelineKey} {p : PipelineRecord}
    (hp : c.pipelines.get? key = some p) : ∃ r, pipelineRecord c key p = .ok r := by
  obtain ⟨kind, name⟩ := key
  have hsignatures : ∃ ws, p.signatures.mapM (signatureIndex c name) = .ok ws := by
    apply exists_mapM
    intro signature hmem
    have hkey := (c.signatures.mem_keys_iff signature).2 (h.signature hp signature hmem)
    obtain ⟨index, hindex⟩ := List.mem_iff_getElem?.1 hkey
    exact ⟨_, signatureIndex_eq_ok_iff.2 ⟨index, hindex, rfl⟩⟩
  have hrenderPass : ∃ w, renderPassIndex c name p.renderPass = .ok w := by
    cases hpass : p.renderPass with
    | none => exact ⟨_, rfl⟩
    | some pass =>
      have hkey := (c.renderPasses.mem_keys_iff pass).2 (h.renderPass hp pass hpass)
      obtain ⟨index, hindex⟩ := List.mem_iff_getElem?.1 hkey
      exact ⟨_, renderPassIndex_eq_ok_iff.2 ⟨index, hindex, rfl⟩⟩
  have hdevice (b : Backend) : ∃ data, (p.device.get b).mapM (deviceData c name b) = .ok data := by
    cases hd : p.device.get b with
    | none => exact ⟨none, option_mapM_eq_ok_iff.2 (.inl ⟨rfl, rfl⟩)⟩
    | some d =>
      have hdata : deviceData c name b d = .ok (devicePayload d) :=
        deviceData_eq_ok_iff.2 ⟨h.shader hp hd, rfl⟩
      exact ⟨some _, option_mapM_eq_ok_iff.2 (.inr ⟨d, _, rfl, rfl, hdata⟩)⟩
  obtain ⟨ws, hws⟩ := hsignatures
  obtain ⟨w, hw⟩ := hrenderPass
  obtain ⟨device, hdevice⟩ := exists_ofFnM hdevice
  exact ⟨_, bind_eq_ok_iff.2 ⟨ws, hws, bind_eq_ok_iff.2 ⟨w, hw,
    bind_eq_ok_iff.2 ⟨device, hdevice, rfl⟩⟩⟩⟩

/-- The records of everything archived can be made. -/
theorem exists_records (h : c.Linked) : ∃ rs, records c = .ok rs := by
  have hpipelines : ∃ pipelines, (c.pipelines.entries.mapM fun entry =>
      pipelineRecord c entry.1 entry.2) = .ok pipelines :=
    exists_mapM fun entry hmem =>
      exists_pipelineRecord h ((c.pipelines.get?_eq_some_iff entry.1 entry.2).2 hmem)
  obtain ⟨pipelines, hpipelines⟩ := hpipelines
  exact ⟨_, bind_eq_ok_iff.2 ⟨pipelines, hpipelines, rfl⟩⟩

/-- The record of a signature. -/
def signatureSource (entry : String × SignatureRecord) : Record :=
  ⟨.signatures, entry.1, entry.2.common, entry.2.device⟩

/-- The record of a render pass. -/
def renderPassSource (entry : String × Bytes) : Record :=
  ⟨.renderPasses, entry.1, entry.2, .replicate none⟩

theorem records_spec (h : records c = .ok rs) :
    ∃ pipelines, rs = c.signatures.entries.map signatureSource
        ++ c.renderPasses.entries.map renderPassSource ++ pipelines ∧
      List.Forall₂ (fun entry r => pipelineRecord c entry.1 entry.2 = .ok r)
        c.pipelines.entries pipelines := by
  obtain ⟨pipelines, hpipelines, h⟩ := bind_eq_ok_iff.1 h
  cases h
  exact ⟨pipelines, rfl, mapM_eq_ok_iff.1 hpipelines⟩

/-- A record comes from a signature, a render pass or a pipeline. -/
theorem mem_records (h : records c = .ok rs) {r : Record} (hr : r ∈ rs) :
    (∃ name s, c.signatures.get? name = some s ∧ r = signatureSource (name, s)) ∨
      (∃ name desc, c.renderPasses.get? name = some desc ∧ r = renderPassSource (name, desc)) ∨
      ∃ key p, c.pipelines.get? key = some p ∧ pipelineRecord c key p = .ok r := by
  obtain ⟨pipelines, rfl, hpipelines⟩ := records_spec h
  rcases List.mem_append.1 hr with hr | hr
  · rcases List.mem_append.1 hr with hr | hr
    · obtain ⟨⟨name, s⟩, hmem, rfl⟩ := List.mem_map.1 hr
      exact .inl ⟨name, s, (c.signatures.get?_eq_some_iff name s).2 hmem, rfl⟩
    · obtain ⟨⟨name, desc⟩, hmem, rfl⟩ := List.mem_map.1 hr
      exact .inr (.inl ⟨name, desc, (c.renderPasses.get?_eq_some_iff name desc).2 hmem, rfl⟩)
  · obtain ⟨⟨key, p⟩, hmem, hrecord⟩ := exists_of_mem_right hpipelines hr
    exact .inr (.inr ⟨key, p, (c.pipelines.get?_eq_some_iff key p).2 hmem, hrecord⟩)

theorem mem_records_of_signature (h : records c = .ok rs) {name : String} {s : SignatureRecord}
    (hs : c.signatures.get? name = some s) : signatureSource (name, s) ∈ rs := by
  obtain ⟨pipelines, rfl, -⟩ := records_spec h
  have hmem := List.mem_map_of_mem (f := signatureSource)
    ((c.signatures.get?_eq_some_iff name s).1 hs)
  exact List.mem_append_left _ (List.mem_append_left _ hmem)

theorem mem_records_of_renderPass (h : records c = .ok rs) {name : String} {desc : Bytes}
    (hs : c.renderPasses.get? name = some desc) : renderPassSource (name, desc) ∈ rs := by
  obtain ⟨pipelines, rfl, -⟩ := records_spec h
  have hmem := List.mem_map_of_mem (f := renderPassSource)
    ((c.renderPasses.get?_eq_some_iff name desc).1 hs)
  exact List.mem_append_left _ (List.mem_append_right _ hmem)

/-- No record has data without bytes. -/
theorem device_ne_nil (hc : c.Readable) (h : records c = .ok rs) {r : Record} (hr : r ∈ rs)
    (b : Backend) : r.device.get b ≠ some [] := by
  rcases mem_records h hr with ⟨name, s, hs, rfl⟩ | ⟨name, desc, -, rfl⟩ | ⟨key, p, -, hp⟩
  · exact hc.data hs b
  · simp [renderPassSource]
  · obtain ⟨-, -, -, -, hdevice⟩ := pipelineRecord_spec hp
    rw [hdevice, PerBackend.get_ofFn]
    cases p.device.get b with
    | none => simp
    | some d =>
      intro hnil
      -- the data of a pipeline begin with a count
      injection hnil with hnil
      have hlength := congrArg List.length hnil
      simp [devicePayload, Encode.list] at hlength

/-! ## Records of a kind -/

theorem recordsOf_append (xs ys : List Record) (kind : ChunkKind) :
    recordsOf (xs ++ ys) kind = recordsOf xs kind ++ recordsOf ys kind := List.filter_append ..

theorem recordsOf_eq_self {xs : List Record} {kind : ChunkKind} (h : ∀ r ∈ xs, r.kind = kind) :
    recordsOf xs kind = xs := by
  rw [recordsOf, List.filter_eq_self]
  intro r hr
  simpa using h r hr

theorem recordsOf_eq_nil {xs : List Record} {kind : ChunkKind} (h : ∀ r ∈ xs, r.kind ≠ kind) :
    recordsOf xs kind = [] := by
  rw [recordsOf, List.filter_eq_nil_iff]
  intro r hr
  simpa using h r hr

theorem isPipeline_of_mem (hc : c.Resolves) {pipelines : List Record}
    (h : List.Forall₂ (fun entry r => pipelineRecord c entry.1 entry.2 = .ok r)
      c.pipelines.entries pipelines) {r : Record} (hr : r ∈ pipelines) :
    r.kind.isPipeline = true := by
  obtain ⟨⟨key, p⟩, hmem, hrecord⟩ := exists_of_mem_right h hr
  rw [(pipelineRecord_spec hrecord).1]
  exact hc.kind ((c.pipelines.get?_eq_some_iff key p).2 hmem)

/-- The records of signatures stand in the order of the signatures. -/
theorem recordsOf_signatures (hc : c.Resolves) (h : records c = .ok rs) :
    (recordsOf rs .signatures).map (·.name) = c.signatures.keys := by
  obtain ⟨pipelines, rfl, hpipelines⟩ := records_spec h
  rw [recordsOf_append, recordsOf_append, recordsOf_eq_self, recordsOf_eq_nil, recordsOf_eq_nil,
    List.append_nil, List.append_nil, List.map_map]
  · rfl
  -- the other records are of render passes and of pipeline kinds
  · intro r hr hkind
    have hpipeline := isPipeline_of_mem hc hpipelines hr
    rw [hkind] at hpipeline
    cases hpipeline
  · intro r hr
    obtain ⟨entry, -, rfl⟩ := List.mem_map.1 hr
    simp [renderPassSource]
  · intro r hr
    obtain ⟨entry, -, rfl⟩ := List.mem_map.1 hr
    rfl

/-- The records of render passes stand in the order of the render passes. -/
theorem recordsOf_renderPasses (hc : c.Resolves) (h : records c = .ok rs) :
    (recordsOf rs .renderPasses).map (·.name) = c.renderPasses.keys := by
  obtain ⟨pipelines, rfl, hpipelines⟩ := records_spec h
  rw [recordsOf_append, recordsOf_append, recordsOf_eq_nil, recordsOf_eq_self, recordsOf_eq_nil,
    List.append_nil, List.nil_append, List.map_map]
  · rfl
  · intro r hr hkind
    have hpipeline := isPipeline_of_mem hc hpipelines hr
    rw [hkind] at hpipeline
    cases hpipeline
  · intro r hr
    obtain ⟨entry, -, rfl⟩ := List.mem_map.1 hr
    rfl
  · intro r hr
    obtain ⟨entry, -, rfl⟩ := List.mem_map.1 hr
    simp [signatureSource]

end Container

end PipelineArchive
