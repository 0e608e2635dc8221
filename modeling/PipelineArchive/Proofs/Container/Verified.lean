import PipelineArchive.Proofs.Container.Built

/-!
# What was built passes verification

Verification follows every reference of an archive. In one that was built none of them leads
nowhere: `Built.verifyEntry_eq` follows those of a single entry, and `Built.verify_eq` those of
the whole archive. `build_verifies` puts this together with building and opening: contents whose
references resolve either are too large or give an archive that is opened and passes.
-/

set_option autoImplicit false

namespace PipelineArchive.Container

open Results

namespace Built

variable {c : Contents} {builder : Option String} {rs : List Record} {l : Layout} {a : Archive}

theorem firstOutside_eq_none {indices : List UInt32} {count : Nat}
    (h : ∀ index ∈ indices, index.toNat < count) :
    Archive.firstOutside indices count = none := by
  rw [Archive.firstOutside, List.find?_eq_none]
  intro index hindex
  simpa using h index hindex

/-- The numbers of shaders are read, each as that of the store. -/
theorem shaderCount_eq (h : Built c builder rs l a) (hc : c.Readable) (b : Backend) :
    (a.shaders b).map List.length = .ok (c.shaders.get b).size := by
  obtain ⟨views, hviews, hrel⟩ := h.exists_shaders hc b
  rw [hviews, ShaderStore.size, hrel.length_eq]
  rfl

/-- The positions of the signatures of a pipeline are those of entries. -/
theorem lt_of_mem_signatures (h : Built c builder rs l a) (hresolves : c.Resolves)
    {pipeline : String} {names : List String} {signatures : List UInt32}
    (hsignatures : List.Forall₂ (fun name w => signatureIndex c pipeline name = .ok w)
      names signatures) :
    ∀ w ∈ signatures, w.toNat < (a.entries .signatures).length := by
  intro w hw
  obtain ⟨name, -, hindex⟩ := exists_of_mem_right hsignatures hw
  exact (h.signatureIndex_spec hresolves hindex).1

/-- The position of the render pass of a pipeline is that of an entry, if it has a render pass. -/
theorem lt_of_mem_renderPass (h : Built c builder rs l a) (hresolves : c.Resolves)
    {pipeline : String} {p : PipelineRecord} {signatures : List UInt32} {renderPass : UInt32}
    (hrenderPass : renderPassIndex c pipeline p.renderPass = .ok renderPass) :
    ∀ w ∈ (pipelineView p signatures renderPass).renderPass.toList,
      w.toNat < (a.entries .renderPasses).length := by
  intro w hw
  rw [Option.mem_toList, pipelineView] at hw
  simp only at hw
  split at hw
  · cases hw
  · rename_i hvalid
    cases hw
    cases hpass : p.renderPass with
    | none =>
      -- without a render pass the position is the invalid one, which is not read as a position
      rw [hpass] at hrenderPass
      cases hrenderPass
      exact absurd rfl hvalid
    | some pass =>
      rw [hpass] at hrenderPass
      exact (h.renderPassIndex_spec hresolves hrenderPass).2.1

/-- A pipeline refers to signatures, render passes and shaders of the archive. -/
theorem verifyPipeline_eq (h : Built c builder rs l a) (hresolves : c.Resolves)
    (hreadable : c.Readable) {kind : ChunkKind} {name : String} {view : Archive.PipelineView}
    {pipeline : String} {p : PipelineRecord} {signatures : List UInt32} {renderPass : UInt32}
    (hsignatures : List.Forall₂ (fun name w => signatureIndex c pipeline name = .ok w)
      p.signatures signatures)
    (hrenderPass : renderPassIndex c pipeline p.renderPass = .ok renderPass)
    (hshaders : ∀ b d, p.device.get b = some d →
      ∀ index ∈ d.shaders, index < (c.shaders.get b).size)
    (hview : view = pipelineView p signatures renderPass)
    (hpipeline : a.pipeline kind name = .ok view) :
    a.verifyPipeline (.ofFn fun b => (a.shaders b).map List.length) kind name = .ok () := by
  subst hview
  refine bind_eq_ok_iff.2 ⟨_, hpipeline, ?_⟩
  simp only [firstOutside_eq_none (h.lt_of_mem_renderPass hresolves hrenderPass)]
  have hnone : Archive.firstOutside (pipelineView p signatures renderPass).signatures
      (a.entries .signatures).length = none :=
    firstOutside_eq_none (h.lt_of_mem_signatures hresolves hsignatures)
  simp only [hnone]
  apply forM_eq_ok_iff.2
  intro b _
  rw [pipelineView]
  simp only [PerBackend.get_map, PerBackend.get_ofFn, h.shaderCount_eq hreadable b]
  cases hd : p.device.get b with
  | none => rfl
  | some d =>
    -- a store has fewer shaders than there are words, so the words stand for the positions
    have hindices : ∀ w ∈ d.shaders.map UInt32.ofNat, w.toNat < (c.shaders.get b).size := by
      intro w hw
      obtain ⟨index, hindex, rfl⟩ := List.mem_map.1 hw
      have hlt := hshaders b d hd index hindex
      have hsize := (h.shader_lt b).1
      rwa [UInt32.toNat_ofNat_of_lt' (by omega)]
    refine bind_eq_ok_iff.2 ⟨(c.shaders.get b).size, rfl, ?_⟩
    simp only [firstOutside_eq_none hindices]
    rfl

theorem isNamed_of_isPipeline {kind : ChunkKind} (h : kind.isPipeline = true) :
    kind.isNamed = true := by
  cases kind <;> first | rfl | cases h

/-- A record of a pipeline kind comes from a pipeline. -/
theorem exists_pipeline (h : Built c builder rs l a) {r : Record} (hr : r ∈ rs)
    (hkind : r.kind.isPipeline = true) :
    ∃ key p, c.pipelines.get? key = some p ∧ pipelineRecord c key p = .ok r := by
  rcases mem_records h.records hr with ⟨name, s, -, rfl⟩ | ⟨name, desc, -, rfl⟩ | hpipeline
  · cases hkind
  · cases hkind
  · exact hpipeline

/-- An entry leads to a record with data, and to a pipeline whose references resolve if it is one
of a pipeline. -/
theorem verifyEntry_eq (h : Built c builder rs l a) (hresolves : c.Resolves)
    (hreadable : c.Readable) {kind : ChunkKind} (hkind : kind.isNamed = true) {e : NamedEntry}
    (he : e ∈ a.entries kind) :
    a.verifyEntry (.ofFn fun b => (a.shaders b).map List.length) kind e = .ok () := by
  obtain ⟨placed, hplaced, hr, rfl, hentry⟩ := h.exists_source hkind he
  obtain ⟨hplace, header, hrecord, hdata⟩ := h.layout.record_spec h.size h.opened hplaced hentry
    (device_ne_nil hreadable h.records hr)
  refine bind_eq_ok_iff.2 ⟨(), hplace, bind_eq_ok_iff.2 ⟨_, hrecord, bind_eq_ok_iff.2
    ⟨(), forM_eq_ok_iff.2 fun b _ => bind_eq_ok_iff.2 ⟨_, hdata b e.name, rfl⟩, ?_⟩⟩⟩
  by_cases hpipelineKind : placed.1.kind.isPipeline = true
  · rw [if_pos hpipelineKind]
    -- the name may lead to another entry that is read under the same name
    obtain ⟨e', he', -, hlookup⟩ := exists_lookup he
    obtain ⟨placed', hplaced', hr', hkind', hentry'⟩ := h.exists_source hkind he'
    obtain ⟨key, p, -, hp⟩ := h.exists_pipeline hr' (by rw [hkind']; exact hpipelineKind)
    have hspec := pipelineRecord_spec hp
    have hkey : placed.1.kind = key.1 := hkind'.symm.trans hspec.1
    rw [hkey] at hlookup ⊢
    obtain ⟨signatures, renderPass, hsignatures, hrenderPass, hview⟩ :=
      h.pipeline_eq hreadable hplaced' hr' hp hentry' hlookup
    exact h.verifyPipeline_eq hresolves hreadable hsignatures hrenderPass hspec.2.2.2.1 rfl hview
  · rw [if_neg hpipelineKind]
    rfl

/-- No reference of the archive leads nowhere. -/
theorem verify_eq (h : Built c builder rs l a) (hresolves : c.Resolves) (hreadable : c.Readable) :
    a.verify = .ok () := by
  have hcommon : ¬a.commonEnd < a.header.common.toNat := by
    rw [h.layout.common_eq h.size h.opened, h.layout.commonEnd_eq h.size h.opened]
    exact Nat.not_lt.2 (Nat.le_add_right _ _)
  have hentries : ((ChunkKind.all.filter ChunkKind.isNamed).forM fun kind =>
      (a.entries kind).forM
        (a.verifyEntry (.ofFn fun b => (a.shaders b).map List.length) kind)) = .ok () :=
    forM_eq_ok_iff.2 fun kind hkind => forM_eq_ok_iff.2 fun e he =>
      h.verifyEntry_eq hresolves hreadable (List.mem_filter.1 hkind).2 he
  simp only [Archive.verify, hcommon, if_false]
  exact hentries

end Built

/-- Contents whose references resolve and which can be read either are too large, or they give an
archive that is opened and passes verification. -/
theorem build_verifies {c : Contents} (hresolves : c.Resolves) (hreadable : c.Readable)
    (builder : Option String) {limit : Nat} (hlimit : limit < UInt32.size) :
    (∃ image a, build c builder limit = .ok image ∧
      Archive.ofBytes image.bytes = .ok a ∧ a.verify = .ok ()) ∨
    ∃ size, limit < size ∧ build c builder limit = .error (.tooLarge size) := by
  rcases build_cases hresolves builder hlimit with ⟨image, himage⟩ | hlarge
  · obtain ⟨rs, l, a, ha, hbuilt⟩ := exists_built hlimit himage
    exact .inl ⟨image, a, himage, ha, hbuilt.verify_eq hresolves hreadable⟩
  · exact .inr hlarge

end PipelineArchive.Container
