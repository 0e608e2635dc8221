import PipelineArchive.Proofs.Archiver.Origins

/-!
# Signatures that pipelines rely on

A pipeline is of use only as long as the signatures it was laid out with are archived: with the
same description, and with data for every backend that the pipeline needs it for. A session is
`Intact` if this is so for all its pipelines. Signatures that are given are merged and only grow
(`grows_commit`), but one that is made for a pipeline takes the place of any other of its name, and
the name tells nothing of the kind of the pipeline. A request `Spares` the others if that does no
harm to them.

- `keepsAll_perform_iff`: a request keeps all signatures as they are needed exactly if it spares
  them.
- `intact_iff_spares`: a session is intact at all times exactly if all its requests spare what was
  there before them.
- `not_intact_sharedName`: after a compute and a tile pipeline of one name it is not.
-/

set_option autoImplicit false

namespace PipelineArchive

/-- The backends that a pipeline needs its signatures for: those it was compiled for, without
OpenGL if its signature was made for it. -/
def Origin.Needs (o : Origin) (b : Backend) : Prop :=
  (∃ t ∈ o.compiled, t.backend = b) ∧ (o.pipeline.common.signatures = [] → b.isGl = false)

/-- A signature is archived with its description, and with data wherever a pipeline needs it. -/
def Contents.Keeps (c : Contents) (o : Origin) (signature : Signature) : Prop :=
  ∃ record, c.signatures.get? signature.name = some record ∧ record.common = encode signature ∧
    ∀ b, o.Needs b → (record.device.get b).isSome

namespace Session

variable {σ : Type}

/-- Every archived pipeline was laid out with and patched against signatures that are archived
under the names it lists, with the same description, and with data for every backend that the
pipeline has data for. A signature that was made for the pipeline needs none for OpenGL. -/
def Intact (s : Session σ) : Prop :=
  ∀ key p, s.contents.pipelines.get? key = some p → ∃ o, s.origins key = some o ∧
    o.Explains (p.resolved s.contents.shaders) ∧ p.signatures = o.signatures.map (·.name) ∧
    ∀ signature ∈ o.signatures, ∃ record,
      s.contents.signatures.get? signature.name = some record ∧
        record.common = encode signature ∧
        ∀ b, (p.device.get b).isSome → (o.pipeline.common.signatures = [] → b.isGl = false) →
          (record.device.get b).isSome

/-- A request does no harm to other pipelines: if it enters a pipeline whose signature is made for
it, then any other pipeline that lists the name of this signature was laid out with an equal one,
and needs it for no further backends. -/
def Spares (s : Session σ) (r : Request) : Prop :=
  ∀ o, s.origin? r = some o → o.pipeline.common.signatures = [] → ∀ made ∈ o.signatures,
    ∀ key other, key ≠ o.key → s.origins key = some other →
      ∀ signature ∈ other.signatures, signature.name = made.name →
        encode signature = encode made ∧ ∀ b, other.Needs b → o.Needs b

/-- Every pipeline has its signatures archived as it needs them. -/
def KeepsAll (s : Session σ) : Prop :=
  ∀ key o, s.origins key = some o → ∀ signature ∈ o.signatures, s.contents.Keeps o signature

end Session

namespace Origin

/-- What comes out of an origin has data for the backends it was compiled for. -/
theorem Explains.isSome_device_iff {o : Origin} {p : ArchivedPipeline ResolvedDevice}
    (h : o.Explains p) (b : Backend) :
    (p.device.get b).isSome ↔ ∃ t ∈ o.compiled, t.backend = b := by
  obtain ⟨patched, hpatched, rfl⟩ := h
  rw [← Archiver.isSome_archived_iff hpatched]
  simp [ArchivedPipeline.staged, ArchivedPipeline.mapDevice]

theorem Explains.signatures_eq {o : Origin} {p : ArchivedPipeline ResolvedDevice}
    (h : o.Explains p) : p.signatures = o.signatures.map (·.name) := by
  obtain ⟨patched, -, rfl⟩ := h
  rfl

end Origin

namespace Session

variable {σ : Type}

/-- The pipelines of a session are intact if and only if their signatures are kept. -/
theorem intact_iff_keepsAll {s : Session σ} (h : s.Recorded) : s.Intact ↔ s.KeepsAll := by
  have hdevice {p : PipelineRecord} {o : Origin}
      (hexplains : o.Explains (p.resolved s.contents.shaders)) (b : Backend) :
      (p.device.get b).isSome ↔ ∃ t ∈ o.compiled, t.backend = b := by
    rw [← hexplains.isSome_device_iff]
    simp [ArchivedPipeline.resolved, ArchivedPipeline.mapDevice]
  constructor
  · intro hintact key o ho signature hsignature
    obtain ⟨-, q, hq, -⟩ := h.explains ho
    obtain ⟨p, hp, rfl⟩ := Option.map_eq_some_iff.1 hq
    obtain ⟨o', ho', hexplains, -, hkept⟩ := hintact key p hp
    cases ho.symm.trans ho'
    obtain ⟨record, hrecord, hcommon, hpresent⟩ := hkept signature hsignature
    exact ⟨record, hrecord, hcommon, fun b hb =>
      hpresent b ((hdevice hexplains b).2 hb.1) hb.2⟩
  · intro hkeeps key p hp
    have hresolved := Contents.Grounded.resolved?_eq hp
    -- every archived pipeline has an origin, and is what comes out of it
    obtain ⟨o, ho⟩ := Option.isSome_iff_exists.1 (h.origin (by rw [hresolved]; rfl))
    obtain ⟨-, q, hq, hexplains⟩ := h.explains ho
    cases hresolved.symm.trans hq
    refine ⟨o, ho, hexplains, hexplains.signatures_eq, ?_⟩
    intro signature hsignature
    obtain ⟨record, hrecord, hcommon, hpresent⟩ := hkeeps key o ho signature hsignature
    exact ⟨record, hrecord, hcommon, fun b hb hgl =>
      hpresent b ⟨(hdevice hexplains b).1 hb, hgl⟩⟩

end Session

/-! ## Signatures that grow -/

namespace Contents

/-- Every archived signature is archived in other contents too, with at least its data. -/
def GrowsTo (c c' : Contents) : Prop :=
  ∀ name r, c.signatures.get? name = some r →
    ∃ grown, c'.signatures.get? name = some grown ∧ r.GrowsTo grown

theorem GrowsTo.refl (c : Contents) : c.GrowsTo c := fun _ r hr => ⟨r, hr, .refl r⟩

theorem Keeps.mono {c c' : Contents} (h : c.GrowsTo c') {o : Origin} {signature : Signature}
    (hkeeps : c.Keeps o signature) : c'.Keeps o signature := by
  obtain ⟨record, hrecord, hcommon, hpresent⟩ := hkeeps
  obtain ⟨grown, hgrown, hgrows⟩ := h signature.name record hrecord
  exact ⟨grown, hgrown, hgrows.common.trans hcommon, fun b hb => hgrows.device (hpresent b hb)⟩

/-- Without a signature made for a pipeline a commit only adds to what is archived. -/
theorem grows_commit (c : Contents) {s : Staging} (hdistinct : Staging.Distinct s.signatures)
    (hnone : s.defaultSignature = none) : c.GrowsTo (c.commit s) := by
  intro name r hr
  rw [get?_signatures_commit c hdistinct, hnone]
  simp only [hr]
  cases s.signatures.lookup name with
  | none => exact ⟨r, rfl, .refl r⟩
  | some staged => exact ⟨r.merge staged, rfl, r.growsTo_merge staged⟩

end Contents

namespace Archiver

/-- Signatures that are given are archived with their description and data for all the
backends. -/
theorem Stages.exists_committed {c : Contents} {backends : List Backend}
    {signatures : List Signature} {s : Staging} (h : Stages c backends signatures s)
    {signature : Signature} (hmem : signature ∈ signatures) :
    ∃ record, (c.commit s).signatures.get? signature.name = some record ∧
      record.common = encode signature ∧ ∀ b ∈ backends, (record.device.get b).isSome := by
  obtain ⟨staged, hstaged, hcommon, hpresent⟩ := h.record signature hmem
  rw [Contents.get?_signatures_commit c h.distinct, h.noDefault]
  simp only [hstaged]
  cases harchived : c.signatures.get? signature.name with
  | none => exact ⟨staged, rfl, hcommon, hpresent⟩
  | some archived =>
    refine ⟨archived.merge staged, rfl, (h.agrees hstaged harchived).trans hcommon, ?_⟩
    intro b hb
    rw [SignatureRecord.get_merge, Option.isSome_or, hpresent b hb, Bool.or_true]

end Archiver

/-! ## One request -/

namespace Session

variable {σ : Type}

/-- A request that enters no pipeline only adds to the signatures. -/
theorem grows_perform_of_none {s : Session σ} (h : s.contents.Grounded) {r : Request}
    (hr : s.origin? r = none) : s.contents.GrowsTo (s.perform r).contents := by
  cases r with
  | pipeline p backends =>
    have hsame : (s.perform (.pipeline p backends)).contents = s.contents :=
      Archiver.contents_of_origin?_none hr
    rw [hsame]
    exact .refl _
  | signature signature backends =>
    rcases s.archiver.contents_addSignature signature backends with hsame | ⟨staging, hs, heq⟩
    · show s.contents.GrowsTo (s.archiver.addSignature signature backends).2.contents
      rw [hsame]
      exact .refl _
    · show s.contents.GrowsTo (s.archiver.addSignature signature backends).2.contents
      have hstages := (Archiver.prepareSignature_spec h.filled hs).1
      rw [heq]
      exact Contents.grows_commit _ hstages.distinct hstages.noDefault
  | renderPass pass =>
    rcases s.archiver.contents_addRenderPass pass with hsame | ⟨renderPass, heq⟩
    · show s.contents.GrowsTo (s.archiver.addRenderPass pass).2.contents
      rw [hsame]
      exact .refl _
    · show s.contents.GrowsTo (s.archiver.addRenderPass pass).2.contents
      rw [heq]
      exact Contents.grows_commit _ List.nodup_nil rfl

/-- If the signatures only grow, then a pipeline that enters breaks nothing for the others. -/
theorem keepsAll_perform_of_grows {s : Session σ} (h : s.KeepsAll) {r : Request} {o : Origin}
    (hr : s.origin? r = some o) (hgrows : s.contents.GrowsTo (s.perform r).contents)
    (hself : ∀ signature ∈ o.signatures, (s.perform r).contents.Keeps o signature) :
    (s.perform r).KeepsAll := by
  intro key other hother signature hsignature
  rw [origins_perform_of_some hr] at hother
  split at hother
  · cases hother
    exact hself signature hsignature
  · exact (h key other hother signature hsignature).mono hgrows

/-- A signature that is made for a pipeline replaces the one of its name. The others are kept if
and only if the request spares them. -/
theorem keepsAll_perform_of_made {s : Session σ} (h : s.KeepsAll) {r : Request} {o : Origin}
    (hr : s.origin? r = some o) (hnone : o.pipeline.common.signatures = [])
    {made : Signature} (hsignatures : o.signatures = [made]) {record : SignatureRecord}
    (hcommon : record.common = encode made)
    (hpresent : ∀ b, (record.device.get b).isSome ↔ o.Needs b)
    (hget : ∀ name, (s.perform r).contents.signatures.get? name =
      if name = made.name then some record else s.contents.signatures.get? name) :
    (s.perform r).KeepsAll ↔ s.Spares r := by
  constructor
  · intro hkeeps o' ho' _ made' hmade' key other hkey hother signature hsignature hname
    cases hr.symm.trans ho'
    rw [hsignatures, List.mem_singleton] at hmade'
    subst hmade'
    -- the other pipeline is still there, and its signature is now the one that was made
    have horigin : (s.perform r).origins key = some other := by
      rw [origins_perform_of_some hr, if_neg hkey, hother]
    obtain ⟨kept, hkept, hkeptCommon, hkeptPresent⟩ := hkeeps key other horigin signature hsignature
    rw [hget, if_pos hname] at hkept
    cases hkept
    exact ⟨hkeptCommon.symm.trans hcommon, fun b hb => (hpresent b).1 (hkeptPresent b hb)⟩
  · intro hspares key other hother signature hsignature
    rw [origins_perform_of_some hr] at hother
    split at hother
    -- the pipeline itself has the signature as it was made
    · cases hother
      rw [hsignatures, List.mem_singleton] at hsignature
      subst hsignature
      exact ⟨record, by rw [hget, if_pos rfl], hcommon, fun b hb => (hpresent b).2 hb⟩
    · rename_i hkey
      -- a signature of another name is the one from before
      by_cases hname : signature.name = made.name
      · have hmem : made ∈ o.signatures := by rw [hsignatures, List.mem_singleton]
        obtain ⟨hequal, hneeds⟩ :=
          hspares o hr hnone made hmem key other hkey hother signature hsignature hname
        exact ⟨record, by rw [hget, if_pos hname], hcommon.trans hequal.symm,
          fun b hb => (hpresent b).2 (hneeds b hb)⟩
      · obtain ⟨kept, hkept, hrest⟩ := h key other hother signature hsignature
        exact ⟨kept, by rw [hget, if_neg hname, hkept], hrest⟩

/-- A request keeps all signatures as they are needed exactly if it spares them. -/
theorem keepsAll_perform_iff {s : Session σ} (hrecorded : s.Recorded) (h : s.KeepsAll)
    (r : Request) : (s.perform r).KeepsAll ↔ s.Spares r := by
  cases hr : s.origin? r with
  | none =>
    have hspares : s.Spares r := fun o ho => by cases hr.symm.trans ho
    refine iff_of_true ?_ hspares
    intro key o ho signature hsignature
    rw [origins_perform_of_none hr] at ho
    exact (h key o ho signature hsignature).mono (grows_perform_of_none hrecorded.grounded hr)
  | some o =>
    obtain ⟨resolved, patched, renderPass, hresolved, hpatched, hcommit⟩ :=
      exists_commit_of_some hrecorded.grounded hr
    obtain ⟨p, compiled, signatures⟩ := o
    change Archiver.Resolved s.contents p compiled signatures resolved at hresolved
    -- without a signature that is made the request spares the others and only adds to the
    -- signatures; with one it is decided by those of the same name
    cases hresolved with
    | none hnone =>
      have hgrows : s.contents.GrowsTo (s.perform r).contents := by
        rw [hcommit]
        exact Contents.grows_commit _ List.nodup_nil rfl
      refine iff_of_true (keepsAll_perform_of_grows h hr hgrows fun _ hmem => by cases hmem) ?_
      intro o ho _ made hmade
      cases hr.symm.trans ho
      cases hmade
    | made hnone hcommon hpresent =>
      refine keepsAll_perform_of_made h hr hnone rfl hcommon ?_ ?_
      · intro b
        rw [hpresent]
        constructor
        · rintro ⟨t, ht, hb, hgl⟩
          exact ⟨⟨t, ht, hb⟩, fun _ => hgl⟩
        · rintro ⟨⟨t, ht, hb⟩, hgl⟩
          exact ⟨t, ht, hb, hgl hnone⟩
      · intro name
        have hdistinct : Staging.Distinct [] := List.nodup_nil
        rw [hcommit, Contents.get?_signatures_commit _ hdistinct]
        simp
    | given hsome hstages =>
      have hgrows : s.contents.GrowsTo (s.perform r).contents := by
        rw [hcommit]
        exact Contents.grows_commit _ hstages.distinct hstages.noDefault
      refine iff_of_true (keepsAll_perform_of_grows h hr hgrows ?_) ?_
      · intro signature hmem
        obtain ⟨record, hrecord, hcommon, hpresent⟩ :=
          (hstages.withPipeline renderPass _).exists_committed (Archiver.mem_inBindingOrder.1 hmem)
        refine ⟨record, by rw [hcommit, hrecord], hcommon, fun b hb => hpresent b ?_⟩
        obtain ⟨t, ht, rfl⟩ := hb.1
        exact List.mem_map_of_mem ht
      · intro o ho hnone
        cases hr.symm.trans ho
        exact absurd hnone hsome

/-! ## Whole sessions -/

theorem keepsAll_new (registry : Registry σ) (config : Config) (state : σ) :
    (new registry config state).KeepsAll := fun _ _ ho => by cases ho

theorem run_take_succ (s : Session σ) {requests : List Request} {n : Nat} {r : Request}
    (hr : requests[n]? = some r) :
    s.run (requests.take (n + 1)) = (s.run (requests.take n)).perform r := by
  rw [run, List.take_add_one, hr, List.foldl_append]
  rfl

/-- A session runs its archiver, and it is intact at all times if and only if each request spares
what was there before it. Only signatures that are made for pipelines can do harm. -/
theorem intact_iff_spares (registry : Registry σ) (config : Config) (state : σ)
    (requests : List Request) :
    let before n := (new registry config state).run (requests.take n)
    (∀ n, (before n).archiver =
      ((Archiver.new registry config).run state (requests.take n)).1) ∧
    ((∀ n, (before n).Intact) ↔ ∀ n r, requests[n]? = some r → (before n).Spares r) := by
  intro before
  refine ⟨fun n => archiver_run _ _, ?_⟩
  have hrecorded (n : Nat) : (before n).Recorded :=
    recorded_run (recorded_new registry config state) _
  have hsucc {n : Nat} {r : Request} (hr : requests[n]? = some r) :
      before (n + 1) = (before n).perform r := run_take_succ _ hr
  constructor
  · intro hintact n r hr
    have hkeeps := (intact_iff_keepsAll (hrecorded n)).1 (hintact n)
    have hnext := (intact_iff_keepsAll (hrecorded (n + 1))).1 (hintact (n + 1))
    rw [hsucc hr] at hnext
    exact (keepsAll_perform_iff (hrecorded n) hkeeps r).1 hnext
  · intro hspares n
    rw [intact_iff_keepsAll (hrecorded n)]
    -- induction on the time: intact before a request that spares, so intact after it
    induction n with
    | zero => exact keepsAll_new registry config state
    | succ n ih =>
      cases hr : requests[n]? with
      | none =>
        -- the run is over, and nothing changes any more
        have hlength := List.getElem?_eq_none_iff.1 hr
        have hsame : before (n + 1) = before n := by
          simp only [before]
          rw [List.take_of_length_le hlength, List.take_of_length_le (Nat.le_succ_of_le hlength)]
        rw [hsame]
        exact ih
      | some r =>
        rw [hsucc hr]
        exact (keepsAll_perform_iff (hrecorded n) ih r).2 (hspares n r hr)

/-! ## Two pipelines of one name -/

/-- A compiler whose code is empty and declares nothing. -/
def emptyTranscoder : Transcoder Unit :=
  .stateless (fun _ _ shader => .ok ⟨[], shader.entryPoint, some ⟨shader.stage, "main", [], []⟩⟩)
    fun _ stage => .ok ⟨stage, "main", [], []⟩

/-- Such compilers for Metal. -/
def metalRegistry : Registry Unit :=
  (Registry.empty.insert (.metalMacos, .hlsl) emptyTranscoder).insert (.metalIos, .hlsl)
    emptyTranscoder

/-- A pipeline of a single shader, without signatures. -/
def singleShader (name : String) (kind : Shader → PipelineKind) (stage : ShaderStage) : Pipeline :=
  ⟨⟨name, {}, []⟩, kind ⟨"shader", stage, "main", .hlsl "", []⟩⟩

/-- A compute pipeline for one backend, and a tile pipeline of its name for another. -/
def sharedName : List Request :=
  [.pipeline (singleShader "P" .compute .compute) (.singleton .metalMacos),
    .pipeline (singleShader "P" (.tile · [] 1) .tile) (.singleton .metalIos)]

/-- The signatures that are made for the two are equal, and that of the second takes the place of
the first. The compute pipeline is left without data for its backend. -/
theorem not_intact_sharedName : ¬((new metalRegistry {} ()).run sharedName).Intact := by
  intro h
  -- what is left of the first pipeline, and of the signature that it lists
  have hpipeline : (((new metalRegistry {} ()).run sharedName).contents.pipelines.get?
      (.computePipelines, "P")).map (fun p => (p.signatures, (p.device.get .metalMacos).isSome)) =
        some (["Default Signature of PSO 'P'"], true) := by decide +kernel
  have hsignature : (((new metalRegistry {} ()).run sharedName).contents.signatures.get?
      "Default Signature of PSO 'P'").map (fun r => r.device.get .metalMacos) = some none := by
    decide +kernel
  obtain ⟨p, hp, hfields⟩ := Option.map_eq_some_iff.1 hpipeline
  obtain ⟨hnames, hdevice⟩ := Prod.mk.inj hfields
  obtain ⟨o, -, -, hlisted, hkept⟩ := h _ p hp
  obtain ⟨signature, hmem, hname⟩ : ∃ signature ∈ o.signatures,
      signature.name = "Default Signature of PSO 'P'" := by
    rw [← List.mem_map, ← hlisted, hnames]
    exact List.mem_singleton_self _
  obtain ⟨record, hrecord, -, hpresent⟩ := hkept signature hmem
  rw [hname] at hrecord
  rw [hrecord] at hsignature
  have hnone : record.device.get .metalMacos = none := Option.some.inj hsignature
  have hdata := hpresent .metalMacos hdevice fun _ => rfl
  rw [hnone] at hdata
  cases hdata

end Session

end PipelineArchive
