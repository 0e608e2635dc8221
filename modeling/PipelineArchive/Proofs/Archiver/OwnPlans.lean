import PipelineArchive.Proofs.Archiver.OwnStaging
import PipelineArchive.Proofs.Archiver.Purity
import PipelineArchive.Proofs.Masks

/-!
# What a request adds to a new archive

`Request.Adds` tells what a request adds to a new archive: the signatures that are given with data
for its backends, a signature that is made for a pipeline, a render pass and a pipeline, each under
its name. To an archive that is `Ready` for the request it adds the same, if the archive accepts
that (`plan_own`, `exists_plan`), and whatever is archived afterwards is still laid out for its
signatures (`View.Describes.commit`).
-/

set_option autoImplicit false

namespace PipelineArchive

open Results

namespace Request

/-- The signatures that are given with a request. -/
def given : Request → List Signature
  | pipeline p _ => p.common.signatures
  | signature s _ => [s]
  | renderPass _ => []

/-- The backends that a request is for. -/
def backends : Request → List Backend
  | pipeline _ backends => backends.toList
  | signature _ backends => backends.toList
  | renderPass _ => []

/-- The render pass of a request. -/
def renderPass? : Request → Option RenderPass
  | pipeline p _ => p.renderPass?
  | signature _ _ => none
  | renderPass pass => some pass

/-- The key of the pipeline of a request. -/
def key? : Request → Option PipelineKey
  | pipeline p _ => some (p.chunk, p.name)
  | signature _ _ => none
  | renderPass _ => none

/-- The name that a signature has if one is made for the pipeline. -/
def defaultName? : Request → Option String
  | pipeline p _ =>
      if p.common.signatures.isEmpty then some (Signature.defaultName p.name) else none
  | signature _ _ => none
  | renderPass _ => none

/-- A staging has what a request adds to a new archive. -/
structure Adds (r : Request) (s : Staging) : Prop where
  signature (name : String) : s.signatures.lookup name =
    (r.given.find? fun signature => signature.name = name).map (Archiver.recordOf · r.backends)
  made : s.defaultSignature.map (·.1) =
    if r.backends.any (!·.isGl) then r.defaultName? else none
  renderPass : s.renderPass = Archiver.ownRenderPass r.renderPass?
  pipeline : s.pipeline.map (·.1) = r.key?

end Request

variable {native : Native} {c : Contents}

namespace Archiver

variable {p : Pipeline}

theorem map_backend_compileAll {shaders : List Shader} {backends : List Backend}
    {compiled : List BackendShaders} (h : compileAll native shaders backends = .ok compiled) :
    compiled.map (·.backend) = backends := by
  have hrel := mapM_eq_ok_iff.1 h
  clear h
  induction hrel with
  | nil => rfl
  | cons hfirst _ ih =>
    obtain ⟨shaders, -, rfl⟩ := map_eq_ok_iff.1 hfirst
    rw [List.map_cons, ih]

theorem planShaders_eq_some_iff {backends : BackendSet} {isExtension : Bool}
    {compiled : List BackendShaders} :
    planShaders native c p backends = .ok (some (isExtension, compiled)) ↔ ∃ pending,
      preparePipeline c p backends = .ok (some (pending, isExtension)) ∧
      compileAll native p.shaders pending.toList = .ok compiled := by
  unfold planShaders
  cases preparePipeline c p backends with
  | error e => exact iff_of_false (by rintro ⟨⟩) (by rintro ⟨_, ⟨⟩, -⟩)
  | ok pending =>
    cases pending with
    | none => exact iff_of_false (by rintro ⟨⟩) (by rintro ⟨_, ⟨⟩, -⟩)
    | some pending =>
      obtain ⟨pending, extension⟩ := pending
      simp only [map_eq_ok_iff]
      constructor
      · rintro ⟨compiled, hcompiled, ⟨⟩⟩
        exact ⟨pending, rfl, hcompiled⟩
      · rintro ⟨_, ⟨⟩, hcompiled⟩
        exact ⟨compiled, hcompiled, rfl⟩

/-- A pipeline that adds something is compiled for the backends that are pending. -/
theorem planPipeline_eq_some_iff {backends : BackendSet} {s : Staging} :
    planPipeline native c p backends = .ok (some s) ↔ ∃ isExtension compiled,
      planShaders native c p backends = .ok (some (isExtension, compiled)) ∧
      stagePipeline c p isExtension compiled = .ok s := by
  unfold planPipeline
  cases planShaders native c p backends with
  | error e => exact iff_of_false (by rintro ⟨⟩) (by rintro ⟨_, _, ⟨⟩, -⟩)
  | ok planned =>
    cases planned with
    | none => exact iff_of_false (by rintro ⟨⟩) (by rintro ⟨_, _, ⟨⟩, -⟩)
    | some planned =>
      obtain ⟨isExtension, compiled⟩ := planned
      simp only [map_eq_ok_iff]
      constructor
      · rintro ⟨s, hs, ⟨⟩⟩
        exact ⟨isExtension, compiled, rfl, hs⟩
      · rintro ⟨_, _, ⟨⟩, hs⟩
        exact ⟨s, hs, rfl⟩

/-- A pipeline adds nothing if it is archived for all backends that are asked for. -/
theorem planPipeline_eq_none_iff {backends : BackendSet} :
    planPipeline native c p backends = .ok none ↔ preparePipeline c p backends = .ok none := by
  unfold planPipeline planShaders
  cases preparePipeline c p backends with
  | error e => exact iff_of_false (by rintro ⟨⟩) (by rintro ⟨⟩)
  | ok pending =>
    cases pending with
    | none => exact iff_of_true rfl rfl
    | some pending =>
      obtain ⟨pending, isExtension⟩ := pending
      refine iff_of_false ?_ (by rintro ⟨⟩)
      simp only
      cases compileAll native p.shaders pending.toList with
      | error e => rintro ⟨⟩
      | ok compiled =>
        intro h
        obtain ⟨s, -, ⟨⟩⟩ := map_eq_ok_iff.1 h

/-- What a pipeline adds that is not archived yet. -/
theorem planPipeline_of_new (hnew : c.pipeline? p.chunk p.name = none) {backends : BackendSet}
    {staging : Option Staging} : planPipeline native c p backends = .ok staging ↔
      (p.check = .ok () ∧ backends.isEmpty = false) ∧ ∃ compiled s,
        compileAll native p.shaders backends.toList = .ok compiled ∧
        stagePipeline c p false compiled = .ok s ∧ staging = some s := by
  have hpending : pendingBackends c p backends = .ok (some (backends, false)) := by
    simp only [pendingBackends, hnew]
  have hprepare : preparePipeline c p backends = .ok (some (backends, false)) ↔
      p.check = .ok () ∧ backends.isEmpty = false := by
    rw [preparePipeline_eq_ok_iff, hpending]
    simp
  cases staging with
  | none =>
    refine iff_of_false (fun h => ?_) (by simp)
    obtain ⟨-, -, hnone⟩ := preparePipeline_eq_ok_iff.1 (planPipeline_eq_none_iff.1 h)
    rw [hpending] at hnone
    cases hnone
  | some s =>
    simp only [planPipeline_eq_some_iff, planShaders_eq_some_iff]
    constructor
    · rintro ⟨isExtension, compiled, ⟨pending, h, hcompiled⟩, hs⟩
      obtain ⟨hcheck, hempty, hsome⟩ := preparePipeline_eq_ok_iff.1 h
      rw [hpending] at hsome
      cases hsome
      exact ⟨⟨hcheck, hempty⟩, compiled, s, hcompiled, hs, rfl⟩
    · rintro ⟨h, compiled, _, hcompiled, hs, ⟨⟩⟩
      exact ⟨false, compiled, ⟨backends, hprepare.2 h, hcompiled⟩, hs⟩

theorem adds_of_stagePipeline (hp : isBounded p) {backends : BackendSet}
    {compiled : List BackendShaders} (hcompiled : compiled.map (·.backend) = backends.toList)
    {s : Staging} (h : stagePipeline .empty p false compiled = .ok s) :
    (Request.pipeline p backends).Adds s := by
  obtain ⟨signatures, resolved, patched, renderPass, hresolved, -, hrenderPass, rfl⟩ :=
    stagePipeline_spec h
  obtain rfl := Except.ok.inj ((stageRenderPass_empty _).symm.trans hrenderPass)
  have hbounded : ∀ signature ∈ p.common.signatures, isBounded signature :=
    (isBounded_list.1 (Pipeline.isBounded_iff.1 hp).1.1.2).2
  refine ⟨?_, ?_, rfl, rfl⟩
  · intro name
    change resolved.signatures.lookup name = _
    rw [lookup_resolveSignatures hbounded hresolved, hcompiled]
    rfl
  · change resolved.defaultSignature.map (·.1) = _
    rw [defaultName_resolveSignatures hresolved]
    have hany : backends.toList.any (!·.isGl) = compiled.any (!·.backend.isGl) := by
      rw [← hcompiled, List.any_map]
      rfl
    simp only [Request.backends, Request.defaultName?, hany]

theorem adds_signature (signature : Signature) (backends : BackendSet) :
    (Request.signature signature backends).Adds
      (Staging.addSignature {} signature.name (recordOf signature backends.toList)) := by
  refine ⟨fun name => ?_, by rw [Request.defaultName?, ite_self]; rfl, rfl, rfl⟩
  change (Staging.addTo signature.name _ []).lookup name = _
  rw [Staging.lookup_addTo]
  by_cases hname : name = signature.name
  · simp [Request.given, Request.backends, hname]
  · simp [Request.given, hname, Ne.symm hname]

theorem adds_renderPass (pass : RenderPass) :
    (Request.renderPass pass).Adds { renderPass := ownRenderPass (some pass) } :=
  ⟨fun _ => rfl, rfl, rfl, rfl⟩

end Archiver

/-- Nothing is archived under the names that a request takes for its own, and what is archived of
its signatures has data that are laid out for them. -/
structure View.Ready (v : View) (r : Request) : Prop where
  describes : ∀ signature ∈ r.given, v.Describes signature
  made (name : String) : r.defaultName? = some name → v.signature name = none
  pipeline (key : PipelineKey) : r.key? = some key → v.pipeline key = none

theorem View.ready_empty (r : Request) : Contents.empty.view.Ready r where
  describes _ _ _ hr := by cases hr
  made _ _ := rfl
  pipeline _ _ := rfl

namespace Request

variable {r : Request}

theorem isBounded_given (hr : isBounded r) : ∀ signature ∈ r.given, isBounded signature := by
  cases r with
  | pipeline p backends => exact (isBounded_list.1 (Pipeline.isBounded_iff.1 hr).1.1.2).2
  | signature s backends => exact List.forall_mem_singleton.2 hr
  | renderPass pass => exact fun _ hmem => by cases hmem

/-- The records that a request adds are those of its signatures. -/
theorem Adds.record {s : Staging} (h : r.Adds s) {name : String} {record : SignatureRecord}
    (hrecord : s.signatures.lookup name = some record) : ∃ signature ∈ r.given,
      signature.name = name ∧ record = Archiver.recordOf signature r.backends := by
  rw [h.signature] at hrecord
  obtain ⟨signature, hsignature, rfl⟩ := Option.map_eq_some_iff.1 hrecord
  exact ⟨signature, List.mem_of_find?_eq_some hsignature, by simpa using List.find?_some hsignature,
    rfl⟩

/-- A signature that is made has the default name. -/
theorem Adds.defaultName?_of_made {s : Staging} (h : r.Adds s) {name : String}
    (hmade : (s.made? name).isSome) : r.defaultName? = some name := by
  have hname := Staging.isSome_entryAt_iff.1 hmade
  rw [h.made] at hname
  split at hname
  · exact hname
  · cases hname

/-- A request adds to an archive that is ready for it what it adds to a new one, and the archive
accepts that. -/
theorem plan_own (hr : isBounded r) (hready : c.view.Ready r) {staging : Option Staging}
    (h : r.plan native c = .ok staging) : ∃ own, r.plan native .empty = .ok (some own) ∧
      r.Adds own ∧ c.view.Accepts own ∧ c.view.add staging = c.view.commit own := by
  cases r with
  | pipeline p backends =>
    have hnew : c.pipeline? p.chunk p.name = none :=
      Option.map_eq_none_iff.1 (hready.pipeline (p.chunk, p.name) rfl)
    obtain ⟨hcheck, compiled, s, hcompiled, hs, rfl⟩ :=
      (Archiver.planPipeline_of_new hnew).1 h
    obtain ⟨own, hown, haccepts, hview⟩ := Archiver.stagePipeline_own (isBounded_given hr) hs
      fun signatures resolved hresolved signature hmem => by
        rcases Archiver.mem_resolveSignatures hresolved hmem with hgiven | ⟨hnone, hname⟩
        · exact hready.describes signature hgiven
        -- nothing is archived under the name of a signature that is made
        · have hmade := hready.made (Signature.defaultName p.name)
            (if_pos (List.isEmpty_iff.2 hnone))
          intro r hr
          rw [hname, hmade] at hr
          cases hr
    exact ⟨own, (Archiver.planPipeline_of_new rfl).2 ⟨hcheck, compiled, own, hcompiled, hown, rfl⟩,
      Archiver.adds_of_stagePipeline hr (Archiver.map_backend_compileAll hcompiled) hown, haccepts,
      hview⟩
  | signature s backends =>
    obtain ⟨hown, hadmits, hview⟩ :=
      Archiver.prepareSignature_own (hready.describes s (List.mem_singleton_self s)) h
    have hadds := Archiver.adds_signature s backends
    refine ⟨_, hown, hadds, ⟨fun hrecord harchived => ?_, by rintro _ _ _ ⟨⟩⟩, hview⟩
    obtain ⟨signature, hgiven, rfl, rfl⟩ := hadds.record hrecord
    obtain rfl := List.mem_singleton.1 hgiven
    exact hadmits _ harchived
  | renderPass pass =>
    obtain ⟨s, hs, rfl⟩ := map_eq_ok_iff.1 h
    obtain ⟨hown, haccepts, hview⟩ := Archiver.prepareRenderPass_own hs
    exact ⟨_, map_eq_ok_iff.2 ⟨_, hown, rfl⟩, Archiver.adds_renderPass pass, haccepts, hview⟩

/-- What is planned for a new archive is what a request adds. -/
theorem adds_of_plan (hr : isBounded r) {s : Staging} (h : r.plan native .empty = .ok (some s)) :
    r.Adds s := by
  obtain ⟨own, hown, hadds, -⟩ := plan_own hr (View.ready_empty r) h
  obtain rfl : s = own := Option.some.inj (Except.ok.inj (h.symm.trans hown))
  exact hadds

/-- A request succeeds if it does for a new archive and what it adds to that is accepted. -/
theorem exists_plan (hr : isBounded r) (hready : c.view.Ready r) {own : Staging}
    (hown : r.plan native .empty = .ok (some own)) (haccepts : c.view.Accepts own) :
    ∃ staging, r.plan native c = .ok staging := by
  cases r with
  | pipeline p backends =>
    have hnew : c.pipeline? p.chunk p.name = none :=
      Option.map_eq_none_iff.1 (hready.pipeline (p.chunk, p.name) rfl)
    obtain ⟨hcheck, compiled, _, hcompiled, hs, ⟨⟩⟩ := (Archiver.planPipeline_of_new rfl).1 hown
    obtain ⟨s, hs⟩ := Archiver.exists_stagePipeline hs haccepts hready.describes
      fun hnone => hready.made _ (if_pos (List.isEmpty_iff.2 hnone))
    exact ⟨some s, (Archiver.planPipeline_of_new hnew).2 ⟨hcheck, compiled, s, hcompiled, hs, rfl⟩⟩
  | signature s backends =>
    have hadds := adds_of_plan hr hown
    refine Archiver.exists_prepareSignature (hready.describes s (List.mem_singleton_self s)) ?_ hown
    have hrecord : own.signatures.lookup s.name =
        some (Archiver.recordOf s backends.toList) := by
      rw [hadds.signature]
      simp [given, Request.backends]
    exact fun archived harchived => haccepts.signature hrecord harchived
  | renderPass pass =>
    obtain ⟨own, hown, ⟨⟩⟩ := map_eq_ok_iff.1 hown
    obtain ⟨s, hs⟩ := Archiver.exists_prepareRenderPass hown haccepts
    exact ⟨some s, map_eq_ok_iff.2 ⟨s, hs, rfl⟩⟩

/-- What is planned can be committed. -/
theorem supports_of_plan (hc : c.Filled) {s : Staging} (h : r.plan native c = .ok (some s)) :
    c.Supports s := by
  cases r with
  | pipeline p backends =>
    obtain ⟨_, _, -, hs⟩ := Archiver.planPipeline_eq_some_iff.1 h
    exact Archiver.supports_pipeline hc hs
  | signature signature backends =>
    obtain ⟨hstages, hpipeline⟩ := Archiver.prepareSignature_spec hc h
    exact hstages.supports hpipeline
  | renderPass pass =>
    obtain ⟨_, hs, ⟨⟩⟩ := map_eq_ok_iff.1 h
    obtain ⟨renderPass, rfl⟩ := Archiver.prepareRenderPass_spec hs
    exact Archiver.supports_renderPass c renderPass

theorem grounded_add (hc : c.Grounded) {staging : Option Staging}
    (h : r.plan native c = .ok staging) : (c.add staging).Grounded := by
  cases staging with
  | none => exact hc
  | some s => exact hc.commit (supports_of_plan hc.filled h)

theorem view_add (hc : c.Grounded) {staging : Option Staging} (h : r.plan native c = .ok staging) :
    (c.add staging).view = c.view.add staging := by
  cases staging with
  | none => rfl
  | some s => exact Contents.view_commit hc.toConsistent (supports_of_plan hc.filled h).distinct

end Request

/-! ## Archived data -/

/-- What is archived of a signature stays laid out for it if all that enters under its name is. -/
theorem View.Describes.commit {v : View} {s : Staging} {signature : Signature}
    (h : v.Describes signature) (haccepts : v.Accepts s)
    (hgiven : ∀ r, s.signatures.lookup signature.name = some r → r.common = encode signature →
      r.Describes signature)
    (hmade : ∀ r, s.made? signature.name = some r → r.common = encode signature →
      r.Describes signature) : (v.commit s).Describes signature := by
  intro r hr hcommon
  rcases Option.or_eq_some_iff.1 hr with hr | ⟨-, hr⟩
  · exact hmade r hr hcommon
  · rcases Option.merge_eq_some_iff.1 hr with ⟨harchived, -⟩ | ⟨-, hstaged⟩ |
      ⟨archived, staged, harchived, hstaged, rfl⟩
    · exact h r harchived hcommon
    · exact hgiven r hstaged hcommon
    · -- a merged record has the description of both
      have hstagedCommon : staged.common = encode signature :=
        (haccepts.signature hstaged harchived).symm.trans hcommon
      refine ⟨hcommon, fun {b data} hdata => ?_⟩
      rw [SignatureRecord.get_merge, Option.or_eq_some_iff] at hdata
      rcases hdata with hdata | ⟨-, hdata⟩
      · exact (h archived harchived hcommon).data hdata
      · exact (hgiven staged hstaged hstagedCommon).data hdata

/-- The records that a request adds have the data of the signatures they describe. -/
theorem Request.Adds.describes {r : Request} {s : Staging} (h : r.Adds s) (hr : isBounded r)
    {signature : Signature} (hsignature : isBounded signature) {record : SignatureRecord}
    (hrecord : s.signatures.lookup signature.name = some record)
    (hcommon : record.common = encode signature) : record.Describes signature := by
  obtain ⟨given, hgiven, -, rfl⟩ := h.record hrecord
  obtain rfl := SelfDelimiting.encode_inj (isBounded_given hr given hgiven) hsignature hcommon
  exact Archiver.describes_recordOf given r.backends

end PipelineArchive
