import PipelineArchive.Proofs.Archiver.Extension
import PipelineArchive.Proofs.Archiver.Refusals
import PipelineArchive.Proofs.Container.NameLists

/-!
# The names that were accepted

A request that is accepted brings names with it: those of the signatures that are given, of one
that is made for its pipeline, of its render pass and of its pipeline (`Request.names`). Which of
them are new depends only on the requests that were accepted earlier, since these tell for which
backends a pipeline is archived (`Contents.Serves`). No other names enter the contents, and none
is ever lost (`ask_spec`), so that after a run the names of every kind are those that were
accepted (`mem_names_answerAll`).

`image_lists` follows them into the archive. It has an entry for every accepted name, in the order
of the names, but the name that is read ends at the first zero byte. What a reader may expect of a
chunk holds exactly if no name that was accepted into it has a zero byte; two names that differ
only behind one are read as the same (`not_lists_cutNames`).
-/

set_option autoImplicit false

namespace PipelineArchive

open Results

namespace Request

/-- The names of a kind that a request brings with it if its pipeline is compiled for some
backends. -/
def names (r : Request) (backends : List Backend) : ChunkKind → List String
  | .signatures => r.given.map (·.name) ++
      (if backends.any (!·.isGl) then r.defaultName? else none).toList
  | .renderPasses => r.renderPass?.toList.map (·.name)
  | kind => (r.key?.toList.filter fun key => key.1 = kind).map (·.2)

/-- The backends that some requests ask for the pipeline of a key. -/
def askedFor (requests : List Request) (key : PipelineKey) : List Backend :=
  (requests.filter fun r => r.key? = some key).flatMap backends

/-- The names of a kind that an accepted request adds to those of the ones accepted earlier. A
pipeline is compiled for all the backends that it was ever asked for, and it adds nothing if these
are the ones that it was asked for before. -/
def newNames (r : Request) (earlier : List Request) (kind : ChunkKind) : List String :=
  match r with
  | pipeline p backends =>
      let before := askedFor earlier (p.chunk, p.name)
      if (BackendSet.ofList before).includes backends then []
      else r.names (r.backends ++ before) kind
  | signature .. => r.names [] kind
  | renderPass _ => r.names [] kind

/-- The names of a kind that are added by requests that were accepted one after another, behind
some `earlier` ones. -/
def acceptedNames (earlier : List Request) : List Request → ChunkKind → List String
  | [], _ => []
  | r :: rest, kind => r.newNames earlier kind ++ acceptedNames (r :: earlier) rest kind

/-- It does not matter in which order backends are listed. -/
theorem names_congr (r : Request) {backends backends' : List Backend}
    (h : ∀ b, b ∈ backends ↔ b ∈ backends') : r.names backends = r.names backends' := by
  have hany : backends.any (!·.isGl) = backends'.any (!·.isGl) := by
    rw [Bool.eq_iff_iff, List.any_eq_true, List.any_eq_true]
    simp only [h]
  funext kind
  simp only [names, hany]

theorem askedFor_cons_self (p : Pipeline) (backends : BackendSet) (earlier : List Request) :
    askedFor (pipeline p backends :: earlier) (p.chunk, p.name) =
      backends.toList ++ askedFor earlier (p.chunk, p.name) := by
  simp [askedFor, key?, Request.backends]

theorem askedFor_cons_of_ne {r : Request} {key : PipelineKey} (h : r.key? ≠ some key)
    (earlier : List Request) : askedFor (r :: earlier) key = askedFor earlier key := by
  simp [askedFor, h]

end Request

/-! ## The backends of a pipeline -/

/-- What is not staged is as it was before a commit. -/
theorem View.pipeline_commit_of_none (v : View) {s : Staging} {key : PipelineKey}
    (h : s.pipeline? key = none) : (v.commit s).pipeline key = v.pipeline key := by
  simp [View.commit, h]

/-- A commit without a pipeline leaves the pipelines as they were. -/
theorem Contents.pipeline_view_commit {c : Contents} (hc : c.Consistent) {s : Staging}
    (hs : c.Supports s) (hpipeline : s.pipeline = none) :
    (c.commit s).view.pipeline = c.view.pipeline := by
  rw [view_commit hc hs.distinct]
  funext key
  refine c.view.pipeline_commit_of_none ?_
  rw [Staging.pipeline?, hpipeline]
  rfl

/-- Every pipeline is archived for the backends that it was asked for. -/
def Contents.Serves (c : Contents) (accepted : List Request) : Prop :=
  ∀ p : Pipeline, c.view.archivedFor p =
    .ofList (Request.askedFor accepted (p.chunk, p.name))

namespace Contents.Serves

variable {c : Contents} {accepted : List Request}

theorem empty : Contents.empty.Serves [] := fun _ => rfl

/-- A request without a pipeline makes no difference. -/
theorem of_key?_eq_none (h : c.Serves accepted) {c' : Contents}
    (hsame : c'.view.pipeline = c.view.pipeline) {r : Request} (hkey : r.key? = none) :
    c'.Serves (r :: accepted) := by
  intro q
  rw [Request.askedFor_cons_of_ne (by simp [hkey]), ← h q]
  simp only [View.archivedFor, hsame]

section

variable {p : Pipeline} {backends : BackendSet}

/-- Asking for backends that a pipeline is archived for makes no difference. -/
theorem of_includes (h : c.Serves accepted)
    (hincludes : (c.view.archivedFor p).includes backends) :
    c.Serves (.pipeline p backends :: accepted) := by
  intro q
  by_cases hkey : (p.chunk, p.name) = (q.chunk, q.name)
  · rw [h q, ← hkey, Request.askedFor_cons_self]
    refine BackendSet.ofList_congr fun b => ?_
    rw [List.mem_append]
    refine (or_iff_right_of_imp fun hb => ?_).symm
    have hcontains := BackendSet.contains_of_includes hincludes (BackendSet.mem_toList.1 hb)
    rw [h p] at hcontains
    exact BackendSet.contains_ofList.1 hcontains
  · have hother : (Request.pipeline p backends).key? ≠ some (q.chunk, q.name) :=
      fun h => hkey (Option.some.inj h)
    rw [h q, Request.askedFor_cons_of_ne hother]

/-- A pipeline that is staged and committed is archived for the backends it was compiled for. -/
theorem commit (h : c.Serves accepted) (hc : c.Grounded) {isExtension : Bool}
    {compiled : List BackendShaders} {s : Staging}
    (hs : Archiver.stagePipeline c p isExtension compiled = .ok s)
    (hcompiled : ∀ b, b ∈ compiled.map (·.backend) ↔
      b ∈ backends.toList ++ Request.askedFor accepted (p.chunk, p.name)) :
    (c.commit s).Serves (.pipeline p backends :: accepted) := by
  intro q
  have hdistinct := (Archiver.supports_pipeline hc.filled hs).distinct
  obtain ⟨signatures, resolved, patched, renderPass, -, hpatched, -, rfl⟩ :=
    Archiver.stagePipeline_spec hs
  rw [View.archivedFor, Contents.view_commit hc.toConsistent hdistinct]
  by_cases hkey : (p.chunk, p.name) = (q.chunk, q.name)
  · rw [← hkey, View.pipeline_commit _ rfl, Request.askedFor_cons_self]
    change (Archiver.archived p signatures patched).staged.backends = _
    rw [ArchivedPipeline.staged, ArchivedPipeline.backends_mapDevice]
    refine BackendSet.ofList_congr fun b => ?_
    rw [List.mem_filter, Archiver.isSome_archived_iff hpatched, ← List.mem_map, hcompiled]
    exact and_iff_right (Backend.mem_all b)
  · have hother : (Request.pipeline p backends).key? ≠ some (q.chunk, q.name) :=
      fun h => hkey (Option.some.inj h)
    rw [View.pipeline_commit_of_none _ (by simp [Staging.pipeline?, Staging.entryAt, Ne.symm hkey]),
      Request.askedFor_cons_of_ne hother, ← h q]
    rfl

end

end Contents.Serves

namespace Archiver

variable {σ : Type} {c : Contents}

/-! ## What is staged -/

theorem isSome_lookup_stageSignatures {signatures : List Signature}
    {compiled : List BackendShaders} {s : Staging}
    (h : stageSignatures c signatures compiled = .ok s) (name : String) :
    (s.signatures.lookup name).isSome ↔ name ∈ signatures.map (·.name) := by
  obtain ⟨_, -, h⟩ := bind_eq_ok_iff.1 h
  obtain ⟨_, -, h⟩ := bind_eq_ok_iff.1 h
  refine foldlM_invariant (fun seen s => ∀ name,
    (s.signatures.lookup name).isSome ↔ name ∈ seen.map (·.name)) ?_ (by simp) h name
  intro seen signature s next hseen hnext name
  obtain ⟨-, archived, record, -, -, rfl⟩ := stageSignature_eq_ok_iff.1 hnext
  rw [Staging.addSignature, Staging.lookup_addTo, List.map_append, List.mem_append]
  by_cases hname : name = signature.name
  · simp [hname]
  · simp [hname, hseen]

section

variable {p : Pipeline} {isExtension : Bool} {compiled : List BackendShaders} {s : Staging}

/-- A pipeline has the signatures staged that are given, or one of the default name. -/
theorem hasName_resolveSignatures (hc : c.Filled) {signatures : List Signature}
    (h : resolveSignatures c p isExtension compiled = .ok (signatures, s)) (backends : BackendSet)
    (name : String) : s.HasName name .signatures ↔
      name ∈ (Request.pipeline p backends).names (compiled.map (·.backend)) .signatures := by
  have hdefault : (∃ r, s.defaultSignature = some (name, r)) ↔
      name ∈ (s.defaultSignature.map (·.1)).toList := by
    simp [Option.map_eq_some_iff]
  simp only [Staging.HasName, hdefault, Request.names, Request.given, Request.defaultName?,
    List.mem_append, List.any_map, Function.comp_def]
  rcases resolveSignatures_eq_ok_iff.1 h with ⟨hnone, made, hmade, rfl⟩ | ⟨hsome, hgiven, rfl⟩
  · obtain ⟨hnames, hname⟩ := names_stageDefaultSignature hmade
    rw [hnames, hname, hnone]
    simp
  · rw [isSome_lookup_stageSignatures hgiven, (stageSignatures_spec hc hgiven).noDefault,
      if_neg fun h => hsome (List.isEmpty_iff.1 h), ite_self]
    rfl

/-- A render pass is staged unless its name is archived. -/
theorem mem_names_stageRenderPass {pass? : Option RenderPass} {staged : Option (String × Bytes)}
    (h : stageRenderPass c pass? = .ok staged) (name : String) :
    (name ∈ c.names .renderPasses ∨ ∃ desc, staged = some (name, desc)) ↔
      name ∈ c.names .renderPasses ∨ name ∈ pass?.toList.map (·.name) := by
  obtain ⟨-, rfl⟩ := stageRenderPass_eq_ok_iff.1 h
  cases pass? with
  | none => simp
  | some pass =>
    simp only [Contents.names, Table.mem_keys_iff, Option.bind_some]
    by_cases harchived : (c.renderPasses.get? pass.name).isSome
    · simp only [harchived, if_true]
      by_cases hname : name = pass.name
      · simp [hname, harchived]
      · simp [hname]
    · simp [harchived, @eq_comm _ pass.name]

/-- A pipeline that is staged and committed adds the names that it brings with it. -/
theorem mem_names_stagePipeline (hc : c.Grounded)
    (h : stagePipeline c p isExtension compiled = .ok s) (backends : BackendSet)
    (kind : ChunkKind) (name : String) : name ∈ (c.commit s).names kind ↔ name ∈ c.names kind ∨
      name ∈ (Request.pipeline p backends).names (compiled.map (·.backend)) kind := by
  have hsupports := supports_pipeline hc.filled h
  rw [Contents.mem_names_commit hc.toConsistent hsupports.distinct]
  obtain ⟨signatures, resolved, patched, renderPass, hresolved, -, hrenderPass, rfl⟩ :=
    stagePipeline_spec h
  have hkey : (∃ q, some ((p.chunk, p.name), archived p signatures patched) =
      some ((kind, name), q)) ↔
        name ∈ ([(p.chunk, p.name)].filter fun key => key.1 = kind).map (·.2) := by
    by_cases hkind : p.chunk = kind
    · simp [hkind, @eq_comm _ p.name]
    · simp [hkind]
  cases kind with
  | signatures => exact or_congr_right (hasName_resolveSignatures hc.filled hresolved backends name)
  | renderPasses => exact mem_names_stageRenderPass hrenderPass name
  | _ => exact or_congr_right hkey

end

/-- A signature is staged unless its name is archived. -/
theorem mem_names_prepareSignature (hc : c.Grounded) {signature : Signature}
    {backends : BackendSet} {staging : Option Staging}
    (h : prepareSignature c signature backends = .ok staging) (kind : ChunkKind) (name : String) :
    name ∈ (c.add staging).names kind ↔
      name ∈ c.names kind ∨ name ∈ (Request.signature signature backends).names [] kind := by
  obtain ⟨-, archived, hcheck, hstaged⟩ := prepareSignature_eq_ok_iff.1 h
  split at hstaged
  · rename_i hall
    subst hstaged
    -- the signature is archived for all the backends, so its name is there
    obtain ⟨r, rfl, -⟩ := (Option.any_eq_true _ _).1 hall
    have harchived : (c.signatures.get? signature.name).isSome := by
      rw [(Contents.checkSignature_eq_ok_iff.1 hcheck).1]
      rfl
    refine (or_iff_left_of_imp ?_).symm
    cases kind with
    | signatures =>
      intro hname
      obtain rfl : name = signature.name := by
        simpa [Request.names, Request.given, Request.defaultName?] using hname
      exact (c.signatures.mem_keys_iff _).2 harchived
    | _ => simp [Request.names, Request.renderPass?, Request.key?]
  · obtain ⟨record, -, rfl⟩ := hstaged
    obtain ⟨hstages, -⟩ := prepareSignature_spec hc.filled h
    rw [Contents.add, Contents.mem_names_commit hc.toConsistent hstages.distinct]
    refine or_congr_right ?_
    cases kind with
    | signatures =>
      by_cases hname : name = signature.name
      · simp [Staging.HasName, Staging.addSignature, Staging.lookup_addTo, Request.names,
          Request.given, hname]
      · simp [Staging.HasName, Staging.addSignature, Staging.lookup_addTo, Request.names,
          Request.given, hname]
    | _ => simp [Staging.HasName, Staging.addSignature, Request.names, Request.renderPass?,
        Request.key?]

/-- A render pass adds its name. -/
theorem mem_names_prepareRenderPass (hc : c.Grounded) {pass : RenderPass} {s : Staging}
    (h : prepareRenderPass c pass = .ok s) (kind : ChunkKind) (name : String) :
    name ∈ (c.commit s).names kind ↔
      name ∈ c.names kind ∨ name ∈ (Request.renderPass pass).names [] kind := by
  obtain ⟨-, renderPass, hstaged, rfl⟩ := prepareRenderPass_eq_ok_iff.1 h
  rw [Contents.mem_names_commit hc.toConsistent (supports_renderPass c renderPass).distinct]
  cases kind with
  | renderPasses => exact mem_names_stageRenderPass hstaged name
  | _ => simp [Staging.HasName, Request.names, Request.given, Request.key?]

theorem map_backend_transcodeAll {a : Archiver σ} {shaders : List Shader} {backends : List Backend}
    {fresh fresh' : TranscodeCache} {state : σ} {compiled : List BackendShaders}
    (h : (a.transcodeAll shaders backends fresh state).1 = .ok (compiled, fresh')) :
    compiled.map (·.backend) = backends := by
  induction backends generalizing fresh fresh' state compiled with
  | nil =>
    cases h
    rfl
  | cons b rest ih =>
    rw [transcodeAll] at h
    rcases hfirst : a.transcodeShaders b shaders fresh state with ⟨_ | ⟨first, fresh₁⟩, state₁⟩
    · simp only [hfirst] at h
      cases h
    · simp only [hfirst] at h
      rcases hothers : a.transcodeAll shaders rest fresh₁ state₁ with ⟨_ | ⟨others, fresh₂⟩, state₂⟩
      · simp only [hothers] at h
        cases h
      · simp only [hothers] at h
        cases h
        rw [List.map_cons, ih (congrArg Prod.fst hothers)]

/-! ## Requests -/

/-- A pipeline that is accepted is archived already, or it is staged and committed. -/
theorem contents_of_addPipeline_ok {a : Archiver σ} {p : Pipeline} {backends : BackendSet}
    {state : σ} (h : (a.addPipeline p backends state).1 = .ok ()) :
    (preparePipeline a.contents p backends = .ok none ∧
        (a.addPipeline p backends state).2.1.contents = a.contents) ∨
      ∃ pending isExtension compiled s,
        preparePipeline a.contents p backends = .ok (some (pending, isExtension)) ∧
        compiled.map (·.backend) = pending.toList ∧
        stagePipeline a.contents p isExtension compiled = .ok s ∧
        (a.addPipeline p backends state).2.1.contents = a.contents.commit s := by
  simp only [addPipeline, compilePipeline] at h ⊢
  cases hprepare : preparePipeline a.contents p backends with
  | error e => simp [hprepare] at h
  | ok pending? =>
    cases pending? with
    | none => exact .inl ⟨rfl, rfl⟩
    | some pending =>
      obtain ⟨pending, isExtension⟩ := pending
      simp only [hprepare] at h ⊢
      rcases htranscode : a.transcodeAll p.shaders pending.toList .empty state with
        ⟨_ | ⟨compiled, fresh⟩, next⟩
      · simp [htranscode] at h
      · simp only [htranscode] at h ⊢
        cases hstaged : stagePipeline a.contents p isExtension compiled with
        | error e => simp [hstaged] at h
        | ok s =>
          exact .inr ⟨pending, isExtension, compiled, s, rfl,
            map_backend_transcodeAll (congrArg Prod.fst htranscode), hstaged, rfl⟩

section

variable {a : Archiver σ} {state : σ} {earlier : List Request}

/-- The names after a pipeline is accepted, and the backends that pipelines are archived for. -/
theorem addPipeline_spec (h : a.contents.Grounded) (hserves : a.contents.Serves earlier)
    {p : Pipeline} {backends : BackendSet} (hok : (a.addPipeline p backends state).1 = .ok ()) :
    let c := (a.addPipeline p backends state).2.1.contents
    let r := Request.pipeline p backends
    (∀ kind name, name ∈ c.names kind ↔
      name ∈ a.contents.names kind ∨ name ∈ r.newNames earlier kind) ∧ c.Serves (r :: earlier) := by
  simp only [Request.newNames, ← hserves p]
  rcases contents_of_addPipeline_ok hok with ⟨hprepare, hcontents⟩ |
    ⟨pending, isExtension, compiled, s, hprepare, hcompiled, hs, hcontents⟩
  · have hincludes := includes_of_preparePipeline hprepare
    rw [hcontents]
    exact ⟨by simp [hincludes], hserves.of_includes hincludes⟩
  · obtain ⟨-, hbackends, hpending⟩ := preparePipeline_eq_ok_iff.1 hprepare
    obtain ⟨-, hsome⟩ := (pendingBackends_eq_ok_iff hbackends).1 hpending
    split at hsome
    · cases hsome
    · rename_i hmissing
      cases hsome
      -- the pipeline is compiled for the backends of this request and of the earlier ones
      have hmembers : ∀ b, b ∈ compiled.map (·.backend) ↔
          b ∈ backends.toList ++ Request.askedFor earlier (p.chunk, p.name) := by
        intro b
        rw [hcompiled, hserves p, BackendSet.mem_toList, BackendSet.contains_union, Bool.or_eq_true,
          BackendSet.contains_ofList, List.mem_append, BackendSet.mem_toList]
      rw [hcontents]
      refine ⟨fun kind name => ?_, hserves.commit h hs hmembers⟩
      rw [if_neg hmissing, mem_names_stagePipeline h hs backends,
        Request.names_congr _ hmembers]
      rfl

/-- After a request is accepted the names are those that were there and those that are new, and
every pipeline is archived for the backends that it was asked for. -/
theorem ask_spec (h : a.contents.Grounded) (hserves : a.contents.Serves earlier) {r : Request}
    (hok : (ask (a, state) r).1 = .ok ()) :
    let c := (ask (a, state) r).2.1.contents
    (∀ kind name, name ∈ c.names kind ↔
      name ∈ a.contents.names kind ∨ name ∈ r.newNames earlier kind) ∧ c.Serves (r :: earlier) := by
  cases r with
  | pipeline p backends => exact addPipeline_spec h hserves hok
  | signature signature backends =>
    simp only [ask, addSignature] at hok ⊢
    cases hstaged : prepareSignature a.contents signature backends with
    | error e => simp [hstaged] at hok
    | ok staging =>
      have hnames := mem_names_prepareSignature h hstaged
      cases staging with
      | none => exact ⟨hnames, hserves.of_key?_eq_none rfl rfl⟩
      | some s =>
        obtain ⟨hstages, hpipeline⟩ := prepareSignature_spec h.filled hstaged
        have hsame := Contents.pipeline_view_commit h.toConsistent
          (hstages.supports hpipeline) hpipeline
        exact ⟨hnames, hserves.of_key?_eq_none hsame rfl⟩
  | renderPass pass =>
    simp only [ask, addRenderPass] at hok ⊢
    cases hstaged : prepareRenderPass a.contents pass with
    | error e => simp [hstaged] at hok
    | ok s =>
      obtain ⟨renderPass, rfl⟩ := prepareRenderPass_spec hstaged
      have hsame := Contents.pipeline_view_commit h.toConsistent
        (supports_renderPass a.contents renderPass) rfl
      exact ⟨mem_names_prepareRenderPass h hstaged, hserves.of_key?_eq_none hsame rfl⟩

end

/-! ## Runs -/

/-- After a run the names are those that were there and those that were accepted. -/
theorem mem_names_answerAll {a : Archiver σ} (h : a.contents.Grounded) {earlier : List Request}
    (hserves : a.contents.Serves earlier) (state : σ) (requests : List Request) (kind : ChunkKind)
    (name : String) :
    let answered := answerAll ask (a, state) requests
    name ∈ answered.2.1.contents.names kind ↔ name ∈ a.contents.names kind ∨
      name ∈ Request.acceptedNames earlier (kept requests answered.1) kind := by
  induction requests generalizing a state earlier with
  | nil => simp [answerAll, kept, Request.acceptedNames]
  | cons r rest ih =>
    simp only [answerAll]
    cases hanswer : (ask (a, state) r).1 with
    | error e =>
      -- a request that is refused is not kept and leaves the archiver
      have hnext : (ask (a, state) r).2 = (a, (ask (a, state) r).2.2) :=
        Prod.ext (archiver_of_refused hanswer) rfl
      rw [hnext]
      exact ih h hserves (ask (a, state) r).2.2
    | ok =>
      obtain ⟨hnames, hserves⟩ := ask_spec h hserves hanswer
      have hgrounded : (ask (a, state) r).2.1.contents.Grounded := by
        rw [snd_ask]
        exact grounded_perform h state r
      have hrest := ih hgrounded hserves (ask (a, state) r).2.2
      refine hrest.trans ?_
      rw [hnames, or_assoc, ← List.mem_append]
      rfl

theorem grounded_answerAll (registry : Registry σ) (config : Config) (state : σ)
    (requests : List Request) :
    (answerAll ask (new registry config, state) requests).2.1.contents.Grounded := by
  rw [snd_answerAll_ask]
  exact grounded_run Contents.grounded_empty state requests

/-- After a run of a new archiver the names are those that were accepted. -/
theorem mem_names_of_new (registry : Registry σ) (config : Config) (state : σ)
    (requests : List Request) (kind : ChunkKind) (name : String) :
    let answered := answerAll ask (new registry config, state) requests
    name ∈ answered.2.1.contents.names kind ↔
      name ∈ Request.acceptedNames [] (kept requests answered.1) kind := by
  refine (mem_names_answerAll Contents.grounded_empty .empty state requests kind name).trans
    (or_iff_right ?_)
  cases kind <;> exact List.not_mem_nil

/-- A pipeline for OpenGL has no signature made for it until it is added for another backend. -/
example :
    let p := Session.singleShader "P" .compute .compute
    Request.acceptedNames [] [.pipeline p (.singleton .gl), .pipeline p (.singleton .vulkan)]
      .signatures = ["Default Signature of PSO 'P'"] := by
  decide +kernel

/-- Whatever an archiver was asked to add, its archive is too large or it can be read, and every
chunk has an entry for each name that was accepted into it, in the strict order of their bytes,
with what is seen of the name. The names that are read are exactly those that were accepted, in
order, no two the same, and each can be found, exactly if no name that was accepted has a zero
byte. -/
theorem image_lists (registry : Registry σ) (config : Config) (state : σ)
    (requests : List Request) :
    let answered := answerAll ask (new registry config, state) requests
    let accepted := Request.acceptedNames [] (kept requests answered.1)
    (∃ image archive, answered.2.1.image = .ok image ∧
      Container.Archive.ofBytes image.bytes = .ok archive ∧
      ∀ kind, kind.isNamed = true →
        (∃ names, (∀ name, name ∈ names ↔ name ∈ accepted kind) ∧
          (names.Pairwise fun m n => Key.before m n = true) ∧
          List.Forall₂ (fun name e => Container.SeenAs name e.name) names (archive.entries kind)) ∧
        (archive.Lists kind (· ∈ accepted kind) ↔
          ∀ name ∈ accepted kind, 0 ∉ Bytes.ofText name)) ∨
    ∃ size, maxArchiveSize < size ∧ answered.2.1.image = .error (.tooLarge size) := by
  intro answered accepted
  have hresolves := (grounded_answerAll registry config state requests).resolves
  have hlimit : maxArchiveSize < UInt32.size := by decide
  rcases Container.build_cases hresolves _ hlimit with ⟨image, himage⟩ | hlarge
  · obtain ⟨rs, l, archive, harchive, hbuilt⟩ := Container.exists_built hlimit himage
    refine .inl ⟨image, archive, himage, harchive, fun kind hkind => ?_⟩
    have hnames : ∀ name, name ∈ answered.2.1.contents.names kind ↔ name ∈ accepted kind :=
      mem_names_of_new registry config state requests kind
    refine ⟨⟨_, hnames, answered.2.1.contents.pairwise_names kind,
      hbuilt.seen_names hresolves hkind⟩, ?_⟩
    have hlists : archive.Lists kind (· ∈ answered.2.1.contents.names kind) ↔
        ∀ name ∈ answered.2.1.contents.names kind, 0 ∉ Bytes.ofText name :=
      hbuilt.lists_iff hresolves hkind
    simpa only [hnames] using hlists
  · exact .inr hlarge

/-- Two signatures whose names differ only behind a zero byte. -/
def cutNames : List Request :=
  [.signature ⟨"S\x00a", 0, [], []⟩ (.singleton .vulkan),
    .signature ⟨"S\x00b", 0, [], []⟩ (.singleton .vulkan)]

/-- Both are accepted and archived, and they are read under the same name. -/
theorem not_lists_cutNames :
    let answered := answerAll ask (new (Registry.empty : Registry Unit) {}, ()) cutNames
    let accepted := Request.acceptedNames [] (kept cutNames answered.1)
    accepted .signatures = ["S\x00a", "S\x00b"] ∧
    ∃ image archive, answered.2.1.image = .ok image ∧
      Container.Archive.ofBytes image.bytes = .ok archive ∧
      (archive.entries .signatures).map (·.name) = ["S", "S"] ∧
      ¬archive.Lists .signatures (· ∈ accepted .signatures) := by
  intro answered accepted
  have hresolves := (grounded_answerAll (Registry.empty : Registry Unit) {} () cutNames).resolves
  have haccepted : accepted .signatures = ["S\x00a", "S\x00b"] := by decide +kernel
  have harchived : answered.2.1.contents.names .signatures = ["S\x00a", "S\x00b"] := by
    decide +kernel
  obtain ⟨image, himage⟩ : ∃ image, answered.2.1.image = .ok image :=
    exists_ok_of_isOk (by decide +kernel)
  obtain ⟨rs, l, archive, harchive, hbuilt⟩ := Container.exists_built (by decide) himage
  refine ⟨haccepted, image, archive, himage, harchive, ?_, ?_⟩
  · -- what is seen of both names is the text before the zero byte
    have hcut (name : String) (hname : (Bytes.ofText name).takeWhile (· ≠ 0) = Bytes.ofText "S")
        (e : Container.NamedEntry) (hseen : Container.SeenAs name e.name) : e.name = "S" :=
      Bytes.ofText_injective (hseen.trans hname)
    have hseen : List.Forall₂ _ (answered.2.1.contents.names .signatures)
        (archive.entries .signatures) := hbuilt.seen_names hresolves rfl
    rw [harchived] at hseen
    generalize archive.entries .signatures = entries at hseen
    cases hseen with
    | cons hfirst hrest =>
      cases hrest with
      | cons hsecond hnone =>
        cases hnone
        rw [List.map_cons, List.map_cons, hcut _ (by decide +kernel) _ hfirst,
          hcut _ (by decide +kernel) _ hsecond]
        rfl
  · rw [haccepted, ← harchived, hbuilt.lists_iff hresolves rfl, harchived]
    intro hnames
    exact hnames "S\x00a" List.mem_cons_self (by decide +kernel)

end Archiver

end PipelineArchive
