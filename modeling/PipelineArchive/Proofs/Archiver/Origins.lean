import PipelineArchive.Proofs.Archiver.Runs

/-!
# What pipelines were made from

An archive keeps the outcome of laying out and patching a pipeline, but not what went into it: the
compiled shaders, and the signatures themselves. A `Session` is an archiver with a record of these
for every pipeline (`Origin`). The record is for proofs only; the archiver of a session runs as it
does alone (`archiver_run`). In every session the archived pipelines are exactly those with an
origin, and each is what comes out of its origin (`recorded_run`).
-/

set_option autoImplicit false

namespace PipelineArchive

open Results

/-- What a pipeline was made from when it entered the contents. -/
structure Origin where
  pipeline : Pipeline
  compiled : List BackendShaders
  /-- The signatures that the pipeline was laid out with, in binding order. -/
  signatures : List Signature

/-- The chunk and name of the pipeline. -/
def Origin.key (o : Origin) : PipelineKey := (o.pipeline.chunk, o.pipeline.name)

/-- An archived pipeline is what is laid out with the signatures of its origin and patched against
them. -/
def Origin.Explains (o : Origin) (p : ArchivedPipeline ResolvedDevice) : Prop :=
  ∃ patched, o.compiled.mapM (Archiver.patchFor o.pipeline o.signatures) = .ok patched ∧
    p = (Archiver.archived o.pipeline o.signatures patched).staged

namespace Archiver

variable {σ : Type}

/-- The origin of a pipeline that enters the contents, if it does. -/
def origin? (a : Archiver σ) (p : Pipeline) (backends : BackendSet) (state : σ) : Option Origin :=
  match (a.compilePipeline p backends state).1 with
  | .ok (some compiled) =>
      match stagePipeline a.contents p compiled.isExtension compiled.shaders,
        resolveSignatures a.contents p compiled.isExtension compiled.shaders with
      | .ok _, .ok (signatures, _) => some ⟨p, compiled.shaders, signatures⟩
      | _, _ => none
  | _ => none

/-- A pipeline without origin changes nothing. -/
theorem contents_of_origin?_none {a : Archiver σ} {p : Pipeline} {backends : BackendSet}
    {state : σ} (h : a.origin? p backends state = none) :
    (a.addPipeline p backends state).2.1.contents = a.contents := by
  rcases a.contents_addPipeline p backends state with hsame | ⟨compiled, s, hcompiled, hs, -⟩
  · exact hsame
  -- what is staged and committed has resolved signatures, and so an origin
  · obtain ⟨signatures, resolved, patched, renderPass, hresolved, -⟩ := stagePipeline_spec hs
    simp only [origin?, hcompiled, hs, hresolved] at h
    cases h

/-- A pipeline with an origin enters the contents with what comes out of it. -/
theorem contents_of_origin?_some {a : Archiver σ} {p : Pipeline} {backends : BackendSet}
    {state : σ} {o : Origin} (h : a.origin? p backends state = some o) :
    ∃ isExtension resolved patched renderPass, o.pipeline = p ∧
      resolveSignatures a.contents p isExtension o.compiled = .ok (o.signatures, resolved) ∧
      o.compiled.mapM (patchFor p o.signatures) = .ok patched ∧
      (a.addPipeline p backends state).2.1.contents = a.contents.commit { resolved with
        renderPass
        pipeline := some ((p.chunk, p.name), archived p o.signatures patched) } := by
  unfold origin? at h
  unfold addPipeline
  cases hcompiled : a.compilePipeline p backends state with
  | mk result next =>
  rw [hcompiled] at h
  cases result with
  | error e => cases h
  | ok compiled? =>
    cases compiled? with
    | none => cases h
    | some compiled =>
      simp only at h ⊢
      cases hs : stagePipeline a.contents p compiled.isExtension compiled.shaders with
      | error e =>
        rw [hs] at h
        cases h
      | ok s =>
        obtain ⟨signatures, resolved, patched, renderPass, hresolved, hpatched, -, rfl⟩ :=
          stagePipeline_spec hs
        simp only [hs, hresolved, Option.some.injEq] at h
        subst h
        exact ⟨compiled.isExtension, resolved, patched, renderPass, rfl, hresolved, hpatched, rfl⟩

end Archiver

/-! ## Sessions -/

/-- An archiver in use, with the state of its transcoders and the origins of its pipelines. -/
structure Session (σ : Type) where
  archiver : Archiver σ
  state : σ
  origins : PipelineKey → Option Origin

namespace Session

variable {σ : Type}

/-- A session with a new archiver. -/
def new (registry : Registry σ) (config : Config) (state : σ) : Session σ :=
  ⟨.new registry config, state, fun _ => none⟩

/-- The contents of the archiver. -/
abbrev contents (s : Session σ) : Contents := s.archiver.contents

/-- The origin that a request gives to a pipeline, if it is one. -/
def origin? (s : Session σ) : Request → Option Origin
  | .pipeline p backends => s.archiver.origin? p backends s.state
  | .signature .. => none
  | .renderPass _ => none

/-- The session after a request. -/
def perform (s : Session σ) (r : Request) : Session σ where
  archiver := (s.archiver.perform s.state r).1
  state := (s.archiver.perform s.state r).2
  origins key :=
    match s.origin? r with
    | some o => if key = o.key then some o else s.origins key
    | none => s.origins key

/-- The session after several requests. -/
def run (s : Session σ) (requests : List Request) : Session σ := requests.foldl perform s

theorem origins_perform_of_none {s : Session σ} {r : Request} (hr : s.origin? r = none)
    (key : PipelineKey) : (s.perform r).origins key = s.origins key := by
  simp only [perform, hr]

/-- The origins after a request: that of the pipeline it enters, and the earlier ones. -/
theorem origins_perform_of_some {s : Session σ} {r : Request} {o : Origin}
    (hr : s.origin? r = some o) (key : PipelineKey) :
    (s.perform r).origins key = if key = o.key then some o else s.origins key := by
  simp only [perform, hr]

/-- The archiver of a session runs as it does alone. -/
theorem archiver_run (s : Session σ) (requests : List Request) :
    (s.run requests).archiver = (s.archiver.run s.state requests).1 := by
  induction requests generalizing s with
  | nil => rfl
  | cons r rest ih => exact ih (s.perform r)

/-- The archived pipelines are exactly those with an origin, and each is what comes out of its
origin. -/
structure Recorded (s : Session σ) : Prop where
  grounded : s.contents.Grounded
  explains {key : PipelineKey} {o : Origin} : s.origins key = some o →
    o.key = key ∧ ∃ p, s.contents.resolved? key = some p ∧ o.Explains p
  origin {key : PipelineKey} : (s.contents.resolved? key).isSome → (s.origins key).isSome

theorem recorded_new (registry : Registry σ) (config : Config) (state : σ) :
    (new registry config state).Recorded where
  grounded := Contents.grounded_empty
  explains h := by cases h
  origin h := by cases h

/-- A request that gives no origin leaves every pipeline as it is. -/
theorem resolved?_perform_of_none {s : Session σ} (h : s.contents.Grounded) {r : Request}
    (hr : s.origin? r = none) (key : PipelineKey) :
    (s.perform r).contents.resolved? key = s.contents.resolved? key := by
  have hcommit {staging : Staging} (hpipeline : staging.pipeline = none) :
      (s.contents.commit staging).resolved? key = s.contents.resolved? key := by
    rw [Contents.resolved?_commit h.toConsistent, hpipeline]
  cases r with
  | pipeline p backends =>
    have hsame : (s.perform (.pipeline p backends)).contents = s.contents :=
      Archiver.contents_of_origin?_none hr
    rw [hsame]
  | signature signature backends =>
    rcases s.archiver.contents_addSignature signature backends with hsame | ⟨staging, hs, heq⟩
    · exact congrArg (fun c => Contents.resolved? c key) hsame
    · exact (congrArg (fun c => Contents.resolved? c key) heq).trans
        (hcommit (Archiver.prepareSignature_spec h.filled hs).2)
  | renderPass pass =>
    rcases s.archiver.contents_addRenderPass pass with hsame | ⟨renderPass, heq⟩
    · exact congrArg (fun c => Contents.resolved? c key) hsame
    · exact (congrArg (fun c => Contents.resolved? c key) heq).trans (hcommit rfl)

/-- A request that gives an origin commits a pipeline that the origin explains, with the staged
signatures of the origin. -/
theorem exists_commit_of_some {s : Session σ} (h : s.contents.Grounded) {r : Request} {o : Origin}
    (hr : s.origin? r = some o) : ∃ resolved patched renderPass,
      Archiver.Resolved s.contents o.pipeline o.compiled o.signatures resolved ∧
      o.compiled.mapM (Archiver.patchFor o.pipeline o.signatures) = .ok patched ∧
      (s.perform r).contents = s.contents.commit { resolved with
        renderPass
        pipeline := some (o.key, Archiver.archived o.pipeline o.signatures patched) } := by
  cases r with
  | signature => cases hr
  | renderPass => cases hr
  | pipeline p backends =>
    obtain ⟨isExtension, resolved, patched, renderPass, rfl, hresolved, hpatched, hcommit⟩ :=
      Archiver.contents_of_origin?_some hr
    exact ⟨resolved, patched, renderPass, Archiver.resolveSignatures_spec h.filled hresolved,
      hpatched, hcommit⟩

/-- After a request that gives an origin the pipeline of its key is what comes out of it. -/
theorem exists_resolved_of_some {s : Session σ} (h : s.contents.Grounded) {r : Request}
    {o : Origin} (hr : s.origin? r = some o) : ∃ p, o.Explains p ∧
      ∀ key, (s.perform r).contents.resolved? key =
        if key = o.key then some p else s.contents.resolved? key := by
  obtain ⟨resolved, patched, renderPass, -, hpatched, hcommit⟩ := exists_commit_of_some h hr
  refine ⟨_, ⟨patched, hpatched, rfl⟩, ?_⟩
  intro key
  rw [hcommit, Contents.resolved?_commit h.toConsistent]

theorem recorded_perform {s : Session σ} (h : s.Recorded) (r : Request) :
    (s.perform r).Recorded := by
  have hgrounded : (s.perform r).contents.Grounded :=
    Archiver.grounded_perform h.grounded s.state r
  cases hr : s.origin? r with
  | none =>
    refine ⟨hgrounded, ?_, ?_⟩
    · intro key o ho
      rw [origins_perform_of_none hr] at ho
      rw [resolved?_perform_of_none h.grounded hr]
      exact h.explains ho
    · intro key hkey
      rw [resolved?_perform_of_none h.grounded hr] at hkey
      rw [origins_perform_of_none hr]
      exact h.origin hkey
  | some made =>
    -- the pipeline that enters has the origin that is given; every other key keeps both
    obtain ⟨p, hexplains, hresolved⟩ := exists_resolved_of_some h.grounded hr
    refine ⟨hgrounded, ?_, ?_⟩
    · intro key o ho
      rw [origins_perform_of_some hr] at ho
      rw [hresolved]
      split at ho
      · rename_i hkey
        cases ho
        rw [if_pos hkey]
        exact ⟨hkey.symm, p, rfl, hexplains⟩
      · rename_i hkey
        rw [if_neg hkey]
        exact h.explains ho
    · intro key hkey
      rw [hresolved] at hkey
      rw [origins_perform_of_some hr]
      split
      · rfl
      · rename_i hne
        rw [if_neg hne] at hkey
        exact h.origin hkey

/-- In every session the archived pipelines are what comes out of their origins. -/
theorem recorded_run {s : Session σ} (h : s.Recorded) (requests : List Request) :
    (s.run requests).Recorded := by
  induction requests generalizing s with
  | nil => exact h
  | cons r rest ih => exact ih (recorded_perform h r)

end Session

end PipelineArchive
