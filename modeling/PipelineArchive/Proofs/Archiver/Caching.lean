import PipelineArchive.Proofs.Archiver.Purity

/-!
# What the cache saves

An archiver without a cache would compile every shader afresh (`askAfresh`). With pure transcoders
it answers every request as the archiver with a cache does, and both end with the same contents,
because both follow the plan of each request (`alike_afresh`). To count what the cache saves, the
transcoders are made to note every shader that they are handed (`Archiver.noting`); nothing else
changes. What is noted is in the cache, or among the fresh shaders of the current request, as long
as requests succeed. So no shader is handed over twice (`cache_spec`).
-/

set_option autoImplicit false

namespace PipelineArchive

open Results

variable {σ : Type}

namespace Archiver

variable {a : Archiver σ} {native : Native}

/-! ## Compiling afresh -/

/-- Computes something for every element of a list until it fails, with a state that is handed
on. -/
def forEach {α β : Type} (f : α → σ → Except ArchiveError β × σ) :
    List α → σ → Except ArchiveError (List β) × σ
  | [], state => (.ok [], state)
  | x :: rest, state =>
      match f x state with
      | (.error e, state) => (.error e, state)
      | (.ok y, state) =>
          match forEach f rest state with
          | (.error e, state) => (.error e, state)
          | (.ok others, state) => (.ok (y :: others), state)

/-- Compiles every shader for one backend. -/
def compileAfresh (a : Archiver σ) (shaders : List Shader) (b : Backend) (state : σ) :
    Except ArchiveError BackendShaders × σ :=
  match forEach (a.registry.compile a.config b) shaders state with
  | (.error e, state) => (.error e, state)
  | (.ok compiled, state) => (.ok ⟨b, compiled⟩, state)

/-- Adds a pipeline for some backends, and compiles every shader of it for each of them. -/
def addPipelineAfresh (a : Archiver σ) (p : Pipeline) (backends : BackendSet) (state : σ) :
    Except ArchiveError Unit × Archiver σ × σ :=
  match preparePipeline a.contents p backends with
  | .error e => (.error e, a, state)
  | .ok none => (.ok (), a, state)
  | .ok (some (backends, isExtension)) =>
      match forEach (a.compileAfresh p.shaders) backends.toList state with
      | (.error e, state) => (.error e, a, state)
      | (.ok compiled, state) =>
          match stagePipeline a.contents p isExtension compiled with
          | .error e => (.error e, a, state)
          | .ok staging => (.ok (), { a with contents := a.contents.commit staging }, state)

/-- A request to an archiver that compiles every shader afresh. -/
def askAfresh (s : Archiver σ × σ) : Request → Except ArchiveError Unit × Archiver σ × σ
  | .pipeline p backends => s.1.addPipelineAfresh p backends s.2
  | r => ask s r

/-- If the state makes no difference to what is computed, it can be left out. -/
theorem fst_forEach {α β : Type} {f : α → σ → Except ArchiveError β × σ}
    {g : α → Except ArchiveError β} (h : ∀ x state, (f x state).1 = g x) (xs : List α)
    (state : σ) : (forEach f xs state).1 = xs.mapM g := by
  induction xs generalizing state with
  | nil => rfl
  | cons x rest ih =>
    have hfirst := h x state
    rw [List.mapM_cons, forEach]
    generalize f x state = result at hfirst ⊢
    obtain ⟨answer, next⟩ := result
    obtain rfl : answer = g x := hfirst
    cases g x with
    | error e => rfl
    | ok y =>
      have hrest := ih next
      simp only
      generalize forEach f rest next = result at hrest ⊢
      obtain ⟨answer, last⟩ := result
      obtain rfl : answer = rest.mapM g := hrest
      cases rest.mapM g <;> rfl

theorem fst_forEach_compileAfresh
    (h : ∀ b s state, (a.registry.compile a.config b s state).1 = native b s)
    (shaders : List Shader) (backends : List Backend) (state : σ) :
    (forEach (a.compileAfresh shaders) backends state).1 =
      compileAll native shaders backends := by
  refine fst_forEach (fun b state => ?_) backends state
  have hshaders := fst_forEach (h b) shaders state
  unfold compileAfresh
  generalize forEach (a.registry.compile a.config b) shaders state = result at hshaders ⊢
  obtain ⟨answer, next⟩ := result
  obtain rfl : answer = shaders.mapM (native b) := hshaders
  cases shaders.mapM (native b) <;> rfl

/-! ## With and without a cache -/

/-- What a plan leads to: an answer, and the next contents. -/
def outcome (c : Contents) : Except ArchiveError (Option Staging) →
    Except ArchiveError Unit × Contents
  | .error e => (.error e, c)
  | .ok staging => (.ok (), c.add staging)

/-- With a cache the outcome is the planned one. -/
theorem outcome_ask (ha : a.Compiles native) {r : Request} (hr : isBounded r) (state : σ) :
    ((ask (a, state) r).1, (ask (a, state) r).2.1.contents) =
      outcome a.contents (r.plan native a.contents) := by
  -- a session has the same archiver, and no origins matter here
  let s : Session σ := ⟨a, state, fun _ => none⟩
  have hanswer : (ask (a, state) r).1 = s.answer r := by cases r <;> rfl
  have hnext : (ask (a, state) r).2.1 = (s.perform r).archiver :=
    congrArg Prod.fst (snd_ask a state r)
  obtain ⟨hfollows, -⟩ := Session.follows_plan (s := s) ha hr
  rw [hanswer, hnext]
  change s.Follows r (r.plan native a.contents) at hfollows
  generalize r.plan native a.contents = planned at hfollows ⊢
  cases hfollows with
  | error hanswer hsame => rw [hanswer, hsame, outcome]
  | ok hanswer hcontents => exact congrArg₂ Prod.mk hanswer hcontents

theorem compiles_ask (ha : a.Compiles native) {r : Request} (hr : isBounded r) (state : σ) :
    (ask (a, state) r).2.1.Compiles native := by
  have hnext := (Session.follows_plan (s := ⟨a, state, fun _ => none⟩) ha hr).2
  rw [snd_ask]
  exact hnext

/-- Without a cache the outcome is the planned one as well, and nothing but the contents changes. -/
theorem outcome_askAfresh
    (h : ∀ b s state, (a.registry.compile a.config b s state).1 = native b s) (r : Request)
    (state : σ) :
    ((askAfresh (a, state) r).1, (askAfresh (a, state) r).2.1) =
      ((outcome a.contents (r.plan native a.contents)).1,
        { a with contents := (outcome a.contents (r.plan native a.contents)).2 }) := by
  cases r with
  | pipeline p backends =>
    simp only [askAfresh, addPipelineAfresh, Request.plan, planPipeline, planShaders]
    cases preparePipeline a.contents p backends with
    | error e => rfl
    | ok pending =>
      cases pending with
      | none => rfl
      | some pending =>
        obtain ⟨pending, isExtension⟩ := pending
        have hcompiled := fst_forEach_compileAfresh h p.shaders pending.toList state
        simp only
        generalize forEach (a.compileAfresh p.shaders) pending.toList state = result
          at hcompiled ⊢
        obtain ⟨answer, next⟩ := result
        obtain rfl : answer = compileAll native p.shaders pending.toList := hcompiled
        cases compileAll native p.shaders pending.toList with
        | error e => rfl
        | ok compiled =>
          simp only [Except.map]
          cases stagePipeline a.contents p isExtension compiled <;> rfl
  | signature signature backends =>
    simp only [askAfresh, ask, addSignature, Request.plan]
    cases prepareSignature a.contents signature backends with
    | error e => rfl
    | ok staging => cases staging <;> rfl
  | renderPass pass =>
    simp only [askAfresh, ask, addRenderPass, Request.plan]
    cases prepareRenderPass a.contents pass <;> rfl

/-- An archiver with a cache and one without compile to the same code and have the same contents. -/
structure Alike (native : Native) (s t : Archiver σ × σ) : Prop where
  compiles : s.1.Compiles native
  afresh (b : Backend) (shader : Shader) (state : σ) :
    (t.1.registry.compile t.1.config b shader state).1 = native b shader
  contents : s.1.contents = t.1.contents

theorem alike_afresh {s t : Archiver σ × σ} (h : Alike native s t) {r : Request}
    (hr : isBounded r) :
    (ask s r).1 = (askAfresh t r).1 ∧ Alike native (ask s r).2 (askAfresh t r).2 := by
  obtain ⟨a, state⟩ := s
  obtain ⟨a', state'⟩ := t
  have hcached := outcome_ask h.compiles hr state
  obtain ⟨hanswer, hnext⟩ := Prod.mk.inj (outcome_askAfresh h.afresh r state')
  have hcontents : a.contents = a'.contents := h.contents
  rw [hcontents] at hcached
  obtain ⟨hcachedAnswer, hcachedContents⟩ := Prod.mk.inj hcached
  refine ⟨hcachedAnswer.trans hanswer.symm, compiles_ask h.compiles hr state, ?_, ?_⟩
  · rw [hnext]
    exact h.afresh
  · rw [hnext]
    exact hcachedContents

end Archiver

/-! ## Noting what transcoders are handed -/

/-- The shaders that transcoders were handed, by backend and key. -/
abbrev Log : Type := List (Backend × Bytes)

/-- A transcoder that notes every shader that it is handed, and is otherwise the same. -/
def Transcoder.noting (t : Transcoder σ) : Transcoder (σ × Log) where
  capabilities := t.capabilities
  compile := fun b config shader (state, log) =>
    let (answer, state) := t.compile b config shader state
    (answer, state, log ++ [(b, shader.key)])
  reflect := fun code stage (state, log) =>
    let (answer, state) := t.reflect code stage state
    (answer, state, log)

/-- A registry whose transcoders note what they are handed. -/
def Registry.noting (r : Registry σ) : Registry (σ × Log) :=
  ⟨r.routes.map fun (route, t) => (route, t.noting)⟩

/-- An archiver whose transcoders note what they are handed. -/
def Archiver.noting (a : Archiver σ) : Archiver (σ × Log) :=
  ⟨a.registry.noting, a.config, a.contents, a.cache⟩

namespace Archiver

@[simp]
theorem registry_noting (a : Archiver σ) : a.noting.registry = a.registry.noting := rfl

@[simp]
theorem config_noting (a : Archiver σ) : a.noting.config = a.config := rfl

@[simp]
theorem contents_noting (a : Archiver σ) : a.noting.contents = a.contents := rfl

@[simp]
theorem cache_noting (a : Archiver σ) : a.noting.cache = a.cache := rfl

end Archiver

theorem Transcoder.compile_noting (t : Transcoder σ) (b : Backend) (config : Config) (s : Shader)
    (state : σ) (log : Log) :
    t.noting.compile b config s (state, log) =
      ((t.compile b config s state).1, (t.compile b config s state).2, log ++ [(b, s.key)]) :=
  rfl

theorem Transcoder.reflect_noting (t : Transcoder σ) (code : Bytes) (stage : ShaderStage)
    (state : σ) (log : Log) :
    t.noting.reflect code stage (state, log) =
      ((t.reflect code stage state).1, (t.reflect code stage state).2, log) :=
  rfl

theorem Transcoder.run_noting (t : Transcoder σ) (b : Backend) (config : Config) (s : Shader)
    (state : σ) (log : Log) :
    t.noting.run b config s (state, log) =
      ((t.run b config s state).1, (t.run b config s state).2, log ++ [(b, s.key)]) := by
  simp only [run, compile_noting]
  rcases t.compile b config s state with ⟨answer, next⟩
  cases answer with
  | error message => rfl
  | ok transcoded =>
    cases hreflection : transcoded.reflection with
    | some reflection => simp only [hreflection]
    | none =>
      simp only [hreflection, reflect_noting]
      rcases t.reflect transcoded.code s.stage next with ⟨answer, last⟩
      cases answer <;> rfl

namespace Registry

theorem find?_noting (r : Registry σ) (route : Route) :
    r.noting.find? route = (r.find? route).map Transcoder.noting := by
  unfold find? noting
  induction r.routes with
  | nil => rfl
  | cons entry rest ih =>
    rw [List.map_cons, List.lookup_cons, List.lookup_cons, ih]
    cases route == entry.1 <;> rfl

/-- A shader is noted if there is a transcoder that it can be handed to. -/
theorem compile_noting (r : Registry σ) (config : Config) (b : Backend) (s : Shader) (state : σ)
    (log : Log) :
    r.noting.compile config b s (state, log) =
      ((r.compile config b s state).1, (r.compile config b s state).2,
        if r.supports (b, s.source.language) then log ++ [(b, s.key)] else log) := by
  simp only [compile, find?_noting]
  rw [supports]
  cases hfind : r.find? (b, s.source.language) with
  | none => rfl
  | some t =>
    simp only [Option.map_some, Option.isSome_some, if_true, Transcoder.run_noting]
    rcases t.run b config s state with ⟨answer, next⟩
    cases answer <;> rfl

end Registry

namespace Archiver

variable {a : Archiver σ}

/-- What was noted is distinct, and it is in the cache or among the fresh shaders. -/
structure Noted (a : Archiver σ) (fresh : TranscodeCache) (log : Log) : Prop where
  nodup : log.Nodup
  cached : ∀ entry ∈ log,
    ((a.cache.get? entry.1 entry.2).or (fresh.get? entry.1 entry.2)).isSome

/-- What is answered while noting is what is answered without. If it succeeds then all that was
noted is still in its place. -/
inductive Notes {α : Type} (a : Archiver σ) (before : Prop) :
    Except ArchiveError (α × TranscodeCache) × σ →
      Except ArchiveError (α × TranscodeCache) × σ × Log → Prop where
  | error (e : ArchiveError) (state : σ) (log : Log) :
      Notes a before (.error e, state) (.error e, state, log)
  | ok (value : α) (state : σ) {fresh : TranscodeCache} {log : Log} :
      (before → a.Noted fresh log) →
      Notes a before (.ok (value, fresh), state) (.ok (value, fresh), state, log)

/-- A shader that was not cached is noted for the first time, and joins the fresh ones. -/
theorem Noted.insert {fresh : TranscodeCache} {log : Log} (h : a.Noted fresh log) {b : Backend}
    {key : Bytes} (hnew : (a.cache.get? b key).or (fresh.get? b key) = none)
    (compiled : CompiledShader) :
    a.Noted (fresh.insert b key compiled) (log ++ [(b, key)]) where
  nodup := by
    refine List.nodup_append.2 ⟨h.nodup, List.nodup_singleton _, ?_⟩
    rintro entry hentry other hother rfl
    have hcached := h.cached entry hentry
    rw [List.mem_singleton.1 hother, hnew] at hcached
    cases hcached
  cached entry hentry := by
    rw [TranscodeCache.get?_insert]
    split
    · rw [Option.isSome_or, Option.isSome_some, Bool.or_true]
    · rename_i hother
      rcases List.mem_append.1 hentry with hbefore | hadded
      · exact h.cached entry hbefore
      · exact absurd (List.mem_singleton.1 hadded) hother

/-- After a request that succeeds its fresh shaders are cached. -/
theorem Noted.append {fresh : TranscodeCache} {log : Log} (h : a.Noted fresh log)
    (contents : Contents) :
    Noted { a with contents, cache := a.cache.append fresh } .empty log where
  nodup := h.nodup
  cached entry hentry := by
    have hcached := h.cached entry hentry
    simp only [TranscodeCache.get?, TranscodeCache.append, List.lookup_append, Option.isSome_or]
      at hcached ⊢
    rw [Bool.or_comm] at hcached
    rw [hcached, Bool.true_or]

theorem notes_transcode {before : Prop} (b : Backend) (s : Shader) {fresh : TranscodeCache}
    {log : Log} (h : before → a.Noted fresh log) (state : σ) :
    Notes a before (a.transcode b s fresh state) (a.noting.transcode b s fresh (state, log)) := by
  simp only [transcode, cache_noting, registry_noting, config_noting, Registry.compile_noting]
  cases hget : (a.cache.get? b s.key).or (fresh.get? b s.key) with
  | some compiled => exact .ok compiled state h
  | none =>
    simp only
    cases hcompile : a.registry.compile a.config b s state with
    | mk answer next =>
    cases answer with
    | error e => exact .error e next _
    | ok compiled =>
      -- what was compiled went to a transcoder
      have hsupports : a.registry.supports (b, s.source.language) = true := by
        rw [Registry.supports]
        cases hfind : a.registry.find? (b, s.source.language) with
        | some t => rfl
        | none =>
          rw [Registry.compile, hfind] at hcompile
          cases hcompile
      rw [if_pos hsupports]
      exact .ok compiled next fun hbefore => (h hbefore).insert hget compiled

theorem notes_transcodeShaders {before : Prop} (b : Backend) (shaders : List Shader)
    {fresh : TranscodeCache} {log : Log} (h : before → a.Noted fresh log) (state : σ) :
    Notes a before (a.transcodeShaders b shaders fresh state)
      (a.noting.transcodeShaders b shaders fresh (state, log)) := by
  induction shaders generalizing fresh log state with
  | nil => exact .ok [] state h
  | cons s rest ih =>
    have hfirst := notes_transcode b s h state
    rw [transcodeShaders, transcodeShaders]
    generalize a.transcode b s fresh state = plain at hfirst ⊢
    generalize a.noting.transcode b s fresh (state, log) = noting at hfirst ⊢
    cases hfirst with
    | error e next log => exact .error e next log
    | ok compiled next h =>
      have hrest := ih h next
      simp only
      generalize a.transcodeShaders b rest _ next = plain at hrest ⊢
      generalize a.noting.transcodeShaders b rest _ _ = noting at hrest ⊢
      cases hrest with
      | error e last log => exact .error e last log
      | ok others last h => exact .ok (compiled :: others) last h

theorem notes_transcodeAll {before : Prop} (shaders : List Shader) (backends : List Backend)
    {fresh : TranscodeCache} {log : Log} (h : before → a.Noted fresh log) (state : σ) :
    Notes a before (a.transcodeAll shaders backends fresh state)
      (a.noting.transcodeAll shaders backends fresh (state, log)) := by
  induction backends generalizing fresh log state with
  | nil => exact .ok [] state h
  | cons b rest ih =>
    have hfirst := notes_transcodeShaders b shaders h state
    rw [transcodeAll, transcodeAll]
    generalize a.transcodeShaders b shaders fresh state = plain at hfirst ⊢
    generalize a.noting.transcodeShaders b shaders fresh (state, log) = noting at hfirst ⊢
    cases hfirst with
    | error e next log => exact .error e next log
    | ok compiled next h =>
      have hrest := ih h next
      simp only
      generalize a.transcodeAll shaders rest _ next = plain at hrest ⊢
      generalize a.noting.transcodeAll shaders rest _ _ = noting at hrest ⊢
      cases hrest with
      | error e last log => exact .error e last log
      | ok others last h => exact .ok (⟨b, compiled⟩ :: others) last h

/-- A request to an archiver that notes has the same answer and leads to the same archiver; if it
succeeds then all that was noted is cached again. -/
structure Takes (a : Archiver σ) (log : Log) (plain : Except ArchiveError Unit × Archiver σ × σ)
    (noting : Except ArchiveError Unit × Archiver (σ × Log) × σ × Log) : Prop where
  same : noting = (plain.1, plain.2.1.noting, plain.2.2, noting.2.2.2)
  noted : plain.1 = .ok () → a.Noted .empty log → plain.2.1.Noted .empty noting.2.2.2

theorem takes_ask (a : Archiver σ) (state : σ) (log : Log) (r : Request) :
    a.Takes log (ask (a, state) r) (ask (a.noting, state, log) r) := by
  cases r with
  | pipeline p backends =>
    simp only [ask, addPipeline, compilePipeline, contents_noting]
    cases preparePipeline a.contents p backends with
    | error e => exact ⟨rfl, fun h => by cases h⟩
    | ok pending =>
      cases pending with
      | none => exact ⟨rfl, fun _ h => h⟩
      | some pending =>
        obtain ⟨pending, isExtension⟩ := pending
        have hcompiled := notes_transcodeAll p.shaders pending.toList
          (fun h : a.Noted .empty log => h) state
        simp only
        generalize a.transcodeAll p.shaders pending.toList .empty state = plain at hcompiled ⊢
        generalize a.noting.transcodeAll p.shaders pending.toList .empty (state, log) = noting
          at hcompiled ⊢
        cases hcompiled with
        | error e next log => exact ⟨rfl, fun h => by cases h⟩
        | ok compiled next h =>
          simp only
          cases stagePipeline a.contents p isExtension compiled with
          | error e => exact ⟨rfl, fun h => by cases h⟩
          | ok staging => exact ⟨rfl, fun _ hbefore => (h hbefore).append _⟩
  | signature signature backends =>
    simp only [ask, addSignature, contents_noting]
    cases prepareSignature a.contents signature backends with
    | error e => exact ⟨rfl, fun h => by cases h⟩
    | ok staging =>
      cases staging with
      | none => exact ⟨rfl, fun _ h => h⟩
      | some staging => exact ⟨rfl, fun _ h => ⟨h.nodup, h.cached⟩⟩
  | renderPass pass =>
    simp only [ask, addRenderPass, contents_noting]
    cases prepareRenderPass a.contents pass with
    | error e => exact ⟨rfl, fun h => by cases h⟩
    | ok staging => exact ⟨rfl, fun _ h => ⟨h.nodup, h.cached⟩⟩

/-- A run that notes is the same run. If all its requests succeed then what was noted is
distinct. -/
theorem answerAll_noting (a : Archiver σ) (state : σ) (log : Log) (requests : List Request) :
    let plain := answerAll ask (a, state) requests
    let noting := answerAll ask (a.noting, state, log) requests
    noting = (plain.1, plain.2.1.noting, plain.2.2, noting.2.2.2) ∧
      ((∀ answer ∈ plain.1, answer = .ok ()) → a.Noted .empty log →
        plain.2.1.Noted .empty noting.2.2.2) := by
  induction requests generalizing a state log with
  | nil => exact ⟨rfl, fun _ h => h⟩
  | cons r rest ih =>
    have htakes := takes_ask a state log r
    simp only [answerAll]
    generalize ask (a, state) r = plain at htakes ⊢
    generalize ask (a.noting, state, log) r = noting at htakes ⊢
    obtain ⟨answer, next, state⟩ := plain
    obtain ⟨answer', next', state', log'⟩ := noting
    obtain ⟨hsame, hnoted⟩ := htakes
    cases hsame
    -- the rest of the run notes after what this request has left
    obtain ⟨hrest, hrestNoted⟩ := ih next state log'
    constructor
    · have hanswers := congrArg Prod.fst hrest
      have hlast := congrArg Prod.snd hrest
      exact Prod.ext (congrArg (answer :: ·) hanswers) hlast
    · intro hall hbefore
      obtain ⟨hfirst, hothers⟩ := List.forall_mem_cons.1 hall
      exact hrestNoted hothers (hnoted hfirst hbefore)

theorem noted_new (registry : Registry σ) (config : Config) :
    (new registry config).Noted .empty [] :=
  ⟨List.nodup_nil, fun entry h => by cases h⟩

/-- With pure transcoders the cache makes no difference to what is answered and to the contents,
and noting what the transcoders are handed makes none to anything. If all requests succeed then no
shader was handed over twice for one backend. -/
theorem cache_spec {registry : Registry σ} (hpure : registry.IsPure) (config : Config) (state : σ)
    {requests : List Request} (hbounded : ∀ r ∈ requests, isBounded r) :
    let a := new registry config
    let cached := answerAll ask (a, state) requests
    let afresh := answerAll askAfresh (a, state) requests
    let noting := answerAll ask (a.noting, state, []) requests
    (cached.1 = afresh.1 ∧ cached.2.1.contents = afresh.2.1.contents) ∧
      noting = (cached.1, cached.2.1.noting, cached.2.2, noting.2.2.2) ∧
      ((∀ answer ∈ cached.1, answer = .ok ()) → noting.2.2.2.Nodup) := by
  intro a cached afresh noting
  have hnew : Alike (fun b s => (registry.compile config b s state).1) (a, state) (a, state) := {
    compiles := compiles_new hpure config state
    afresh := (compiles_new hpure config state).compile
    contents := rfl }
  obtain ⟨hanswers, hlast⟩ := answerAll_alike _
    (fun s t r hr h => alike_afresh h (hbounded r hr)) hnew
  obtain ⟨hsame, hnoted⟩ := answerAll_noting a state [] requests
  refine ⟨⟨hanswers, hlast.contents⟩, hsame, fun hall => ?_⟩
  exact (hnoted hall (noted_new registry config)).nodup

/-- Two pipelines of one shader, of which the first is added for a second backend later. -/
def recompiling : List Request := [
  .pipeline (Session.singleShader "P" .compute .compute) (.singleton .metalMacos),
  .pipeline (Session.singleShader "Q" .compute .compute) (.ofList [.metalMacos, .metalIos]),
  .pipeline (Session.singleShader "P" .compute .compute) (.singleton .metalIos)]

/-- The transcoders are handed the shader once for each backend, and every time without a cache. -/
theorem cache_spec_recompiling :
    (∀ r ∈ recompiling, isBounded r) ∧
    let a := new Session.metalRegistry {}
    let cached := answerAll ask (a, ()) recompiling
    let afresh := answerAll askAfresh (a, ()) recompiling
    let noting := answerAll ask (a.noting, (), []) recompiling
    (∀ answer ∈ cached.1, answer = .ok ()) ∧
      noting.2.2.2.length = 2 ∧
      (answerAll askAfresh (a.noting, (), []) recompiling).2.2.2.length = 5 ∧
      (cached.1 = afresh.1 ∧ cached.2.1.contents = afresh.2.1.contents) ∧
      noting = (cached.1, cached.2.1.noting, cached.2.2, noting.2.2.2) ∧
      ((∀ answer ∈ cached.1, answer = .ok ()) → noting.2.2.2.Nodup) := by
  have hbounded : ∀ r ∈ recompiling, isBounded r := by decide +kernel
  refine ⟨hbounded, by decide +kernel, by decide +kernel, by decide +kernel, ?_⟩
  exact cache_spec Session.isPure_metalRegistry {} () hbounded

end Archiver

end PipelineArchive
