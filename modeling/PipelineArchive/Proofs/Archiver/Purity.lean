import PipelineArchive.Proofs.Archiver.KeptSignatures
import PipelineArchive.Proofs.Encoding.Sources

/-!
# Archivers whose transcoders are pure

A transcoder is pure if what it answers depends on nothing but what it is asked, the debug name of
a shader apart (`Transcoder.IsPure`). An archiver with such transcoders has native code for every
shader, whether the shader is compiled or found in the cache, because a shader that can be counted
is told by its key up to its name (`TranscodeCache.Sound`). What a request does is then a function
of the contents and the native code alone, its `plan` (`follows_plan`).
-/

set_option autoImplicit false

namespace PipelineArchive

open Results

/-- The native code that shaders have on each backend. -/
abbrev Native : Type := Backend → Shader → Except ArchiveError CompiledShader

variable {σ : Type}

/-! ## Pure transcoders -/

/-- A transcoder whose answers depend neither on its state nor on the names of shaders. -/
structure Transcoder.IsPure (t : Transcoder σ) : Prop where
  compile {s s' : Shader} (b : Backend) (config : Config) (state state' : σ) :
    s.anonymous = s'.anonymous →
      (t.compile b config s state).1 = (t.compile b config s' state').1
  reflect (code : Bytes) (stage : ShaderStage) (state state' : σ) :
    (t.reflect code stage state).1 = (t.reflect code stage state').1

/-- A registry of pure transcoders. -/
def Registry.IsPure (r : Registry σ) : Prop := ∀ route t, r.find? route = some t → t.IsPure

theorem Registry.isPure_of_routes {r : Registry σ} (h : ∀ entry ∈ r.routes, entry.2.IsPure) :
    r.IsPure := by
  intro route t hfind
  obtain ⟨before, rest, hroutes, -⟩ := List.lookup_eq_some_iff.1 hfind
  exact h (route, t) (by simp [hroutes])

/-- Shaders that differ in their names alone have the same stage. -/
theorem Shader.stage_eq {s s' : Shader} (h : s.anonymous = s'.anonymous) : s.stage = s'.stage :=
  (congrArg Shader.stage h :)

theorem Shader.source_eq {s s' : Shader} (h : s.anonymous = s'.anonymous) :
    s.source = s'.source :=
  (congrArg Shader.source h :)

theorem Transcoder.IsPure.run {t : Transcoder σ} (ht : t.IsPure) {s s' : Shader} (b : Backend)
    (config : Config) (state state' : σ) (h : s.anonymous = s'.anonymous) :
    (t.run b config s state).1 = (t.run b config s' state').1 := by
  have hcompile := ht.compile b config state state' h
  unfold Transcoder.run
  rcases hfirst : t.compile b config s state with ⟨answer, next⟩
  rcases hsecond : t.compile b config s' state' with ⟨answer', next'⟩
  obtain rfl : answer = answer' := by rwa [hfirst, hsecond] at hcompile
  cases answer with
  | error message => rfl
  | ok transcoded =>
    cases hreflection : transcoded.reflection with
    | some reflection => simp [hreflection]
    | none =>
      have hreflect := ht.reflect transcoded.code s.stage next next'
      simp only [hreflection, ← Shader.stage_eq h]
      rcases hfirst : t.reflect transcoded.code s.stage next with ⟨answer, last⟩
      rcases hsecond : t.reflect transcoded.code s.stage next' with ⟨answer', last'⟩
      obtain rfl : answer = answer' := by rwa [hfirst, hsecond] at hreflect
      cases answer <;> rfl

namespace CompiledShader

/-- The name of a shader is seen only where its inputs have no locations. -/
theorem locations_eq_ok {name : String} (name' : String) {inputs : List VertexInput}
    {result : List (String × UInt32)} (h : locations name inputs = .ok result) :
    locations name' inputs = .ok result := by
  induction inputs generalizing result with
  | nil => exact h
  | cons input rest ih =>
    simp only [locations] at h ⊢
    split at h
    · cases h
    · obtain ⟨others, hothers, rfl⟩ := map_eq_ok_iff.1 h
      rw [ih hothers]
      rfl

end CompiledShader

namespace Registry

/-- What becomes of native code does not depend on the name of its shader if anything does. -/
theorem finish_eq_ok {b : Backend} {s s' : Shader} (h : s.anonymous = s'.anonymous) {code : Bytes}
    {entryPoint : String} {reflection : Reflection} {compiled : CompiledShader}
    (hfinish : finish b s code entryPoint reflection = .ok compiled) :
    finish b s' code entryPoint reflection = .ok compiled := by
  have hstage := Shader.stage_eq h
  have hsource := Shader.source_eq h
  simp only [finish, ← hstage, ← hsource] at hfinish ⊢
  split at hfinish
  · rename_i hvertex
    rw [if_pos hvertex]
    obtain ⟨locations, hlocations, hmapped⟩ := bind_eq_ok_iff.1 hfinish
    refine bind_eq_ok_iff.2 ⟨locations, CompiledShader.locations_eq_ok s'.name hlocations, ?_⟩
    rw [← hstage]
    exact hmapped
  · rename_i hother
    rw [if_neg hother]
    exact hfinish

variable {r : Registry σ}

/-- A pure registry compiles a shader in one way, whatever its state. -/
theorem IsPure.compile_eq (hr : r.IsPure) (config : Config) (b : Backend) (s : Shader)
    (state state' : σ) : (r.compile config b s state).1 = (r.compile config b s state').1 := by
  unfold compile
  cases hfind : r.find? (b, s.source.language) with
  | none => rfl
  | some t =>
    have hrun := (hr _ t hfind).run b config state state' (rfl : s.anonymous = s.anonymous)
    simp only
    rcases hfirst : t.run b config s state with ⟨answer, next⟩
    rcases hsecond : t.run b config s state' with ⟨answer', next'⟩
    obtain rfl : answer = answer' := by rwa [hfirst, hsecond] at hrun
    cases answer <;> rfl

/-- Shaders that differ in their names alone are compiled to the same code. -/
theorem IsPure.compile_eq_ok (hr : r.IsPure) {config : Config} {b : Backend} {s s' : Shader}
    (h : s.anonymous = s'.anonymous) {state : σ} {compiled : CompiledShader}
    (hcompile : (r.compile config b s state).1 = .ok compiled) :
    (r.compile config b s' state).1 = .ok compiled := by
  unfold compile at hcompile ⊢
  rw [← Shader.source_eq h]
  cases hfind : r.find? (b, s.source.language) with
  | none =>
    simp only [hfind] at hcompile
    cases hcompile
  | some t =>
    -- both go to the transcoder of one language
    have hrun := (hr _ t hfind).run b config state state h
    simp only [hfind] at hcompile ⊢
    rcases hfirst : t.run b config s state with ⟨answer, next⟩
    rcases hsecond : t.run b config s' state with ⟨answer', next'⟩
    obtain rfl : answer = answer' := by rwa [hfirst, hsecond] at hrun
    rw [hfirst] at hcompile
    cases answer with
    | error message => cases hcompile
    | ok result => exact finish_eq_ok h hcompile

end Registry

/-! ## The cache -/

theorem TranscodeCache.get?_insert (cache : TranscodeCache) (b : Backend) (key : Bytes)
    (compiled : CompiledShader) (b' : Backend) (key' : Bytes) :
    (cache.insert b key compiled).get? b' key' =
      if (b', key') = (b, key) then some compiled else cache.get? b' key' := by
  rw [get?, insert, List.lookup_cons]
  by_cases h : (b', key') = (b, key)
  · rw [beq_iff_eq.2 h, if_pos h]
  · rw [beq_eq_false_iff_ne.2 h, if_neg h]
    rfl

/-- What is cached for a key is the code of every loaded shader with that key. -/
def TranscodeCache.Sound (cache : TranscodeCache) (native : Native) : Prop :=
  ∀ b key compiled, cache.get? b key = some compiled →
    ∀ s : Shader, isBounded s → s.source.isFile = false → s.key = key → native b s = .ok compiled

namespace TranscodeCache.Sound

variable {native : Native} {cache : TranscodeCache}

theorem empty : TranscodeCache.empty.Sound native := fun b key compiled h => by cases h

theorem append {new : TranscodeCache} (h : cache.Sound native) (hnew : new.Sound native) :
    (cache.append new).Sound native := by
  intro b key compiled hget
  rw [TranscodeCache.get?, TranscodeCache.append, List.lookup_append, Option.or_eq_some_iff] at hget
  rcases hget with hget | ⟨-, hget⟩
  · exact hnew b key compiled hget
  · exact h b key compiled hget

/-- A shader that was compiled joins the cache. -/
theorem insert (h : cache.Sound native)
    (hnames : ∀ b (s s' : Shader) compiled, s.anonymous = s'.anonymous →
      native b s = .ok compiled → native b s' = .ok compiled)
    {b : Backend} {s : Shader} {compiled : CompiledShader} (hs : isBounded s)
    (hloaded : s.source.isFile = false) (hcompiled : native b s = .ok compiled) :
    (cache.insert b s.key compiled).Sound native := by
  intro b' key compiled' hget t ht htloaded hkey
  rw [TranscodeCache.get?_insert] at hget
  split at hget
  · rename_i heq
    cases hget
    obtain ⟨rfl, rfl⟩ := Prod.mk.inj heq
    have hsame : t.anonymous = s.anonymous :=
      (Shader.append_inj (r := []) (s := []) ⟨ht, htloaded⟩ ⟨hs, hloaded⟩
        (congrArg (· ++ []) hkey)).1
    exact hnames b' s t compiled hsame.symm hcompiled
  · exact h b' key compiled' hget t ht htloaded hkey

end TranscodeCache.Sound

namespace Archiver

/-- An archiver compiles shaders to the given code, and has cached nothing else. -/
structure Compiles (a : Archiver σ) (native : Native) : Prop where
  compile (b : Backend) (s : Shader) (state : σ) :
    (a.registry.compile a.config b s state).1 = native b s
  names (b : Backend) (s s' : Shader) (compiled : CompiledShader) : s.anonymous = s'.anonymous →
    native b s = .ok compiled → native b s' = .ok compiled
  cache : a.cache.Sound native

/-- An archiver with pure transcoders compiles shaders to code of their own. -/
theorem compiles_new {registry : Registry σ} (h : registry.IsPure) (config : Config) (state : σ) :
    (new registry config).Compiles fun b s => (registry.compile config b s state).1 where
  compile b s state' := h.compile_eq config b s state' state
  names _ _ _ _ hsame hcompiled := h.compile_eq_ok hsame hcompiled
  cache := TranscodeCache.Sound.empty

variable {a : Archiver σ} {native : Native}

/-- What is answered with a cache of fresh shaders is the given answer, and the cache is sound. -/
inductive Answers {α : Type} (native : Native) :
    Except ArchiveError (α × TranscodeCache) → Except ArchiveError α → Prop where
  | error (e : ArchiveError) : Answers native (.error e) (.error e)
  | ok (value : α) {fresh : TranscodeCache} : fresh.Sound native →
      Answers native (.ok (value, fresh)) (.ok value)

theorem answers_transcode (ha : a.Compiles native) (b : Backend) {s : Shader} (hs : isBounded s)
    (hloaded : s.source.isFile = false) {fresh : TranscodeCache} (hfresh : fresh.Sound native)
    (state : σ) : Answers native (a.transcode b s fresh state).1 (native b s) := by
  unfold transcode
  cases hget : (a.cache.get? b s.key).or (fresh.get? b s.key) with
  | some compiled =>
    have hcompiled : native b s = .ok compiled := by
      rcases Option.or_eq_some_iff.1 hget with hget | ⟨-, hget⟩
      · exact ha.cache b _ compiled hget s hs hloaded rfl
      · exact hfresh b _ compiled hget s hs hloaded rfl
    rw [hcompiled]
    exact .ok compiled hfresh
  | none =>
    have hcompile := ha.compile b s state
    simp only
    generalize a.registry.compile a.config b s state = result at hcompile ⊢
    obtain ⟨answer, next⟩ := result
    obtain rfl : answer = native b s := hcompile
    cases hnative : native b s with
    | error e => exact .error e
    | ok compiled => exact .ok compiled (hfresh.insert ha.names hs hloaded hnative)

theorem answers_transcodeShaders (ha : a.Compiles native) (b : Backend) {shaders : List Shader}
    (hshaders : ∀ s ∈ shaders, isBounded s ∧ s.source.isFile = false) {fresh : TranscodeCache}
    (hfresh : fresh.Sound native) (state : σ) :
    Answers native (a.transcodeShaders b shaders fresh state).1 (shaders.mapM (native b)) := by
  -- the cache of fresh shaders and the state change from shader to shader
  induction shaders generalizing fresh state with
  | nil => exact .ok [] hfresh
  | cons s rest ih =>
    obtain ⟨hs, hloaded⟩ := hshaders s List.mem_cons_self
    have hfirst := answers_transcode ha b hs hloaded hfresh state
    rw [List.mapM_cons, transcodeShaders]
    generalize a.transcode b s fresh state = result at hfirst ⊢
    obtain ⟨answer, next⟩ := result
    generalize native b s = compiled at hfirst ⊢
    cases hfirst with
    | error e => exact .error e
    | ok compiled hfresh =>
      have hrest := ih (fun t ht => hshaders t (List.mem_cons_of_mem _ ht)) hfresh next
      simp only
      generalize a.transcodeShaders b rest _ next = result at hrest ⊢
      obtain ⟨answer, last⟩ := result
      generalize rest.mapM (native b) = others at hrest ⊢
      cases hrest with
      | error e => exact .error e
      | ok others hfresh => exact .ok (compiled :: others) hfresh

/-- The code of shaders on several backends. -/
def compileAll (native : Native) (shaders : List Shader) (backends : List Backend) :
    Except ArchiveError (List BackendShaders) :=
  backends.mapM fun b => (shaders.mapM (native b)).map (BackendShaders.mk b)

theorem compileAll_cons (shaders : List Shader) (b : Backend) (rest : List Backend) :
    compileAll native shaders (b :: rest) = do
      let compiled ← (shaders.mapM (native b)).map (BackendShaders.mk b)
      let others ← compileAll native shaders rest
      return compiled :: others := List.mapM_cons

theorem answers_transcodeAll (ha : a.Compiles native) {shaders : List Shader}
    (hshaders : ∀ s ∈ shaders, isBounded s ∧ s.source.isFile = false) (backends : List Backend)
    {fresh : TranscodeCache} (hfresh : fresh.Sound native) (state : σ) :
    Answers native (a.transcodeAll shaders backends fresh state).1
      (compileAll native shaders backends) := by
  induction backends generalizing fresh state with
  | nil => exact .ok [] hfresh
  | cons b rest ih =>
    have hfirst := answers_transcodeShaders ha b hshaders hfresh state
    rw [compileAll_cons, transcodeAll]
    generalize a.transcodeShaders b shaders fresh state = result at hfirst ⊢
    obtain ⟨answer, next⟩ := result
    generalize shaders.mapM (native b) = compiled at hfirst ⊢
    cases hfirst with
    | error e => exact .error e
    | ok compiled hfresh =>
      have hrest := ih hfresh next
      simp only
      generalize a.transcodeAll shaders rest _ next = result at hrest ⊢
      obtain ⟨answer, last⟩ := result
      generalize compileAll native shaders rest = others at hrest ⊢
      cases hrest with
      | error e => exact .error e
      | ok others hfresh => exact .ok (⟨b, compiled⟩ :: others) hfresh

/-! ## What a request adds -/

/-- A pipeline that is to be archived, compiled to the given native code for all its backends, and
whether it takes the place of an archived one. -/
def planShaders (native : Native) (c : Contents) (p : Pipeline) (backends : BackendSet) :
    Except ArchiveError (Option (Bool × List BackendShaders)) :=
  match preparePipeline c p backends with
  | .error e => .error e
  | .ok none => .ok none
  | .ok (some (backends, isExtension)) =>
      (compileAll native p.shaders backends.toList).map fun shaders => some (isExtension, shaders)

/-- What a pipeline adds with the given native code, if it is not archived for all its backends. -/
def planPipeline (native : Native) (c : Contents) (p : Pipeline) (backends : BackendSet) :
    Except ArchiveError (Option Staging) :=
  match planShaders native c p backends with
  | .error e => .error e
  | .ok none => .ok none
  | .ok (some (isExtension, shaders)) => (stagePipeline c p isExtension shaders).map some

/-- A pipeline is compiled as planned, and what it adds to the cache is sound. -/
inductive CompilesTo (native : Native) : Except ArchiveError (Option CompiledPipeline) →
    Except ArchiveError (Option (Bool × List BackendShaders)) → Prop where
  | error (e : ArchiveError) : CompilesTo native (.error e) (.error e)
  | none : CompilesTo native (.ok none) (.ok none)
  | some (isExtension : Bool) (shaders : List BackendShaders) {fresh : TranscodeCache} :
      fresh.Sound native →
      CompilesTo native (.ok (some ⟨isExtension, shaders, fresh⟩))
        (.ok (some (isExtension, shaders)))

theorem preparePipeline_eq_ok_iff {c : Contents} {p : Pipeline} {backends : BackendSet}
    {pending : Option (BackendSet × Bool)} : preparePipeline c p backends = .ok pending ↔
      p.check = .ok () ∧ backends.isEmpty = false ∧ pendingBackends c p backends = .ok pending := by
  have hcheck : p.check.mapError ArchiveError.description = .ok () ↔ p.check = .ok () :=
    mapError_eq_ok_iff
  rw [preparePipeline, bind_eq_ok_iff]
  cases hempty : backends.isEmpty with
  | true =>
    refine iff_of_false ?_ (by simp)
    rintro ⟨_, -, h⟩
    cases h
  | false => exact ⟨fun ⟨⟨⟩, h, hpending⟩ => ⟨hcheck.1 h, rfl, hpending⟩,
      fun ⟨h, _, hpending⟩ => ⟨⟨⟩, hcheck.2 h, hpending⟩⟩

/-- The shaders of a pipeline that is to be compiled can be counted and are loaded. -/
theorem loaded_of_prepare {c : Contents} {p : Pipeline} (hp : isBounded p) {backends : BackendSet}
    {pending : Option (BackendSet × Bool)} (h : preparePipeline c p backends = .ok pending) :
    ∀ shader ∈ p.shaders, isBounded shader ∧ shader.source.isFile = false := by
  obtain ⟨hcheck, -⟩ := preparePipeline_eq_ok_iff.1 h
  intro shader hshader
  exact ⟨(isBounded_list.1 (Pipeline.isBounded_iff.1 hp).2).2 shader hshader,
    (Pipeline.check_spec hcheck).1 shader hshader⟩

theorem compilesTo_compilePipeline (ha : a.Compiles native) {p : Pipeline} (hp : isBounded p)
    (backends : BackendSet) (state : σ) :
    CompilesTo native (a.compilePipeline p backends state).1
      (planShaders native a.contents p backends) := by
  rw [planShaders, compilePipeline]
  cases hprepare : preparePipeline a.contents p backends with
  | error e => exact .error e
  | ok pending =>
    cases pending with
    | none => exact .none
    | some pending =>
      obtain ⟨pending, isExtension⟩ := pending
      have hcompiled := answers_transcodeAll ha (loaded_of_prepare hp hprepare) pending.toList
        TranscodeCache.Sound.empty state
      simp only
      generalize a.transcodeAll p.shaders pending.toList .empty state = result at hcompiled ⊢
      obtain ⟨result, next⟩ := result
      generalize compileAll native p.shaders pending.toList = compiled at hcompiled ⊢
      cases hcompiled with
      | error e => exact .error e
      | ok shaders hfresh => exact .some isExtension shaders hfresh

end Archiver

instance : Bounded Request where
  isBounded
    | .pipeline p _ => isBounded p
    | .signature signature _ => isBounded signature
    | .renderPass pass => isBounded pass

/-- What a request adds with the given native code. -/
def Request.plan (native : Native) (c : Contents) : Request → Except ArchiveError (Option Staging)
  | .pipeline p backends => Archiver.planPipeline native c p backends
  | .signature s backends => Archiver.prepareSignature c s backends
  | .renderPass pass => (Archiver.prepareRenderPass c pass).map some

/-- The contents with what is added, if anything is. -/
def Contents.add (c : Contents) : Option Staging → Contents
  | none => c
  | some staging => c.commit staging

namespace Session

variable {native : Native}

/-- What the caller of a request is told. -/
def answer (s : Session σ) : Request → Except ArchiveError Unit
  | .pipeline p backends => (s.archiver.addPipeline p backends s.state).1
  | .signature signature backends => (s.archiver.addSignature signature backends).1
  | .renderPass pass => (s.archiver.addRenderPass pass).1

/-- What a request does to a session: it fails as planned, and changes nothing that is archived or
cached, or it adds what is planned. -/
inductive Follows (s : Session σ) (r : Request) : Except ArchiveError (Option Staging) → Prop where
  | error {e : ArchiveError} : s.answer r = .error e → (s.perform r).archiver = s.archiver →
      Follows s r (.error e)
  | ok {staging : Option Staging} : s.answer r = .ok () →
      (s.perform r).contents = s.contents.add staging → Follows s r (.ok staging)

variable {s : Session σ}

theorem follows_pipeline (hs : s.archiver.Compiles native) {p : Pipeline} (hp : isBounded p)
    (backends : BackendSet) :
    s.Follows (.pipeline p backends) (Archiver.planPipeline native s.contents p backends) ∧
      (s.perform (.pipeline p backends)).archiver.Compiles native := by
  have hanswer : s.answer (.pipeline p backends) =
    (s.archiver.addPipeline p backends s.state).1 := rfl
  have hperform : (s.perform (.pipeline p backends)).archiver =
    (s.archiver.addPipeline p backends s.state).2.1 := rfl
  have hcompiled := Archiver.compilesTo_compilePipeline hs hp backends s.state
  rw [Archiver.planPipeline]
  simp only [Archiver.addPipeline] at hanswer hperform
  -- compilation ends as planned; what is left to decide is whether the outcome can be staged
  generalize s.archiver.compilePipeline p backends s.state = result
    at hcompiled hanswer hperform
  obtain ⟨result, next⟩ := result
  generalize Archiver.planShaders native s.contents p backends = planned at hcompiled ⊢
  cases hcompiled with
  | error e => exact ⟨.error hanswer hperform, hperform ▸ hs⟩
  | none => exact ⟨.ok hanswer (congrArg Archiver.contents hperform), hperform ▸ hs⟩
  | some isExtension shaders hfresh =>
    simp only at hanswer hperform ⊢
    cases hstaged : Archiver.stagePipeline s.contents p isExtension shaders with
    | error e =>
      rw [hstaged] at hanswer hperform
      exact ⟨.error hanswer hperform, hperform ▸ hs⟩
    | ok staging =>
      rw [hstaged] at hanswer hperform
      refine ⟨.ok hanswer (congrArg Archiver.contents hperform), ?_⟩
      rw [hperform]
      exact ⟨hs.compile, hs.names, hs.cache.append hfresh⟩

/-- A session follows the plan, and its archiver goes on compiling to the same code. -/
theorem follows_plan (hs : s.archiver.Compiles native) {r : Request} (hr : isBounded r) :
    s.Follows r (r.plan native s.contents) ∧ (s.perform r).archiver.Compiles native := by
  cases r with
  | pipeline p backends => exact follows_pipeline hs hr backends
  | signature signature backends =>
    have hanswer : s.answer (.signature signature backends) =
      (s.archiver.addSignature signature backends).1 := rfl
    have hperform : (s.perform (.signature signature backends)).archiver =
      (s.archiver.addSignature signature backends).2 := rfl
    simp only [Archiver.addSignature] at hanswer hperform
    rw [Request.plan]
    cases hprepare : Archiver.prepareSignature s.contents signature backends with
    | error e =>
      rw [hprepare] at hanswer hperform
      exact ⟨.error hanswer hperform, hperform ▸ hs⟩
    | ok staging =>
      rw [hprepare] at hanswer hperform
      cases staging with
      | none => exact ⟨.ok hanswer (congrArg Archiver.contents hperform), hperform ▸ hs⟩
      | some staging =>
        refine ⟨.ok hanswer (congrArg Archiver.contents hperform), ?_⟩
        rw [hperform]
        exact ⟨hs.compile, hs.names, hs.cache⟩
  | renderPass pass =>
    have hanswer : s.answer (.renderPass pass) = (s.archiver.addRenderPass pass).1 := rfl
    have hperform : (s.perform (.renderPass pass)).archiver =
      (s.archiver.addRenderPass pass).2 := rfl
    simp only [Archiver.addRenderPass] at hanswer hperform
    rw [Request.plan]
    cases hprepare : Archiver.prepareRenderPass s.contents pass with
    | error e =>
      rw [hprepare] at hanswer hperform
      exact ⟨.error hanswer hperform, hperform ▸ hs⟩
    | ok staging =>
      rw [hprepare] at hanswer hperform
      refine ⟨.ok hanswer (congrArg Archiver.contents hperform), ?_⟩
      rw [hperform]
      exact ⟨hs.compile, hs.names, hs.cache⟩

/-! ## Runs -/

/-- A property of every request of a run and of the session that it is made in. -/
def Throughout (holds : Session σ → Request → Prop) (s : Session σ) : List Request → Prop
  | [] => True
  | r :: rest => holds s r ∧ (s.perform r).Throughout holds rest

instance decidableThroughout {holds : Session σ → Request → Prop}
    [∀ s r, Decidable (holds s r)] (s : Session σ) :
    (requests : List Request) → Decidable (s.Throughout holds requests)
  | [] => .isTrue trivial
  | r :: rest =>
      haveI := @decidableThroughout holds _ (s.perform r) rest
      inferInstanceAs (Decidable (_ ∧ _))

/-- A request is answered with success. -/
def Succeeds (s : Session σ) (r : Request) : Prop := s.answer r = .ok ()

instance (s : Session σ) (r : Request) : Decidable (s.Succeeds r) :=
  inferInstanceAs (Decidable (_ = _))

/-- A run succeeds throughout exactly if the plans of its requests do one after another, and it ends
with the contents that they lead to. -/
theorem run_succeeds_iff (hs : s.archiver.Compiles native) {requests : List Request}
    (hbounded : ∀ r ∈ requests, isBounded r) {c : Contents} :
    s.Throughout Succeeds requests ∧ (s.run requests).contents = c ↔
      requests.foldlM (fun c r => (r.plan native c).map c.add) s.contents = .ok c := by
  induction requests generalizing s with
  | nil => exact ⟨fun h => congrArg Except.ok h.2, fun h => ⟨trivial, Except.ok.inj h⟩⟩
  | cons r rest ih =>
    obtain ⟨hr, hrest⟩ := List.forall_mem_cons.1 hbounded
    obtain ⟨hfollows, hnext⟩ := follows_plan hs hr
    rw [List.foldlM_cons]
    generalize r.plan native s.contents = planned at hfollows ⊢
    cases hfollows with
    | error hanswer _ =>
      refine iff_of_false (fun h => ?_) (by rintro ⟨⟩)
      cases hanswer.symm.trans h.1.1
    | ok hanswer hcontents =>
      -- the rest of the run starts with the contents that the plan led to
      change _ ↔ rest.foldlM _ _ = _
      rw [← hcontents, ← ih hnext hrest]
      exact ⟨fun h => ⟨h.1.2, h.2⟩, fun h => ⟨⟨hanswer, h.1⟩, h.2⟩⟩

/-- The compilers whose code is empty are pure. -/
theorem isPure_metalRegistry : metalRegistry.IsPure := by
  have hpure : emptyTranscoder.IsPure := by
    refine ⟨fun {s s'} b config state state' h => ?_, fun _ _ _ _ => rfl⟩
    have hentry : s.entryPoint = s'.entryPoint := (congrArg Shader.entryPoint h :)
    simp only [emptyTranscoder, Transcoder.stateless, hentry, Shader.stage_eq h]
  refine Registry.isPure_of_routes ?_
  simp [metalRegistry, Registry.insert, Registry.empty, hpure]

end Session

end PipelineArchive
