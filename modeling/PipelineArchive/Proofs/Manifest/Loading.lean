import Mathlib.Data.List.Forall2
import PipelineArchive.Manifest
import PipelineArchive.Proofs.Decoding
import PipelineArchive.Proofs.Results

/-!
# Loading the shaders of a manifest

A manifest is loaded shader by shader, and the loader is asked for the file of each shader that
refers to one. `ShaderSource.Loads` and `ShaderSource.Fails` say what becomes of one source, in
terms of the encodings of texts and words and not of their decoders. A part of a manifest is gone
through in the order in which its shaders are archived (`GoesThrough`): either all of them are
loaded, or the first one that cannot be ends it. This is kept from the shaders up to the manifest
by the rules for one computation after another and for lists. So a loaded manifest differs from the
one that was given in the sources that were files, and in nothing else (`loaded_spec`).
-/

set_option autoImplicit false

namespace PipelineArchive

open Results

/-! ## Sources -/

namespace ShaderSource

variable {load : String → Except String Bytes}

/-- What is left of a source: an inline one as it is, or the contents of its file in its
language. -/
inductive Loads (load : String → Except String Bytes) : ShaderSource → ShaderSource → Prop
  | inline {source : ShaderSource} : source.isFile = false → Loads load source source
  | text {language : InputLanguage} {path text : String} {loaded : ShaderSource} :
      load path = .ok (Bytes.ofText text) → loaded.language = language →
      loaded.text? = some text → Loads load (.file language path) loaded
  | words {path : String} {words : List UInt32} : load path = .ok (Bytes.ofWords words) →
      Loads load (.file .spirv path) (.spirv words)

/-- Why a source is not loaded: its file is not read, or is neither whole words of SPIR-V nor a
text. -/
inductive Fails (load : String → Except String Bytes) : ShaderSource → LoadFault → Prop
  | unreadable {language : InputLanguage} {path message : String} : load path = .error message →
      Fails load (.file language path) (.unreadable message)
  | partialWord {path : String} {bytes : Bytes} : load path = .ok bytes → bytes.length % 4 ≠ 0 →
      Fails load (.file .spirv path) (.content (.partialWord path))
  | badText {language : InputLanguage} {path : String} {bytes : Bytes} {error : Utf8.Error} :
      language ≠ .spirv → load path = .ok bytes → (∀ text, Bytes.ofText text ≠ bytes) →
      Utf8.decode? bytes = .error error →
      Fails load (.file language path) (.content (.badText path error))

/-- The path of the file that a source refers to. -/
def path? : ShaderSource → Option String
  | .file _ path => some path
  | _ => none

theorem isFile_of_text? {source : ShaderSource} {text : String} (h : source.text? = some text) :
    source.isFile = false := by
  cases source with
  | file _ _ => cases h
  | hlsl _ | glsl _ | glslVerbatim _ | spirv _ => rfl

/-- In every language of texts there is an inline source with a text. -/
theorem exists_text {language : InputLanguage} (h : language ≠ .spirv) (text : String) :
    ∃ source : ShaderSource, source.language = language ∧ source.text? = some text := by
  cases language with
  | hlsl => exact ⟨.hlsl text, rfl, rfl⟩
  | glsl => exact ⟨.glsl text, rfl, rfl⟩
  | glslVerbatim => exact ⟨.glslVerbatim text, rfl, rfl⟩
  | spirv => exact (h rfl).elim

theorem isFile_of_loads {source loaded : ShaderSource} (h : source.Loads load loaded) :
    loaded.isFile = false := by
  cases h with
  | inline hinline => exact hinline
  | text _ _ htext => exact isFile_of_text? htext
  | words _ => rfl

theorem eq_of_loads_inline {source loaded : ShaderSource} (h : source.Loads load loaded)
    (hinline : source.isFile = false) : loaded = source := by
  cases h with
  | inline _ => rfl
  | text _ _ _ => cases hinline
  | words _ => cases hinline

/-- Bytes are a text, or they are decoded with an error and are none. -/
theorem text_or_bad (bytes : Bytes) : (∃ text, bytes = Bytes.ofText text) ∨
    ∃ error, Utf8.decode? bytes = .error error ∧ ∀ text, Bytes.ofText text ≠ bytes := by
  cases hdecode : Utf8.decode? bytes with
  | ok text => exact .inl ⟨text, (Utf8.ofText_of_decode? hdecode).symm⟩
  | error error =>
    refine .inr ⟨error, rfl, ?_⟩
    rintro text rfl
    rw [Utf8.decode?_ofText] at hdecode
    cases hdecode

/-- A source is loaded, or there is a reason why it is not. -/
theorem loads_or_fails (load : String → Except String Bytes) (source : ShaderSource) :
    (∃ loaded, source.Loads load loaded) ∨ ∃ fault, source.Fails load fault := by
  by_cases hinline : source.isFile = false
  · exact .inl ⟨source, .inline hinline⟩
  · cases source with
    | hlsl _ | glsl _ | glslVerbatim _ | spirv _ => exact (hinline rfl).elim
    | file language path =>
      cases hload : load path with
      | error message => exact .inr ⟨_, .unreadable hload⟩
      | ok bytes =>
        by_cases hlanguage : language = .spirv
        · subst hlanguage
          by_cases hwords : bytes.length % 4 = 0
          · rw [← Bytes.ofWords_toWords hwords] at hload
            exact .inl ⟨_, .words hload⟩
          · exact .inr ⟨_, .partialWord hload hwords⟩
        · obtain ⟨text, rfl⟩ | ⟨error, herror, hbad⟩ := text_or_bad bytes
          · obtain ⟨loaded, hloaded, htext⟩ := exists_text hlanguage text
            exact .inl ⟨loaded, .text hload hloaded htext⟩
          · exact .inr ⟨_, .badText hlanguage hload hbad herror⟩

/-- A text is a source in its language. -/
theorem ofContent_text {path text : String} {loaded : ShaderSource}
    (h : loaded.text? = some text) :
    ofContent loaded.language path (Bytes.ofText text) = .ok loaded := by
  cases loaded with
  | hlsl _ | glsl _ | glslVerbatim _ =>
    cases h
    simp only [language, ofContent, Utf8.decode?_ofText]
    rfl
  | spirv _ | file _ _ => cases h

theorem ofContent_words (path : String) (words : List UInt32) :
    ofContent .spirv path (Bytes.ofWords words) = .ok (.spirv words) := by
  simp only [ofContent, Encode.length_ofWords, Nat.mul_mod_right, if_true, Bytes.toWords_ofWords]

theorem ofContent_badText {language : InputLanguage} (hlanguage : language ≠ .spirv) {path : String}
    {bytes : Bytes} {error : Utf8.Error} (h : Utf8.decode? bytes = .error error) :
    ofContent language path bytes = .error (.badText path error) := by
  cases language with
  | spirv => exact (hlanguage rfl).elim
  | hlsl | glsl | glslVerbatim =>
    simp only [ofContent, h]
    rfl

end ShaderSource

/-! ## Recorded computations -/

/-- A loader that keeps a record of the paths that it is asked for, beside its answers. -/
def recording (load : String → Except String Bytes) (path : String) :
    StateM (List String) (Except String Bytes) :=
  fun asked => (load path, asked ++ [path])

section

variable {ε α β : Type}

/-- A computation asks for the given paths, one after another, and then has a result. -/
def Asks (x : ExceptT ε (StateM (List String)) α) (paths : List String) (result : Except ε α) :
    Prop :=
  ∀ asked, x.run.run asked = (result, asked ++ paths)

theorem asks_pure (a : α) : Asks (pure a : ExceptT ε (StateM (List String)) α) [] (.ok a) :=
  fun asked => by rw [List.append_nil]; rfl

variable {x : ExceptT ε (StateM (List String)) α} {next : α → ExceptT ε (StateM (List String)) β}
  {paths more : List String}

theorem Asks.bind {a : α} {result : Except ε β} (h : Asks x paths (.ok a))
    (hnext : Asks (next a) more result) : Asks (x >>= next) (paths ++ more) result := by
  intro asked
  rw [ExceptT.run_bind, StateT.run_bind, h asked, ← List.append_assoc]
  exact hnext (asked ++ paths)

theorem Asks.bind_error {e : ε} (h : Asks x paths (.error e)) :
    Asks (x >>= next) paths (.error e) := by
  intro asked
  rw [ExceptT.run_bind, StateT.run_bind, h asked]
  rfl

/-- What a computation asks for and has as its result is determined. -/
theorem Asks.unique {result other : Except ε α} (h : Asks x paths result)
    (hother : Asks x more other) : paths = more ∧ result = other := by
  have heq := (h []).symm.trans (hother [])
  rw [Prod.mk.injEq] at heq
  exact ⟨heq.2, heq.1⟩

end

namespace ShaderSource

variable {load : String → Except String Bytes} {source loaded : ShaderSource} {fault : LoadFault}

/-- A file is asked for once, and its contents are the source. -/
theorem asks_resolve_file (load : String → Except String Bytes) (language : InputLanguage)
    (path : String) :
    Asks (.mk ((file language path).resolve (recording load))) [path]
      (((load path).mapError .unreadable).bind fun bytes =>
        (ofContent language path bytes).mapError .content) := by
  intro asked
  show StateT.run (recording load path >>= _) asked = _
  have hload : StateT.run (recording load path) asked = (load path, asked ++ [path]) := rfl
  rw [StateT.run_bind, hload]
  cases load path <;> rfl

theorem asks_resolve_of_loads (h : source.Loads load loaded) :
    Asks (.mk (source.resolve (recording load))) source.path?.toList (.ok loaded) := by
  cases h with
  | inline hinline =>
    cases source with
    | hlsl _ | glsl _ | glslVerbatim _ | spirv _ => exact asks_pure _
    | file _ _ => cases hinline
  | @text language path text _ hload hlanguage htext =>
    subst hlanguage
    have hfile := asks_resolve_file load loaded.language path
    rw [hload] at hfile
    simp only [Except.mapError, Except.bind, ofContent_text htext] at hfile
    exact hfile
  | @words path words hload =>
    have hfile := asks_resolve_file load .spirv path
    rw [hload] at hfile
    simp only [Except.mapError, Except.bind, ofContent_words] at hfile
    exact hfile

theorem asks_resolve_of_fails (h : source.Fails load fault) :
    Asks (.mk (source.resolve (recording load))) source.path?.toList (.error fault) := by
  cases h with
  | @unreadable language path message hload =>
    have hfile := asks_resolve_file load language path
    rw [hload] at hfile
    exact hfile
  | @partialWord path bytes hload hlength =>
    have hfile := asks_resolve_file load .spirv path
    rw [hload] at hfile
    simp only [Except.mapError, Except.bind, ofContent, if_neg hlength] at hfile
    exact hfile
  | @badText language path bytes error hlanguage hload _ herror =>
    have hfile := asks_resolve_file load language path
    rw [hload] at hfile
    simp only [Except.mapError, Except.bind, ofContent_badText hlanguage herror] at hfile
    exact hfile

theorem not_fails_of_loads (h : source.Loads load loaded) : ¬source.Fails load fault := by
  intro hfails
  cases ((asks_resolve_of_loads h).unique (asks_resolve_of_fails hfails)).2

end ShaderSource

/-! ## Shaders one after another -/

/-- A shader with its name of a pipeline. -/
abbrev NamedShader := String × Shader

/-- The files of shaders, in their order. -/
def filesOf (shaders : List NamedShader) : List String :=
  shaders.flatMap fun named => named.2.source.path?.toList

theorem filesOf_inline {shaders : List NamedShader}
    (h : ∀ named ∈ shaders, named.2.source.isFile = false) : filesOf shaders = [] := by
  refine List.flatMap_eq_nil_iff.2 fun named hnamed => ?_
  have hinline := h named hnamed
  cases hsource : named.2.source with
  | file _ _ =>
    rw [hsource] at hinline
    cases hinline
  | hlsl _ | glsl _ | glslVerbatim _ | spirv _ => rfl

/-- A shader whose source is loaded, and which is otherwise the same. -/
def Shader.Loads (load : String → Except String Bytes) (shader loaded : Shader) : Prop :=
  shader.source.Loads load loaded.source ∧ loaded = { shader with source := loaded.source }

/-- The first shader that is not loaded, with those before it and the reason. -/
structure FirstFault (load : String → Except String Bytes) (shaders before : List NamedShader)
    (failing : NamedShader) (fault : LoadFault) : Prop where
  place : ∃ after, shaders = before ++ failing :: after
  loads : ∀ named ∈ before, ∃ loaded, named.2.source.Loads load loaded
  fails : failing.2.source.Fails load fault

theorem FirstFault.mem {load : String → Except String Bytes} {shaders before : List NamedShader}
    {failing : NamedShader} {fault : LoadFault} (h : FirstFault load shaders before failing fault) :
    failing ∈ shaders := by
  obtain ⟨after, rfl⟩ := h.place
  exact List.mem_append_right before List.mem_cons_self

/-- All shaders are loaded, or there is a first one that is not. -/
theorem loads_or_firstFault (load : String → Except String Bytes) (shaders : List NamedShader) :
    (∀ named ∈ shaders, ∃ loaded, named.2.source.Loads load loaded) ∨
      ∃ before failing fault, FirstFault load shaders before failing fault := by
  induction shaders with
  | nil => exact .inl (List.forall_mem_nil _)
  | cons named rest ih =>
    obtain hloads | ⟨fault, hfails⟩ := ShaderSource.loads_or_fails load named.2.source
    · obtain hrest | ⟨before, failing, fault, ⟨after, rfl⟩, hbefore, hfails⟩ := ih
      · exact .inl (List.forall_mem_cons.2 ⟨hloads, hrest⟩)
      · exact .inr ⟨named :: before, failing, fault, ⟨after, rfl⟩,
          List.forall_mem_cons.2 ⟨hloads, hbefore⟩, hfails⟩
    · exact .inr ⟨[], named, fault, ⟨rest, rfl⟩, List.forall_mem_nil _, hfails⟩

/-- All shaders are loaded, or the first one that cannot be ends the computation. The files are
asked for in the order of the shaders, up to that one. -/
structure GoesThrough {α : Type} (load : String → Except String Bytes)
    (x : ExceptT ManifestError (StateM (List String)) α) (shaders : List NamedShader)
    (Gives : α → Prop) : Prop where
  loads : (∀ named ∈ shaders, ∃ loaded, named.2.source.Loads load loaded) →
    ∃ a, Gives a ∧ Asks x (filesOf shaders) (.ok a)
  fails : ∀ {before : List NamedShader} {failing : NamedShader} {fault : LoadFault},
    FirstFault load shaders before failing fault → Asks x (filesOf (before ++ [failing]))
      (.error (.shaderFile failing.1 failing.2.name fault.message))

namespace GoesThrough

variable {α β : Type} {load : String → Except String Bytes}
  {x : ExceptT ManifestError (StateM (List String)) α}
  {next : α → ExceptT ManifestError (StateM (List String)) β}
  {shaders more : List NamedShader} {Gives : α → Prop} {Ends : β → Prop}

theorem pure {a : α} (h : Gives a) : GoesThrough load (pure a) [] Gives where
  loads _ := ⟨a, h, asks_pure a⟩
  fails hfault := by
    obtain ⟨after, hsplit⟩ := hfault.place
    exact (List.append_ne_nil_of_right_ne_nil _ (List.cons_ne_nil _ _) hsplit.symm).elim

theorem bind (h : GoesThrough load x shaders Gives)
    (hnext : ∀ a, Gives a → GoesThrough load (next a) more Ends) :
    GoesThrough load (x >>= next) (shaders ++ more) Ends where
  loads hall := by
    obtain ⟨hfirst, hmore⟩ := List.forall_mem_append.1 hall
    obtain ⟨a, ha, hasks⟩ := h.loads hfirst
    obtain ⟨b, hb, hends⟩ := (hnext a ha).loads hmore
    refine ⟨b, hb, ?_⟩
    rw [filesOf, List.flatMap_append]
    exact hasks.bind hends
  fails {before failing fault} hfault := by
    obtain ⟨⟨after, hsplit⟩, hbefore, hfails⟩ := hfault
    -- the shader that fails is one of the first computation, or all of those are loaded
    obtain ⟨between, rfl, hmore⟩ | ⟨rest, hshaders, hrest⟩ := List.append_eq_append_iff.1 hsplit
    · obtain ⟨hfirst, hbetween⟩ := List.forall_mem_append.1 hbefore
      obtain ⟨a, ha, hasks⟩ := h.loads hfirst
      rw [List.append_assoc, filesOf, List.flatMap_append]
      exact hasks.bind ((hnext a ha).fails ⟨⟨after, hmore⟩, hbetween, hfails⟩)
    · cases rest with
      | nil =>
        rw [List.append_nil] at hshaders
        subst hshaders
        have hmore : more = [] ++ failing :: after := hrest.symm
        obtain ⟨a, ha, hasks⟩ := h.loads hbefore
        rw [filesOf, List.flatMap_append]
        exact hasks.bind ((hnext a ha).fails ⟨⟨after, hmore⟩, List.forall_mem_nil _, hfails⟩)
      | cons named rest =>
        rw [List.cons_append, List.cons.injEq] at hrest
        obtain ⟨rfl, -⟩ := hrest
        exact (h.fails ⟨⟨rest, hshaders⟩, hbefore, hfails⟩).bind_error

theorem bind_pure {f : α → β} (h : GoesThrough load x shaders Gives)
    (hf : ∀ a, Gives a → Ends (f a)) :
    GoesThrough load (x >>= fun a => Pure.pure (f a)) shaders Ends := by
  rw [← List.append_nil shaders]
  exact h.bind fun a ha => .pure (hf a ha)

/-- A computation with a result has gone through all shaders. -/
theorem of_ok (h : GoesThrough load x shaders Gives) {a : α} {asked files : List String}
    (hrun : x.run.run asked = (.ok a, files)) : Gives a ∧ files = asked ++ filesOf shaders := by
  obtain hloads | ⟨before, failing, fault, hfault⟩ := loads_or_firstFault load shaders
  · obtain ⟨b, hb, hasks⟩ := h.loads hloads
    rw [hasks asked, Prod.mk.injEq, Except.ok.injEq] at hrun
    obtain ⟨rfl, rfl⟩ := hrun
    exact ⟨hb, rfl⟩
  · rw [h.fails hfault asked, Prod.mk.injEq] at hrun
    cases hrun.1

/-- A computation fails with its first fault. -/
theorem error_iff (h : GoesThrough load x shaders Gives) {error : ManifestError}
    {asked files : List String} :
    x.run.run asked = (.error error, files) ↔
      ∃ before failing fault, FirstFault load shaders before failing fault ∧
        error = .shaderFile failing.1 failing.2.name fault.message ∧
        files = asked ++ filesOf (before ++ [failing]) := by
  constructor
  · intro hrun
    obtain hloads | ⟨before, failing, fault, hfault⟩ := loads_or_firstFault load shaders
    · obtain ⟨b, -, hasks⟩ := h.loads hloads
      rw [hasks asked, Prod.mk.injEq] at hrun
      cases hrun.1
    · rw [h.fails hfault asked, Prod.mk.injEq, Except.error.injEq] at hrun
      exact ⟨before, failing, fault, hfault, hrun.1.symm, hrun.2.symm⟩
  · rintro ⟨before, failing, fault, hfault, rfl, rfl⟩
    exact h.fails hfault asked

variable {γ : Type} {f : γ → ExceptT ManifestError (StateM (List String)) β}
  {shadersOf : γ → List NamedShader} {Related : γ → β → Prop}

theorem mapM {xs : List γ} (h : ∀ c ∈ xs, GoesThrough load (f c) (shadersOf c) (Related c)) :
    GoesThrough load (xs.mapM f) (xs.flatMap shadersOf) (List.Forall₂ Related xs) := by
  induction xs with
  | nil => exact .pure .nil
  | cons c rest ih =>
    obtain ⟨hc, hrest⟩ := List.forall_mem_cons.1 h
    rw [List.mapM_cons, List.flatMap_cons]
    exact hc.bind fun b hb => (ih hrest).bind_pure fun bs hbs => .cons hb hbs

theorem option_mapM {o : Option γ} (h : ∀ c, GoesThrough load (f c) (shadersOf c) (Related c)) :
    GoesThrough load (o.mapM f) (o.toList.flatMap shadersOf) (Option.Rel Related o) := by
  cases o with
  | none => exact .pure .none
  | some c =>
    rw [Option.mapM_some, map_eq_pure_bind, Option.toList_some, List.flatMap_singleton]
    exact (h c).bind_pure fun b hb => .some hb

end GoesThrough

/-! ## Parts of a manifest -/

/-- What becomes of a shader is what becomes of its source. -/
theorem Shader.asks_resolve {load : String → Except String Bytes} {shader : Shader}
    {files : List String} {result : Except LoadFault ShaderSource} (pipeline : String)
    (h : Asks (.mk (shader.source.resolve (recording load))) files result) :
    Asks (shader.resolve (recording load) pipeline) files
      ((result.mapError fun fault => .shaderFile pipeline shader.name fault.message).map
        fun source => { shader with source }) := by
  intro asked
  show StateT.run (shader.source.resolve (recording load) >>= _) asked = _
  rw [StateT.run_bind, show StateT.run (shader.source.resolve (recording load)) asked = _ from
    h asked]
  cases result <;> rfl

/-- A shader is loaded, or its failure names it and its pipeline. -/
theorem Shader.resolve_goesThrough (load : String → Except String Bytes) (pipeline : String)
    (shader : Shader) :
    GoesThrough load (shader.resolve (recording load) pipeline) [(pipeline, shader)]
      (shader.Loads load) where
  loads hall := by
    obtain ⟨loaded, hloaded⟩ := hall _ List.mem_cons_self
    have hasks := Shader.asks_resolve pipeline (ShaderSource.asks_resolve_of_loads hloaded)
    rw [filesOf, List.flatMap_singleton]
    exact ⟨{ shader with source := loaded }, ⟨hloaded, rfl⟩, hasks⟩
  fails {before failing fault} hfault := by
    obtain ⟨⟨after, hsplit⟩, -, hfails⟩ := hfault
    -- the shader that fails is the only one
    obtain ⟨rfl, hfailing⟩ | ⟨rest, -, hnil⟩ := List.append_eq_cons_iff.1 hsplit.symm
    · injection hfailing with hfailing
      subst hfailing
      rw [List.nil_append, filesOf, List.flatMap_singleton]
      exact Shader.asks_resolve _ (ShaderSource.asks_resolve_of_fails hfails)
    · exact (List.append_ne_nil_of_right_ne_nil _ (List.cons_ne_nil _ _) hnil.symm).elim

/-- Slot by slot, the shaders of one pipeline are related to those of another. -/
def GraphicsShaders.Slotwise (R : Shader → Shader → Prop) (s s' : GraphicsShaders) : Prop :=
  List.Forall₂ (Option.Rel R) (s.slots.map (·.2)) (s'.slots.map (·.2))

/-- A kind of pipeline and the same kind with related shaders in the place of its own. -/
inductive PipelineKind.Replaced (R : Shader → Shader → Prop) : PipelineKind → PipelineKind → Prop
  | graphics {state : GraphicsState} {pass : Option RenderPass} {s s' : GraphicsShaders} :
      s.Slotwise R s' → Replaced R (.graphics state pass s) (.graphics state pass s')
  | compute {shader shader' : Shader} : R shader shader' →
      Replaced R (.compute shader) (.compute shader')
  | rayTracing {r : RayTracing} {shaders : List Shader} : List.Forall₂ R r.shaders shaders →
      Replaced R (.rayTracing r) (.rayTracing { r with shaders })
  | tile {shader shader' : Shader} {formats : List TextureFormat} {samples : UInt8} :
      R shader shader' → Replaced R (.tile shader formats samples) (.tile shader' formats samples)

/-- The shaders of a pipeline with its name, in archive order. -/
def Pipeline.named (p : Pipeline) : List NamedShader := p.shaders.map (p.name, ·)

/-- The shaders of all pipelines, in the order of the pipelines. -/
def Manifest.shaders (m : Manifest) : List NamedShader :=
  m.pipelines.flatMap fun entry => entry.pipeline.named

/-- A pipeline that is the same but for its shaders. -/
structure PipelineEntry.Replaced (R : Shader → Shader → Prop) (e e' : PipelineEntry) : Prop where
  backends : e'.backends = e.backends
  common : e'.pipeline.common = e.pipeline.common
  kind : e.pipeline.kind.Replaced R e'.pipeline.kind

/-- A manifest that is the same but for the shaders of its pipelines. -/
structure Manifest.Replaced (R : Shader → Shader → Prop) (m m' : Manifest) : Prop where
  config : m'.config = m.config
  signatures : m'.signatures = m.signatures
  renderPasses : m'.renderPasses = m.renderPasses
  pipelines : List.Forall₂ (PipelineEntry.Replaced R) m.pipelines m'.pipelines

variable {load : String → Except String Bytes}
  {f : Shader → ExceptT ManifestError (StateM (List String)) Shader}
  {name : String} {R : Shader → Shader → Prop}

theorem GraphicsShaders.mapShaders_goesThrough
    (hf : ∀ shader, GoesThrough load (f shader) [(name, shader)] (R shader))
    (s : GraphicsShaders) :
    GoesThrough load (s.mapShaders f) (s.filled.map fun x => (name, x.2)) (s.Slotwise R) := by
  have hfilled : (s.filled.map fun x => (name, x.2)) =
      s.slots.flatMap fun slot => slot.2.toList.flatMap fun shader => [(name, shader)] := by
    rw [filled, List.filterMap_eq_flatMap_toList, List.map_flatMap]
    refine List.flatMap_congr fun slot _ => ?_
    obtain ⟨stage, shader⟩ := slot
    cases shader <;> rfl
  rw [hfilled]
  have hslot (o : Option Shader) : GoesThrough load (o.mapM f)
      (o.toList.flatMap fun shader => [(name, shader)]) (Option.Rel R o) := .option_mapM hf
  exact (hslot s.vertex).bind fun vertex hvertex =>
    (hslot s.pixel).bind fun pixel hpixel =>
    (hslot s.geometry).bind fun geometry hgeometry =>
    (hslot s.hull).bind fun hull hhull =>
    (hslot s.domain).bind fun domain hdomain =>
    (hslot s.amplification).bind fun amplification hamplification =>
    (hslot s.mesh).bind fun mesh hmesh => .pure <|
      .cons hvertex <| .cons hpixel <| .cons hgeometry <| .cons hhull <| .cons hdomain <|
      .cons hamplification <| .cons hmesh .nil

theorem Pipeline.mapShaders_goesThrough
    (hf : ∀ shader, GoesThrough load (f shader) [(name, shader)] (R shader)) (p : Pipeline) :
    GoesThrough load (p.kind.mapShaders f) (p.shaders.map (name, ·)) (p.kind.Replaced R) := by
  obtain ⟨common, kind⟩ := p
  cases kind with
  | graphics state pass s =>
    rw [shaders, List.map_map]
    exact (GraphicsShaders.mapShaders_goesThrough hf s).bind_pure fun s' hs' => .graphics hs'
  | compute shader => exact (hf shader).bind_pure fun shader' hshader' => .compute hshader'
  | rayTracing r =>
    rw [List.map_eq_flatMap]
    exact (GoesThrough.mapM fun shader _ => hf shader).bind_pure fun shaders' hshaders' =>
      .rayTracing hshaders'
  | tile shader formats samples =>
    exact (hf shader).bind_pure fun shader' hshader' => .tile hshader'

theorem Manifest.resolveEntry_goesThrough (load : String → Except String Bytes)
    (entry : PipelineEntry) :
    GoesThrough load (resolveEntry (recording load) entry) entry.pipeline.named
      (entry.Replaced (Shader.Loads load)) := by
  have hkind := entry.pipeline.mapShaders_goesThrough
    (Shader.resolve_goesThrough load entry.pipeline.name)
  have hpipeline : GoesThrough load
      (entry.pipeline.mapShaders (Shader.resolve (recording load) entry.pipeline.name))
      entry.pipeline.named fun p => p.common = entry.pipeline.common ∧
        entry.pipeline.kind.Replaced (Shader.Loads load) p.kind :=
    hkind.bind_pure fun _ h => ⟨rfl, h⟩
  exact hpipeline.bind_pure fun _ h => ⟨rfl, h.1, h.2⟩

theorem Manifest.resolveFiles_goesThrough (load : String → Except String Bytes) (m : Manifest) :
    GoesThrough load (m.resolveFiles (recording load)) m.shaders (m.Replaced (Shader.Loads load)) :=
  (GoesThrough.mapM fun entry _ => resolveEntry_goesThrough load entry).bind_pure
    fun _ hentries => ⟨rfl, rfl, rfl, hentries⟩

/-! ## Loaded manifests -/

theorem GraphicsShaders.map_filled (s : GraphicsShaders) :
    s.filled.map (·.2) = (s.slots.map (·.2)).filterMap id := by
  rw [filled, List.filterMap_map, List.map_filterMap]
  refine List.filterMap_congr fun slot _ => ?_
  obtain ⟨stage, shader⟩ := slot
  cases shader <;> rfl

/-- The shaders of a pipeline are replaced in their order. -/
theorem PipelineEntry.Replaced.shaders {R : Shader → Shader → Prop} {e e' : PipelineEntry}
    (h : e.Replaced R e') : List.Forall₂ R e.pipeline.shaders e'.pipeline.shaders := by
  obtain ⟨⟨common, kind⟩, backends⟩ := e
  obtain ⟨⟨common', kind'⟩, backends'⟩ := e'
  cases h.kind with
  | graphics hslots =>
    simp only [Pipeline.shaders, GraphicsShaders.map_filled]
    exact List.rel_filterMap (fun _ _ h => h) hslots
  | compute hshader | tile hshader => exact .cons hshader .nil
  | rayTracing hshaders => exact hshaders

/-- No shader of a loaded manifest is a file. -/
theorem Manifest.Replaced.forall_inline {m m' : Manifest} (h : m.Replaced (Shader.Loads load) m') :
    ∀ named ∈ m'.shaders, named.2.source.isFile = false := by
  intro named hnamed
  obtain ⟨e', he', hnamed⟩ := List.mem_flatMap.1 hnamed
  obtain ⟨shader', hshader', rfl⟩ := List.mem_map.1 hnamed
  obtain ⟨e, -, he⟩ := Results.exists_of_mem_right h.pipelines he'
  obtain ⟨shader, -, hloads⟩ := Results.exists_of_mem_right he.shaders hshader'
  exact ShaderSource.isFile_of_loads hloads.1

theorem GraphicsShaders.eq_of_slots {s s' : GraphicsShaders}
    (h : s'.slots.map (·.2) = s.slots.map (·.2)) : s' = s := by
  cases s
  cases s'
  simp only [slots, List.map_cons, List.cons.injEq] at h
  obtain ⟨rfl, rfl, rfl, rfl, rfl, rfl, rfl, -⟩ := h
  rfl

theorem PipelineEntry.Replaced.eq {e e' : PipelineEntry} (h : e.Replaced R e')
    (heq : ∀ shader ∈ e.pipeline.shaders, ∀ shader', R shader shader' → shader' = shader) :
    e' = e := by
  obtain ⟨⟨common, kind⟩, backends⟩ := e
  obtain ⟨⟨common', kind'⟩, backends'⟩ := e'
  obtain ⟨rfl, rfl, hkind⟩ := h
  cases hkind with
  | @graphics state pass s s' hslots =>
    have hs : s' = s := by
      refine GraphicsShaders.eq_of_slots (eq_of_forall₂ hslots ?_)
      rintro o ho o' (hshader | ⟨⟩)
      · refine congrArg some (heq _ ?_ _ hshader)
        simp only [Pipeline.shaders, GraphicsShaders.map_filled]
        exact List.mem_filterMap.2 ⟨_, ho, rfl⟩
      · rfl
    rw [hs]
  | compute hshader | tile hshader => rw [heq _ List.mem_cons_self _ hshader]
  | rayTracing hshaders => rw [eq_of_forall₂ hshaders heq]

/-- A manifest without files is loaded as it is. -/
theorem Manifest.Replaced.eq_of_inline {m m' : Manifest} (h : m.Replaced (Shader.Loads load) m')
    (hinline : ∀ named ∈ m.shaders, named.2.source.isFile = false) : m' = m := by
  have hpipelines : m'.pipelines = m.pipelines := by
    refine eq_of_forall₂ h.pipelines fun e he e' hreplaced => hreplaced.eq ?_
    rintro shader hshader shader' ⟨hsource, hshader'⟩
    have hmem : (e.pipeline.name, shader) ∈ m.shaders :=
      List.mem_flatMap.2 ⟨e, he, List.mem_map_of_mem hshader⟩
    rw [hshader', ShaderSource.eq_of_loads_inline hsource (hinline _ hmem)]
  obtain ⟨hconfig, hsignatures, hpasses, -⟩ := h
  cases m
  cases m'
  congr

/-- The first fault of a manifest is the failure of its loading. A loaded manifest is the given one
with the sources of its shaders loaded, their files are asked for in the order of the shaders, and
loading the result with whatever loader asks for nothing and changes nothing. -/
theorem Manifest.loaded_spec (load : String → Except String Bytes) (m : Manifest) :
    (∀ loaded files, (m.resolveFiles (recording load)).run.run [] = (.ok loaded, files) →
      m.Replaced (Shader.Loads load) loaded ∧
      (∀ named ∈ loaded.shaders, named.2.source.isFile = false) ∧
      files = filesOf m.shaders ∧
      ∀ again, Asks (loaded.resolveFiles (recording again)) [] (.ok loaded)) ∧
    (∀ error files, (m.resolveFiles (recording load)).run.run [] = (.error error, files) ↔
      ∃ before failing fault, FirstFault load m.shaders before failing fault ∧
        error = .shaderFile failing.1 failing.2.name fault.message ∧
        files = filesOf (before ++ [failing])) ∧
    ((∃ error files, (m.resolveFiles (recording load)).run.run [] = (.error error, files)) ↔
      ∃ named ∈ m.shaders, ∃ fault, named.2.source.Fails load fault) := by
  have hthrough := resolveFiles_goesThrough load m
  refine ⟨fun loaded files hrun => ?_, fun error files => hthrough.error_iff, ?_⟩
  · obtain ⟨hreplaced, hfiles⟩ := hthrough.of_ok hrun
    have hinline := hreplaced.forall_inline
    refine ⟨hreplaced, hinline, hfiles, fun again => ?_⟩
    obtain ⟨same, hsame, hasks⟩ := (resolveFiles_goesThrough again loaded).loads fun named hnamed =>
      ⟨_, .inline (hinline named hnamed)⟩
    rwa [filesOf_inline hinline, hsame.eq_of_inline hinline] at hasks
  · constructor
    · rintro ⟨error, files, hrun⟩
      obtain ⟨before, failing, fault, hfault, -⟩ := hthrough.error_iff.1 hrun
      exact ⟨failing, hfault.mem, fault, hfault.fails⟩
    · rintro ⟨named, hnamed, fault, hfails⟩
      obtain hloads | ⟨before, failing, fault, hfault⟩ := loads_or_firstFault load m.shaders
      · obtain ⟨loaded, hloaded⟩ := hloads named hnamed
        exact (ShaderSource.not_fails_of_loads hloaded hfails).elim
      · exact ⟨_, _, hthrough.error_iff.2 ⟨before, failing, fault, hfault, rfl, rfl⟩⟩

end PipelineArchive
