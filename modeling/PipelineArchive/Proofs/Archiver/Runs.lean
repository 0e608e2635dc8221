import PipelineArchive.Proofs.Archiver.Staging
import PipelineArchive.Proofs.Container.Verified

/-!
# Runs of an archiver

A run starts from a new archiver and performs requests one after another, whatever its
transcoders answer and whether the requests succeed or fail. The contents stay grounded by every
request (`grounded_perform`), so they are after every run (`grounded_run`), and what is built from
them is opened and passes verification unless it is too large (`image_verifies`).
-/

set_option autoImplicit false

namespace PipelineArchive

/-- What an archiver can be asked to add. -/
inductive Request where
  | pipeline (p : Pipeline) (backends : BackendSet)
  | signature (signature : Signature) (backends : BackendSet)
  | renderPass (pass : RenderPass)

namespace Archiver

open Results

variable {σ : Type}

/-- The archiver after a request, with the state of its transcoders. -/
def perform (a : Archiver σ) (state : σ) : Request → Archiver σ × σ
  | .pipeline p backends => (a.addPipeline p backends state).2
  | .signature signature backends => ((a.addSignature signature backends).2, state)
  | .renderPass pass => ((a.addRenderPass pass).2, state)

/-- The archiver after several requests. -/
def run (a : Archiver σ) (state : σ) : List Request → Archiver σ × σ
  | [] => (a, state)
  | r :: rest => (a.perform state r).1.run (a.perform state r).2 rest

/-! ## Answers -/

/-- What the caller of a request is told, and the archiver after it with the state of its
transcoders. -/
def ask (s : Archiver σ × σ) : Request → Except ArchiveError Unit × Archiver σ × σ
  | .pipeline p backends => s.1.addPipeline p backends s.2
  | .signature signature backends =>
      let answered := s.1.addSignature signature backends
      (answered.1, answered.2, s.2)
  | .renderPass pass =>
      let answered := s.1.addRenderPass pass
      (answered.1, answered.2, s.2)

/-- The answers to several requests that are made one after another, and what they lead to. -/
def answerAll {ρ : Type} (answer : ρ → Request → Except ArchiveError Unit × ρ) (s : ρ) :
    List Request → List (Except ArchiveError Unit) × ρ
  | [] => ([], s)
  | r :: rest =>
      let first := answer s r
      let others := answerAll answer first.2 rest
      (first.1 :: others.1, others.2)

theorem snd_ask (a : Archiver σ) (state : σ) (r : Request) :
    (ask (a, state) r).2 = a.perform state r := by
  cases r <;> rfl

/-- Asking leads to what performing the requests leads to. -/
theorem snd_answerAll_ask (a : Archiver σ) (state : σ) (requests : List Request) :
    (answerAll ask (a, state) requests).2 = a.run state requests := by
  induction requests generalizing a state with
  | nil => rfl
  | cons r rest ih =>
    show (answerAll ask (ask (a, state) r).2 rest).2 = _
    rw [snd_ask]
    exact ih _ _

/-- What answers alike step by step answers alike over a run. -/
theorem answerAll_alike {ρ ρ' : Type} {answer : ρ → Request → Except ArchiveError Unit × ρ}
    {answer' : ρ' → Request → Except ArchiveError Unit × ρ'} (alike : ρ → ρ' → Prop)
    {requests : List Request}
    (hstep : ∀ s s', ∀ r ∈ requests, alike s s' →
      (answer s r).1 = (answer' s' r).1 ∧ alike (answer s r).2 (answer' s' r).2)
    {s : ρ} {s' : ρ'} (h : alike s s') :
    (answerAll answer s requests).1 = (answerAll answer' s' requests).1 ∧
      alike (answerAll answer s requests).2 (answerAll answer' s' requests).2 := by
  induction requests generalizing s s' with
  | nil => exact ⟨rfl, h⟩
  | cons r rest ih =>
    obtain ⟨hanswer, hnext⟩ := hstep s s' r List.mem_cons_self h
    obtain ⟨hanswers, hlast⟩ :=
      ih (fun t t' r hr ht => hstep t t' r (List.mem_cons_of_mem _ hr) ht) hnext
    exact ⟨congrArg₂ List.cons hanswer hanswers, hlast⟩

/-! ## What a request commits -/

/-- A pipeline leaves the contents as they are, or it is staged and committed. -/
theorem contents_addPipeline (a : Archiver σ) (p : Pipeline) (backends : BackendSet) (state : σ) :
    (a.addPipeline p backends state).2.1.contents = a.contents ∨
      ∃ compiled s, (a.compilePipeline p backends state).1 = .ok (some compiled) ∧
        stagePipeline a.contents p compiled.isExtension compiled.shaders = .ok s ∧
        (a.addPipeline p backends state).2.1.contents = a.contents.commit s := by
  unfold addPipeline
  -- a failure and a pipeline without anything new both leave the contents
  obtain ⟨result, next⟩ := a.compilePipeline p backends state
  cases result with
  | error e => exact .inl rfl
  | ok compiled? =>
    cases compiled? with
    | none => exact .inl rfl
    | some compiled =>
      simp only
      cases hstaged : stagePipeline a.contents p compiled.isExtension compiled.shaders with
      | error e => exact .inl rfl
      | ok s => exact .inr ⟨compiled, s, rfl, hstaged, rfl⟩

/-- A signature leaves the contents as they are, or it is staged and committed. -/
theorem contents_addSignature (a : Archiver σ) (signature : Signature) (backends : BackendSet) :
    (a.addSignature signature backends).2.contents = a.contents ∨
      ∃ s, prepareSignature a.contents signature backends = .ok (some s) ∧
        (a.addSignature signature backends).2.contents = a.contents.commit s := by
  unfold addSignature
  cases prepareSignature a.contents signature backends with
  | error e => exact .inl rfl
  | ok staged? =>
    cases staged? with
    | none => exact .inl rfl
    | some s => exact .inr ⟨s, rfl, rfl⟩

/-- A render pass leaves the contents as they are, or is committed alone. -/
theorem contents_addRenderPass (a : Archiver σ) (pass : RenderPass) :
    (a.addRenderPass pass).2.contents = a.contents ∨
      ∃ renderPass, (a.addRenderPass pass).2.contents = a.contents.commit { renderPass } := by
  unfold addRenderPass
  cases hstaged : prepareRenderPass a.contents pass with
  | error e => exact .inl rfl
  | ok s =>
    obtain ⟨renderPass, rfl⟩ := prepareRenderPass_spec hstaged
    exact .inr ⟨renderPass, rfl⟩

/-- A request leaves the contents as they are, or commits what they support. -/
theorem contents_perform {a : Archiver σ} (h : a.contents.Filled) (state : σ) (r : Request) :
    (a.perform state r).1.contents = a.contents ∨
      ∃ s, a.contents.Supports s ∧ (a.perform state r).1.contents = a.contents.commit s := by
  cases r with
  | pipeline p backends =>
    rcases a.contents_addPipeline p backends state with hsame | ⟨_, s, -, hstaged, hcommit⟩
    · exact .inl hsame
    · exact .inr ⟨s, supports_pipeline h hstaged, hcommit⟩
  | signature signature backends =>
    rcases a.contents_addSignature signature backends with hsame | ⟨s, hstaged, hcommit⟩
    · exact .inl hsame
    · obtain ⟨hstages, hpipeline⟩ := prepareSignature_spec h hstaged
      exact .inr ⟨s, hstages.supports hpipeline, hcommit⟩
  | renderPass pass =>
    rcases a.contents_addRenderPass pass with hsame | ⟨renderPass, hcommit⟩
    · exact .inl hsame
    · exact .inr ⟨_, supports_renderPass _ renderPass, hcommit⟩

/-! ## Runs -/

theorem grounded_perform {a : Archiver σ} (h : a.contents.Grounded) (state : σ) (r : Request) :
    (a.perform state r).1.contents.Grounded := by
  rcases contents_perform h.filled state r with hsame | ⟨s, hs, hcommit⟩
  · rw [hsame]
    exact h
  · rw [hcommit]
    exact h.commit hs

/-- The contents are grounded after every run. -/
theorem grounded_run {a : Archiver σ} (h : a.contents.Grounded) (state : σ)
    (requests : List Request) : (a.run state requests).1.contents.Grounded := by
  induction requests generalizing a state with
  | nil => exact h
  | cons r rest ih => exact ih (grounded_perform h state r) (a.perform state r).2

/-- Whatever an archiver was asked to add, its archive is opened and passes verification, unless
it is larger than 32-bit offsets can address. Nothing else can go wrong. -/
theorem image_verifies (registry : Registry σ) (config : Config) (state : σ)
    (requests : List Request) :
    let a := ((new registry config).run state requests).1
    (∃ image archive, a.image = .ok image ∧
      Container.Archive.ofBytes image.bytes = .ok archive ∧ archive.verify = .ok ()) ∨
    ∃ size, maxArchiveSize < size ∧ a.image = .error (.tooLarge size) := by
  have hnew : (new registry config).contents.Grounded := Contents.grounded_empty
  have hrun := grounded_run hnew state requests
  have hlimit : maxArchiveSize < UInt32.size := by decide
  exact Container.build_verifies hrun.resolves hrun.readable _ hlimit

end Archiver

end PipelineArchive
