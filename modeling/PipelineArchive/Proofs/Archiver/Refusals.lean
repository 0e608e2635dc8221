import PipelineArchive.Manifest
import PipelineArchive.Proofs.Archiver.Purity

/-!
# Requests that are refused

A request that is refused leaves the archiver as it was, however far its staging had come
(`archiver_of_refused`); it may only have changed the state of the transcoders. If these are pure
then their state makes no difference to any later answer (`ask_congr`), so that a run goes on as if
the request had never been made (`answerAll_of_refused`). A manifest is added by one such run, item
by item. Without the items that are refused it leads to the same archiver (`addTo_withoutRefused`).
-/

set_option autoImplicit false

namespace PipelineArchive

open Results

variable {σ : Type}

namespace Archiver

variable {a : Archiver σ}

/-! ## Answers and the state of the transcoders -/

theorem exists_answer {α : Type} {first second : α × σ} (h : first.1 = second.1) :
    ∃ answer next next', first = (answer, next) ∧ second = (answer, next') :=
  ⟨first.1, first.2, second.2, rfl, Prod.ext h.symm rfl⟩

theorem transcode_congr (hpure : a.registry.IsPure) (b : Backend) (s : Shader)
    (fresh : TranscodeCache) (state state' : σ) :
    (a.transcode b s fresh state).1 = (a.transcode b s fresh state').1 := by
  unfold transcode
  cases (a.cache.get? b s.key).or (fresh.get? b s.key) with
  | some compiled => rfl
  | none =>
    obtain ⟨answer, next, next', hfirst, hsecond⟩ :=
      exists_answer (hpure.compile_eq a.config b s state state')
    simp only [hfirst, hsecond]
    cases answer <;> rfl

theorem transcodeShaders_congr (hpure : a.registry.IsPure) (b : Backend) (shaders : List Shader)
    (fresh : TranscodeCache) (state state' : σ) :
    (a.transcodeShaders b shaders fresh state).1 =
      (a.transcodeShaders b shaders fresh state').1 := by
  induction shaders generalizing fresh state state' with
  | nil => rfl
  | cons s rest ih =>
    obtain ⟨answer, next, next', hfirst, hsecond⟩ :=
      exists_answer (transcode_congr hpure b s fresh state state')
    simp only [transcodeShaders, hfirst, hsecond]
    cases answer with
    | error e => rfl
    | ok value =>
      obtain ⟨compiled, fresh⟩ := value
      obtain ⟨answer, last, last', hfirst, hsecond⟩ := exists_answer (ih fresh next next')
      simp only [hfirst, hsecond]
      cases answer <;> rfl

theorem transcodeAll_congr (hpure : a.registry.IsPure) (shaders : List Shader)
    (backends : List Backend) (fresh : TranscodeCache) (state state' : σ) :
    (a.transcodeAll shaders backends fresh state).1 =
      (a.transcodeAll shaders backends fresh state').1 := by
  induction backends generalizing fresh state state' with
  | nil => rfl
  | cons b rest ih =>
    obtain ⟨answer, next, next', hfirst, hsecond⟩ :=
      exists_answer (transcodeShaders_congr hpure b shaders fresh state state')
    simp only [transcodeAll, hfirst, hsecond]
    cases answer with
    | error e => rfl
    | ok value =>
      obtain ⟨compiled, fresh⟩ := value
      obtain ⟨answer, last, last', hfirst, hsecond⟩ := exists_answer (ih fresh next next')
      simp only [hfirst, hsecond]
      cases answer <;> rfl

theorem compilePipeline_congr (hpure : a.registry.IsPure) (p : Pipeline) (backends : BackendSet)
    (state state' : σ) :
    (a.compilePipeline p backends state).1 = (a.compilePipeline p backends state').1 := by
  unfold compilePipeline
  cases preparePipeline a.contents p backends with
  | error e => rfl
  | ok pending =>
    cases pending with
    | none => rfl
    | some pending =>
      obtain ⟨pending, isExtension⟩ := pending
      obtain ⟨answer, next, next', hfirst, hsecond⟩ :=
        exists_answer (transcodeAll_congr hpure p.shaders pending.toList .empty state state')
      simp only [hfirst, hsecond]
      cases answer <;> rfl

/-- Pure transcoders answer a request in one way and lead to one archiver, whatever their state. -/
theorem ask_congr (hpure : a.registry.IsPure) (state state' : σ) (r : Request) :
    (ask (a, state) r).1 = (ask (a, state') r).1 ∧
      (ask (a, state) r).2.1 = (ask (a, state') r).2.1 := by
  cases r with
  | pipeline p backends =>
    obtain ⟨answer, next, next', hfirst, hsecond⟩ :=
      exists_answer (compilePipeline_congr hpure p backends state state')
    simp only [ask, addPipeline, hfirst, hsecond]
    cases answer with
    | error e => exact ⟨rfl, rfl⟩
    | ok compiled =>
      cases compiled with
      | none => exact ⟨rfl, rfl⟩
      | some compiled =>
        simp only
        cases stagePipeline a.contents p compiled.isExtension compiled.shaders <;>
          exact ⟨rfl, rfl⟩
  | signature signature backends => exact ⟨rfl, rfl⟩
  | renderPass pass => exact ⟨rfl, rfl⟩

/-! ## Refusals -/

/-- A request that is refused leaves the archiver as it was, at whatever point it failed. -/
theorem archiver_of_refused {s : Archiver σ × σ} {r : Request} {e : ArchiveError}
    (h : (ask s r).1 = .error e) : (ask s r).2.1 = s.1 := by
  cases r with
  | pipeline p backends =>
    simp only [ask, addPipeline] at h ⊢
    generalize s.1.compilePipeline p backends s.2 = result at h ⊢
    obtain ⟨answer, next⟩ := result
    cases answer with
    | error e => rfl
    | ok compiled =>
      cases compiled with
      | none => rfl
      | some compiled =>
        simp only at h ⊢
        cases hstaged : stagePipeline s.1.contents p compiled.isExtension compiled.shaders with
        | error e => rfl
        | ok staging =>
          rw [hstaged] at h
          cases h
  | signature signature backends =>
    simp only [ask, addSignature] at h ⊢
    cases hprepare : prepareSignature s.1.contents signature backends with
    | error e => rfl
    | ok staging =>
      cases staging with
      | none => rfl
      | some staging =>
        rw [hprepare] at h
        cases h
  | renderPass pass =>
    simp only [ask, addRenderPass] at h ⊢
    cases hprepare : prepareRenderPass s.1.contents pass with
    | error e => rfl
    | ok staging =>
      rw [hprepare] at h
      cases h

/-- No request changes the registry. -/
theorem registry_ask (s : Archiver σ × σ) (r : Request) :
    (ask s r).2.1.registry = s.1.registry := by
  cases r with
  | pipeline p backends =>
    simp only [ask, addPipeline]
    generalize s.1.compilePipeline p backends s.2 = result
    obtain ⟨answer, next⟩ := result
    cases answer with
    | error e => rfl
    | ok compiled =>
      cases compiled with
      | none => rfl
      | some compiled =>
        simp only
        cases stagePipeline s.1.contents p compiled.isExtension compiled.shaders <;> rfl
  | signature signature backends =>
    simp only [ask, addSignature]
    cases prepareSignature s.1.contents signature backends with
    | error e => rfl
    | ok staging => cases staging <;> rfl
  | renderPass pass =>
    simp only [ask, addRenderPass]
    cases prepareRenderPass s.1.contents pass <;> rfl

/-- What is answered later does not depend on the state of pure transcoders. -/
theorem answerAll_congr (hpure : a.registry.IsPure) (state state' : σ) (requests : List Request) :
    (answerAll ask (a, state) requests).1 = (answerAll ask (a, state') requests).1 ∧
      (answerAll ask (a, state) requests).2.1 = (answerAll ask (a, state') requests).2.1 := by
  -- the archivers stay the same, and their transcoders pure
  let alike (s t : Archiver σ × σ) : Prop := s.1 = t.1 ∧ s.1.registry.IsPure
  have hstep (s t : Archiver σ × σ) (r : Request) (h : alike s t) :
      (ask s r).1 = (ask t r).1 ∧ alike (ask s r).2 (ask t r).2 := by
    obtain ⟨a, state⟩ := s
    obtain ⟨a', state'⟩ := t
    obtain ⟨rfl, hpure⟩ := h
    obtain ⟨hanswer, hnext⟩ := ask_congr hpure state state' r
    exact ⟨hanswer, hnext, by rwa [registry_ask]⟩
  have hstart : alike (a, state) (a, state') := ⟨rfl, hpure⟩
  have hanswers : _ ∧ alike (answerAll ask (a, state) requests).2
      (answerAll ask (a, state') requests).2 :=
    answerAll_alike alike (fun s t r _ => hstep s t r) hstart
  exact ⟨hanswers.1, hanswers.2.1⟩

/-- A run goes on after a request that was refused as if the request had not been made. -/
theorem answerAll_of_refused (hpure : a.registry.IsPure) {state : σ} {r : Request}
    {e : ArchiveError} (h : (ask (a, state) r).1 = .error e) (later : List Request) :
    (answerAll ask (ask (a, state) r).2 later).1 = (answerAll ask (a, state) later).1 ∧
      (answerAll ask (ask (a, state) r).2 later).2.1 = (answerAll ask (a, state) later).2.1 := by
  have hnext : (ask (a, state) r).2 = (a, (ask (a, state) r).2.2) :=
    Prod.ext (archiver_of_refused h) rfl
  rw [hnext]
  exact answerAll_congr hpure _ _ later

/-- The items that were accepted, by the answers to all of them. -/
def kept {α : Type} (items : List α) (answers : List (Except ArchiveError Unit)) : List α :=
  ((items.zip answers).filter fun entry => entry.2.isOk).map Prod.fst

theorem kept_append {α : Type} (xs ys : List α) (answers : List (Except ArchiveError Unit)) :
    kept (xs ++ ys) answers = kept xs answers ++ kept ys (answers.drop xs.length) := by
  induction xs generalizing answers with
  | nil => rfl
  | cons x rest ih =>
    cases answers with
    | nil => simp [kept]
    | cons answer answers =>
      have hrest := ih answers
      unfold kept at hrest ⊢
      rw [List.cons_append, List.zip_cons_cons, List.zip_cons_cons, List.length_cons,
        List.drop_succ_cons]
      cases answer with
      | error e => exact hrest
      | ok => exact congrArg (x :: ·) hrest

theorem kept_map {α β : Type} (f : α → β) (xs : List α)
    (answers : List (Except ArchiveError Unit)) :
    kept (xs.map f) answers = (kept xs answers).map f := by
  simp only [kept, List.zip_map_left, List.filter_map, List.map_map]
  rfl

/-- A run without the requests that are refused leads to the same archiver, and none of its
requests is refused. -/
theorem answerAll_kept (hpure : a.registry.IsPure) (state state' : σ) (requests : List Request) :
    let whole := answerAll ask (a, state) requests
    let reduced := answerAll ask (a, state') (kept requests whole.1)
    (∀ answer ∈ reduced.1, answer = .ok ()) ∧ reduced.2.1 = whole.2.1 := by
  induction requests generalizing a state state' with
  | nil => exact ⟨fun _ h => (by cases h), rfl⟩
  | cons r rest ih =>
    simp only [answerAll]
    cases hanswer : (ask (a, state) r).1 with
    | error e =>
      -- the rest of the run starts with the same archiver, and the request is not kept
      have hnext : (ask (a, state) r).2 = (a, (ask (a, state) r).2.2) :=
        Prod.ext (archiver_of_refused hanswer) rfl
      rw [hnext]
      exact ih hpure (ask (a, state) r).2.2 state'
    | ok =>
      obtain ⟨hsame, hnext⟩ := ask_congr hpure state state' r
      have hrest := ih (a := (ask (a, state) r).2.1) (by rwa [registry_ask])
        (ask (a, state) r).2.2 (ask (a, state') r).2.2
      have hafter : (ask (a, state') r).2 = ((ask (a, state) r).2.1, (ask (a, state') r).2.2) :=
        Prod.ext hnext.symm rfl
      obtain ⟨hanswers, hlast⟩ := hrest
      rw [← hafter] at hanswers hlast
      refine ⟨?_, hlast⟩
      intro answer hmem
      rcases List.mem_cons.1 hmem with rfl | hmem
      · exact hsame.symm.trans hanswer
      · exact hanswers answer hmem

theorem length_answerAll {ρ : Type} (answer : ρ → Request → Except ArchiveError Unit × ρ) (s : ρ)
    (requests : List Request) : (answerAll answer s requests).1.length = requests.length := by
  induction requests generalizing s with
  | nil => rfl
  | cons r rest ih => exact congrArg (· + 1) (ih _)

end Archiver

/-! ## Manifests -/

/-- The name of what is to be added. -/
def Request.name : Request → String
  | .pipeline p _ => p.name
  | .signature s _ => s.name
  | .renderPass pass => pass.name

/-- What is reported of the requests that were refused, by the answers to all of them. -/
def refused (requests : List Request) (answers : List (Except ArchiveError Unit)) :
    List DroppedItem :=
  (requests.zip answers).filterMap fun entry =>
    match entry.2 with
    | .ok () => none
    | .error e => some ⟨entry.1.name, e⟩

theorem refused_eq_nil {requests : List Request} {answers : List (Except ArchiveError Unit)}
    (h : ∀ answer ∈ answers, answer = .ok ()) : refused requests answers = [] := by
  refine List.filterMap_eq_nil_iff.2 ?_
  rintro ⟨r, answer⟩ hentry
  rw [h answer (List.of_mem_zip hentry).2]

namespace Outcome

/-- The outcome after several items. -/
def recordAll (o : Outcome) (requests : List Request) (answers : List (Except ArchiveError Unit)) :
    Outcome :=
  (requests.zip answers).foldl (fun o entry => o.record entry.1.name entry.2) o

/-- Every item is counted as added or reported as dropped, in the order of the items. -/
theorem recordAll_spec (o : Outcome) (requests : List Request)
    (answers : List (Except ArchiveError Unit)) :
    (o.recordAll requests answers).dropped = o.dropped ++ refused requests answers ∧
      (o.recordAll requests answers).added + (refused requests answers).length =
        o.added + (requests.zip answers).length := by
  unfold recordAll refused
  generalize requests.zip answers = entries
  induction entries generalizing o with
  | nil => simp
  | cons entry rest ih =>
    obtain ⟨r, answer⟩ := entry
    obtain ⟨hdropped, hadded⟩ := ih (o.record r.name answer)
    rw [List.foldl_cons]
    cases answer with
    | error e =>
      refine ⟨?_, ?_⟩
      · rw [hdropped]
        simp [record]
      · simp only [record, List.filterMap_cons, List.length_cons] at hadded ⊢
        omega
    | ok =>
      refine ⟨?_, ?_⟩
      · rw [hdropped]
        simp [record]
      · simp only [record, List.filterMap_cons, List.length_cons] at hadded ⊢
        omega

end Outcome

namespace Manifest

open Archiver (ask answerAll kept)

/-- The items of a manifest in the order they are added. -/
def requests (manifest : Manifest) (default : BackendSet) : List Request :=
  manifest.signatures.map (fun entry =>
      .signature entry.signature (backendsOf entry.backends default))
    ++ manifest.renderPasses.map .renderPass
    ++ manifest.pipelines.map fun entry =>
      .pipeline entry.pipeline (backendsOf entry.backends default)

/-- A manifest without the items that are refused, by the answers to all of them. -/
def withoutRefused (manifest : Manifest) (answers : List (Except ArchiveError Unit)) : Manifest :=
  let passAnswers := answers.drop manifest.signatures.length
  { manifest with
    signatures := kept manifest.signatures answers
    renderPasses := kept manifest.renderPasses passAnswers
    pipelines := kept manifest.pipelines (passAnswers.drop manifest.renderPasses.length) }

theorem requests_withoutRefused (manifest : Manifest) (default : BackendSet)
    (answers : List (Except ArchiveError Unit)) :
    (manifest.withoutRefused answers).requests default =
      kept (manifest.requests default) answers := by
  simp only [requests, withoutRefused, Archiver.kept_append, Archiver.kept_map, List.length_map,
    List.length_append, List.drop_drop]

/-- The progress after another request. -/
def Progress.ask (p : Progress σ) (r : Request) : Progress σ :=
  let answered := Archiver.ask (p.archiver, p.state) r
  ⟨answered.2.1, p.outcome.record r.name answered.1, answered.2.2⟩

theorem foldl_ask (p : Progress σ) (requests : List Request) :
    let answered := answerAll ask (p.archiver, p.state) requests
    requests.foldl Progress.ask p =
      ⟨answered.2.1, p.outcome.recordAll requests answered.1, answered.2.2⟩ := by
  induction requests generalizing p with
  | nil => rfl
  | cons r rest ih => exact ih (p.ask r)

/-- A manifest is added by asking for its items one after another. -/
theorem addTo_eq (manifest : Manifest) (a : Archiver σ) (default : BackendSet) (state : σ) :
    let answered := answerAll ask (a, state) (manifest.requests default)
    manifest.addTo a default state = ⟨answered.2.1,
      Outcome.recordAll {} (manifest.requests default) answered.1, answered.2.2⟩ := by
  have hasks : manifest.addTo a default state =
      (manifest.requests default).foldl Progress.ask ⟨a, {}, state⟩ := by
    simp only [requests, List.foldl_append, List.foldl_map]
    rfl
  rw [hasks]
  exact foldl_ask _ _

/-- Pure transcoders lead from an archiver to the same one, with the same archive, whether or not
the items of a manifest that are refused are left out, and then nothing is dropped. Every item is
added or dropped, and those that are dropped are reported in order. A request that is refused has
no effect on anything that is asked later. -/
theorem addTo_withoutRefused {a : Archiver σ} (hpure : a.registry.IsPure) (manifest : Manifest)
    (default : BackendSet) (state state' : σ) :
    let requests := manifest.requests default
    let answers := (answerAll ask (a, state) requests).1
    let whole := manifest.addTo a default state
    let reduced := (manifest.withoutRefused answers).addTo a default state'
    (reduced.archiver = whole.archiver ∧ reduced.archiver.image = whole.archiver.image ∧
      reduced.outcome.dropped = []) ∧
      whole.outcome.added + whole.outcome.dropped.length =
        manifest.signatures.length + manifest.renderPasses.length + manifest.pipelines.length ∧
      whole.outcome.dropped = refused requests answers ∧
      ∀ r e, (ask (a, state) r).1 = .error e → ∀ later,
        (answerAll ask (ask (a, state) r).2 later).1 = (answerAll ask (a, state) later).1 ∧
          (answerAll ask (ask (a, state) r).2 later).2.1 =
            (answerAll ask (a, state) later).2.1 := by
  intro requests answers whole reduced
  have hwhole := manifest.addTo_eq a default state
  have hreduced := (manifest.withoutRefused answers).addTo_eq a default state'
  rw [requests_withoutRefused] at hreduced
  obtain ⟨hanswers, hlast⟩ := Archiver.answerAll_kept hpure state state' requests
  have harchiver : reduced.archiver = whole.archiver := by
    simp only [reduced, whole, hwhole, hreduced]
    exact hlast
  -- what is reported of both, read off the answers
  obtain ⟨hreducedDropped, -⟩ := Outcome.recordAll_spec {} (kept requests answers)
    (answerAll ask (a, state') (kept requests answers)).1
  obtain ⟨hdropped, hadded⟩ := Outcome.recordAll_spec {} requests answers
  have hdropped : whole.outcome.dropped = refused requests answers := by
    simp only [whole, hwhole]
    exact hdropped
  refine ⟨⟨harchiver, congrArg Archiver.image harchiver, ?_⟩, ?_, hdropped, ?_⟩
  · simp only [reduced, hreduced]
    rw [refused_eq_nil hanswers] at hreducedDropped
    exact hreducedDropped
  · have hlength : (requests.zip answers).length =
        manifest.signatures.length + manifest.renderPasses.length + manifest.pipelines.length := by
      rw [List.length_zip, Archiver.length_answerAll, Nat.min_self]
      simp only [requests, Manifest.requests, List.length_append, List.length_map]
    rw [hdropped, ← hlength]
    simp only [whole, hwhole]
    exact hadded.trans (Nat.zero_add _)
  · intro r e h later
    exact Archiver.answerAll_of_refused hpure h later

/-- A manifest with a signature without name, and a pipeline between two others that names no
backends. -/
def partlyRefused : Manifest where
  signatures := [⟨⟨"", 0, [], []⟩, none⟩, ⟨⟨"S", 0, [], []⟩, none⟩]
  pipelines := [
    ⟨Session.singleShader "P" .compute .compute, none⟩,
    ⟨Session.singleShader "Q" .compute .compute, some []⟩,
    ⟨Session.singleShader "R" .compute .compute, some [.metalIos]⟩]

/-- Three items are added and two are dropped. -/
theorem addTo_withoutRefused_partlyRefused :
    let a : Archiver Unit := .new Session.metalRegistry {}
    let default := BackendSet.singleton .metalMacos
    let requests := partlyRefused.requests default
    let answers := (answerAll ask (a, ()) requests).1
    let whole := partlyRefused.addTo a default ()
    let reduced := (partlyRefused.withoutRefused answers).addTo a default ()
    whole.outcome = ⟨3, [
      ⟨"", .description .emptySignatureName⟩, ⟨"Q", .description (.noPipelineBackends "Q")⟩]⟩ ∧
      (reduced.archiver = whole.archiver ∧ reduced.archiver.image = whole.archiver.image ∧
        reduced.outcome.dropped = []) ∧
      whole.outcome.added + whole.outcome.dropped.length = partlyRefused.signatures.length +
        partlyRefused.renderPasses.length + partlyRefused.pipelines.length ∧
      whole.outcome.dropped = refused requests answers ∧
      ∀ r e, (ask (a, ()) r).1 = .error e → ∀ later,
        (answerAll ask (ask (a, ()) r).2 later).1 = (answerAll ask (a, ()) later).1 ∧
          (answerAll ask (ask (a, ()) r).2 later).2.1 = (answerAll ask (a, ()) later).2.1 := by
  have hreduced := addTo_withoutRefused (a := .new Session.metalRegistry {})
    Session.isPure_metalRegistry partlyRefused (.singleton .metalMacos) () ()
  refine ⟨?_, hreduced⟩
  decide +kernel

end Manifest

end PipelineArchive
