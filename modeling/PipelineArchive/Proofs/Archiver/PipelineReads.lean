import PipelineArchive.Proofs.Archiver.AcceptedNames
import PipelineArchive.Proofs.Container.Resemblance

/-!
# What is read as a pipeline

A pipeline is asked for by a kind and a name, and the answer should be one that was accepted.
`image_pipelines` says what is answered: the pipelines that were accepted, and with them every
render pass and every signature whose record resembles one. The report on the archive shows a
pipeline in exactly these places. The render passes of an archive are those of accepted requests,
by the invariant `Contents.DrawsOn`, so which of them resemble a pipeline can be told from their
descriptions alone. An ordinary one does (`not_only_pipelines`).
-/

set_option autoImplicit false

namespace PipelineArchive

open Results

/-! ## The render passes of accepted requests -/

/-- The render pass of a pipeline that passes its check passes its own. -/
theorem Pipeline.check_renderPass {p : Pipeline} (h : p.check = .ok ()) {pass : RenderPass}
    (hpass : p.renderPass? = some pass) : pass.check = .ok () := by
  obtain ⟨-, hkind, -⟩ := check_steps_iff.1 h
  unfold renderPass? at hpass
  split at hpass
  · rename_i state pass? shaders heq
    rw [heq, checkKind_graphics_eq_ok_iff] at hkind
    exact (hkind.2 pass hpass).1
  · cases hpass

/-- Every archived render pass is one of a request, as it was described and checked there. -/
def Contents.DrawsOn (c : Contents) (accepted : List Request) : Prop :=
  ∀ name desc, c.renderPasses.get? name = some desc →
    ∃ pass ∈ accepted.filterMap Request.renderPass?,
      pass.check = .ok () ∧ pass.name = name ∧ encode pass = desc

namespace Contents.DrawsOn

variable {c : Contents} {accepted : List Request}

theorem empty : Contents.empty.DrawsOn [] := by
  rintro name desc ⟨⟩

theorem mono (h : c.DrawsOn accepted) {more : List Request} (hmore : accepted ⊆ more) :
    c.DrawsOn more := by
  intro name desc hdesc
  obtain ⟨pass, hpass, hrest⟩ := h name desc hdesc
  exact ⟨pass, List.filterMap_subset _ hmore hpass, hrest⟩

/-- A commit adds the render pass that is staged, unless there is one of its name. -/
theorem commit (h : c.DrawsOn accepted) {s : Staging} {r : Request}
    (hstaged : ∀ name desc, s.renderPass = some (name, desc) →
      ∃ pass, r.renderPass? = some pass ∧
        pass.check = .ok () ∧ pass.name = name ∧ encode pass = desc) :
    (c.commit s).DrawsOn (r :: accepted) := by
  intro name desc hdesc
  have hkept := h.mono (List.subset_cons_self r accepted)
  rw [Contents.get?_renderPasses_commit] at hdesc
  cases hs : s.renderPass with
  | none =>
    rw [hs] at hdesc
    exact hkept name desc hdesc
  | some staged =>
    obtain ⟨key, own⟩ := staged
    rw [hs] at hdesc
    simp only at hdesc
    split at hdesc
    · rename_i heq
      subst heq
      -- a render pass that is archived stays as it is
      rcases Option.or_eq_some_iff.1 hdesc with harchived | ⟨-, hown⟩
      · exact hkept name desc harchived
      · cases Option.some.inj hown
        obtain ⟨pass, hpass, hrest⟩ := hstaged name desc hs
        exact ⟨pass, List.mem_filterMap.2 ⟨r, List.mem_cons_self, hpass⟩, hrest⟩
    · exact hkept name desc hdesc

end Contents.DrawsOn

namespace Archiver

variable {σ : Type}

/-- A render pass that passes its check is staged with its encoding under its name. -/
theorem exists_of_stageRenderPass {c : Contents} {pass? : Option RenderPass}
    {staged : Option (String × Bytes)} (h : stageRenderPass c pass? = .ok staged)
    (hcheck : ∀ pass, pass? = some pass → pass.check = .ok ()) {name : String} {desc : Bytes}
    (hstaged : staged = some (name, desc)) :
    ∃ pass, pass? = some pass ∧ pass.check = .ok () ∧ pass.name = name ∧ encode pass = desc := by
  obtain ⟨-, rfl⟩ := stageRenderPass_eq_ok_iff.1 h
  obtain ⟨pass, hpass, hown⟩ := Option.bind_eq_some_iff.1 hstaged
  split at hown
  · cases hown
  · cases hown
    exact ⟨pass, hpass, hcheck pass hpass, rfl, rfl⟩

/-- A request that is accepted adds no render pass but its own. -/
theorem drawsOn_ask {a : Archiver σ} {accepted : List Request} (h : a.contents.DrawsOn accepted)
    {state : σ} {r : Request} (hok : (ask (a, state) r).1 = .ok ()) :
    (ask (a, state) r).2.1.contents.DrawsOn (r :: accepted) := by
  have hkept := h.mono (List.subset_cons_self r accepted)
  cases r with
  | pipeline p backends =>
    rcases contents_of_addPipeline_ok hok with ⟨-, hsame⟩ | ⟨_, _, _, s, hprepare, -, hs, hcommit⟩
    · exact hsame ▸ hkept
    · obtain ⟨hcheck, -⟩ := preparePipeline_eq_ok_iff.1 hprepare
      obtain ⟨_, _, _, renderPass, -, -, hrenderPass, rfl⟩ := stagePipeline_spec hs
      refine hcommit ▸ h.commit fun name desc hstaged => ?_
      have hchecked : ∀ pass, p.renderPass? = some pass → pass.check = .ok () :=
        fun _ => Pipeline.check_renderPass hcheck
      exact exists_of_stageRenderPass hrenderPass hchecked hstaged
  | signature signature backends =>
    rcases a.contents_addSignature signature backends with hsame | ⟨s, hs, hcommit⟩
    · exact hsame ▸ hkept
    · -- nothing but the signature is staged
      obtain ⟨-, archived, -, hs⟩ := prepareSignature_eq_ok_iff.1 hs
      split at hs
      · cases hs
      · obtain ⟨record, -, hs⟩ := hs
        cases hs
        refine hcommit ▸ h.commit ?_
        rintro name desc ⟨⟩
  | renderPass pass =>
    simp only [ask, addRenderPass]
    cases hs : prepareRenderPass a.contents pass with
    | error e => exact hkept
    | ok s =>
      obtain ⟨hcheck, renderPass, hrenderPass, rfl⟩ := prepareRenderPass_eq_ok_iff.1 hs
      refine h.commit fun name desc hstaged => exists_of_stageRenderPass hrenderPass ?_ hstaged
      rintro _ ⟨⟩
      exact hcheck

/-! ## Runs -/

/-- What is said of the contents and of the requests accepted so far, the last one first, holds
after a run if every request that is accepted keeps it. -/
theorem answerAll_invariant {holds : Contents → List Request → Prop}
    (hstep : ∀ (a : Archiver σ) (state : σ) (accepted : List Request) (r : Request),
      holds a.contents accepted → (ask (a, state) r).1 = .ok () →
        holds (ask (a, state) r).2.1.contents (r :: accepted))
    {a : Archiver σ} {earlier : List Request} (h : holds a.contents earlier) (state : σ)
    (requests : List Request) :
    let answered := answerAll ask (a, state) requests
    holds answered.2.1.contents ((kept requests answered.1).reverse ++ earlier) := by
  induction requests generalizing a state earlier with
  | nil => exact h
  | cons r rest ih =>
    simp only [answerAll]
    cases hanswer : (ask (a, state) r).1 with
    | error e =>
      -- a request that is refused is not kept and leaves the archiver
      have hnext : (ask (a, state) r).2 = (a, (ask (a, state) r).2.2) :=
        Prod.ext (archiver_of_refused hanswer) rfl
      rw [hnext]
      exact ih h (ask (a, state) r).2.2
    | ok =>
      have hkept (answers : List (Except ArchiveError Unit)) :
          (kept (r :: rest) (.ok () :: answers)).reverse ++ earlier =
            (kept rest answers).reverse ++ r :: earlier := by
        change (r :: kept rest answers).reverse ++ earlier = _
        rw [List.reverse_cons, List.append_assoc]
        rfl
      rw [hkept]
      exact ih (hstep a state earlier r h hanswer) (ask (a, state) r).2.2

/-- After a run of a new archiver the render passes are those of the requests that were accepted. -/
theorem drawsOn_of_new (registry : Registry σ) (config : Config) (state : σ)
    (requests : List Request) :
    let answered := answerAll ask (new registry config, state) requests
    answered.2.1.contents.DrawsOn (kept requests answered.1) := by
  intro answered
  have hrun : answered.2.1.contents.DrawsOn ((kept requests answered.1).reverse ++ []) :=
    answerAll_invariant (fun a state accepted r h hok => drawsOn_ask h hok) .empty state requests
  rw [List.append_nil] at hrun
  exact hrun.mono (List.reverse_subset.2 (List.Subset.refl _))

/-! ## Archives -/

/-- Whatever an archiver was asked to add, its archive is too large, or it can be read, and what is
read from it as a pipeline are the pipelines that were accepted, under what is seen of their names,
and the render passes and signatures that resemble one. The report on it has a line on a pipeline
for exactly these entries. The render passes are those of accepted requests, as they were described
there, and a plain one is always read as a pipeline. -/
theorem image_pipelines (registry : Registry σ) (config : Config) (state : σ)
    (requests : List Request) :
    let answered := answerAll ask (new registry config, state) requests
    let accepted := kept requests answered.1
    let pipelines kind name := name ∈ Request.acceptedNames [] accepted kind
    (∃ image archive, answered.2.1.image = .ok image ∧
      Container.Archive.ofBytes image.bytes = .ok archive ∧
      (∀ kind name, (∃ view, archive.pipeline kind name = .ok view) ↔
        archive.Takes pipelines kind name) ∧
      (∀ kind, ∀ e ∈ archive.entries kind,
        (∃ view, Inspection.pipelineLine view ∈ Inspection.entryLines archive kind e) ↔
          archive.Takes pipelines kind e.name) ∧
      ∀ name desc, archive.renderPass name = .ok desc →
        ∃ pass ∈ accepted.filterMap Request.renderPass?,
          Container.SeenAs pass.name name ∧ encode pass = desc ∧
          (pass.IsPlain → ∃ view, archive.pipeline .renderPasses name = .ok view)) ∨
    ∃ size, maxArchiveSize < size ∧ answered.2.1.image = .error (.tooLarge size) := by
  intro answered accepted pipelines
  have hgrounded := grounded_answerAll registry config state requests
  have hlimit : maxArchiveSize < UInt32.size := by decide
  rcases Container.build_cases hgrounded.resolves _ hlimit with ⟨image, himage⟩ | hlarge
  · obtain ⟨rs, l, archive, harchive, hbuilt⟩ := Container.exists_built hlimit himage
    refine .inl ⟨image, archive, himage, harchive, ?_⟩
    have hnames : (fun kind name => name ∈ answered.2.1.contents.names kind) = pipelines := by
      funext kind name
      exact propext (mem_names_of_new registry config state requests kind name)
    have htakes : ∀ kind name, (∃ view, archive.pipeline kind name = .ok view) ↔
        archive.Takes pipelines kind name := by
      intro kind name
      rw [← hnames]
      exact hbuilt.exists_pipeline_iff hgrounded.resolves hgrounded.readable harchive kind name
    refine ⟨htakes, ?_, ?_⟩
    · intro kind e _
      exact (Inspection.exists_pipelineLine_iff archive kind e).trans (htakes kind e.name)
    · intro name desc hdesc
      obtain ⟨archived, harchived, hseen, -⟩ :=
        hbuilt.exists_of_renderPass hgrounded.resolves hgrounded.readable hdesc
      obtain ⟨pass, hpass, hcheck, rfl, rfl⟩ :=
        drawsOn_of_new registry config state requests archived desc harchived
      refine ⟨pass, hpass, hseen, rfl, fun hplain => (htakes _ name).2 ?_⟩
      exact .renderPass hdesc (Container.resembles_of_isPlain hplain hcheck)
  · exact .inr hlarge

/-- A render pass that draws into one attachment and keeps it. -/
def colorPass : RenderPass where
  name := "Main"
  attachments :=
    [⟨.rgba8Unorm, 1, .clear, .store, .discard, .discard, .undefined, .shaderResource⟩]
  subpasses := [⟨[], [⟨0, .renderTarget⟩], [], none, []⟩]
  dependencies := []

/-- A signature with a single sampler, which no stage sees. -/
def unseenSampler : Signature := ⟨"Unseen", 0, [], [⟨.empty, "g_Sampler", {}⟩]⟩

/-- The render pass and the signature, and no pipeline. -/
def lookalikes : List Request :=
  [.renderPass colorPass, .signature unseenSampler (.singleton .d3d11)]

/-- Both are accepted, and both are read and reported as pipelines. -/
theorem not_only_pipelines :
    let answered := answerAll ask (new (Registry.empty : Registry Unit) {}, ()) lookalikes
    let accepted := kept lookalikes answered.1
    accepted = lookalikes ∧
    (∀ kind, kind.isPipeline = true → Request.acceptedNames [] accepted kind = []) ∧
    ∃ image archive pass signature, answered.2.1.image = .ok image ∧
      Container.Archive.ofBytes image.bytes = .ok archive ∧
      archive.pipeline .renderPasses "Main" = .ok pass ∧
      Inspection.pipelineLine pass = "    signatures [1], render pass Some(257), shaders: " ∧
      archive.pipeline .signatures "Unseen" = .ok signature ∧
      Inspection.pipelineLine signature =
        "    signatures [], render pass Some(256), shaders: d3d11 []" ∧
      (∃ e ∈ archive.entries .renderPasses,
        Inspection.pipelineLine pass ∈ Inspection.entryLines archive .renderPasses e) ∧
      ∃ e ∈ archive.entries .signatures,
        Inspection.pipelineLine signature ∈ Inspection.entryLines archive .signatures e := by
  intro answered accepted
  have hanswers : answered.1 = [.ok (), .ok ()] := by decide +kernel
  have hnames : ∀ kind ∈ ChunkKind.all, kind.isPipeline = true →
      Request.acceptedNames [] accepted kind = [] := by decide +kernel
  have hread : (answered.2.1.image.map fun image => do
      let archive ← Container.Archive.ofBytes image.bytes
      let pass ← archive.pipeline .renderPasses "Main"
      let signature ← archive.pipeline .signatures "Unseen"
      return (Inspection.pipelineLine pass, Inspection.pipelineLine signature)) =
      .ok (.ok ("    signatures [1], render pass Some(257), shaders: ",
        "    signatures [], render pass Some(256), shaders: d3d11 []")) := by decide +kernel
  obtain ⟨image, himage, hread⟩ := map_eq_ok_iff.1 hread
  obtain ⟨archive, harchive, hread⟩ := bind_eq_ok_iff.1 hread
  obtain ⟨pass, hpass, hread⟩ := bind_eq_ok_iff.1 hread
  obtain ⟨signature, hsignature, hread⟩ := bind_eq_ok_iff.1 hread
  obtain ⟨hpassLine, hsignatureLine⟩ := Prod.mk.inj (Except.ok.inj hread)
  refine ⟨?_, fun kind => hnames kind (ChunkKind.mem_all kind), image, archive, pass, signature,
    himage, harchive, hpass, hpassLine, hsignature, hsignatureLine,
    Inspection.exists_reported hpass, Inspection.exists_reported hsignature⟩
  change kept lookalikes answered.1 = lookalikes
  rw [hanswers]
  rfl

end Archiver

end PipelineArchive
