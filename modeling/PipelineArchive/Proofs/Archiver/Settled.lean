import PipelineArchive.Proofs.Archiver.OwnPlans

/-!
# Sessions whose archived data may be used again

A session is `Settled` if its archiver compiles to fixed native code and the data that are archived
of a signature are those that are laid out for it. Records are compared by their encodings, so this
asks of a run that everything in it can be counted: what is asked for, and the signatures that are
made for pipelines from what their shaders reflect (`Fits`). A run that fits stays settled
(`Settled.run`), and a pipeline adds to a settled session what it adds to a new archive
(`Settled.plan_pipeline`).
-/

set_option autoImplicit false

namespace PipelineArchive

open Results

namespace Archiver

variable {c : Contents} {p : Pipeline} {isExtension : Bool} {compiled : List BackendShaders}

/-- What is staged of a pipeline itself: its source, and data for the backends it is compiled
for. -/
theorem pipeline_of_stagePipeline {s : Staging}
    (h : stagePipeline c p isExtension compiled = .ok s) :
    ∃ entry, s.pipeline = some ((p.chunk, p.name), entry) ∧ entry.source = p.source ∧
      ∀ b, (entry.device.get b).isSome ↔ b ∈ compiled.map (·.backend) := by
  obtain ⟨signatures, resolved, patched, renderPass, -, hpatched, -, rfl⟩ := stagePipeline_spec h
  refine ⟨_, rfl, rfl, fun b => ?_⟩
  rw [isSome_archived_iff hpatched]
  simp

/-- A record that is made for a pipeline describes a signature that it is bound by. -/
theorem made_of_stagePipeline {s : Staging} (h : stagePipeline .empty p false compiled = .ok s)
    {name : String} {record : SignatureRecord} (hmade : s.made? name = some record) :
    ∃ signatures resolved,
      resolveSignatures .empty p false compiled = .ok (signatures, resolved) ∧
      ∃ signature ∈ signatures, record.Describes signature := by
  obtain ⟨signatures, resolved, patched, renderPass, hresolved, -, -, rfl⟩ := stagePipeline_spec h
  refine ⟨signatures, resolved, hresolved, ?_⟩
  have hdefault : resolved.defaultSignature = some (name, record) :=
    Staging.entryAt_eq_some_iff.1 hmade
  rcases resolveSignatures_eq_ok_iff.1 hresolved with ⟨-, made, hstaged, rfl⟩ | ⟨-, hgiven, rfl⟩
  · obtain ⟨signature, rfl, hdescribes⟩ := describes_of_made hstaged hdefault
    exact ⟨signature, List.mem_cons_self, hdescribes⟩
  · rw [(stageSignatures_spec Contents.grounded_empty.filled hgiven).noDefault] at hdefault
    cases hdefault

end Archiver

namespace Session

variable {σ : Type} {native : Native} {s : Session σ}

/-- A request can be counted, and so can the signatures that a pipeline is laid out with. Those that
are made list what the shaders reflect, of which the request itself says nothing. -/
def Fits (s : Session σ) (r : Request) : Prop :=
  isBounded r ∧ ∀ o ∈ s.origin? r, ∀ signature ∈ o.signatures, isBounded signature

instance (s : Session σ) (r : Request) : Decidable (s.Fits r) := inferInstanceAs (Decidable (_ ∧ _))

/-- The archiver compiles to fixed code, and what is archived of a signature has data that are laid
out for it. -/
structure Settled (native : Native) (s : Session σ) : Prop where
  compiles : s.archiver.Compiles native
  grounded : s.contents.Grounded
  describes {signature : Signature} : isBounded signature → s.contents.view.Describes signature

theorem settled_new {registry : Registry σ} (h : registry.IsPure) (config : Config) (state : σ) :
    (new registry config state).Settled fun b s => (registry.compile config b s state).1 where
  compiles := Archiver.compiles_new h config state
  grounded := Contents.grounded_empty
  describes _ _ hr := by cases hr

/-- The origin of a pipeline that is compiled as planned and staged. -/
theorem origin?_eq_some (hs : s.archiver.Compiles native) {p : Pipeline} (hp : isBounded p)
    {backends : BackendSet} {isExtension : Bool} {compiled : List BackendShaders}
    (hplanned : Archiver.planShaders native s.contents p backends =
      .ok (some (isExtension, compiled))) {staging : Staging}
    (hstaged : Archiver.stagePipeline s.contents p isExtension compiled = .ok staging)
    {signatures : List Signature} {resolved : Staging}
    (hresolved : Archiver.resolveSignatures s.contents p isExtension compiled =
      .ok (signatures, resolved)) :
    s.origin? (.pipeline p backends) = some ⟨p, compiled, signatures⟩ := by
  have hcompiled := Archiver.compilesTo_compilePipeline hs hp backends s.state
  change Archiver.CompilesTo native _
    (Archiver.planShaders native s.contents p backends) at hcompiled
  rw [hplanned] at hcompiled
  simp only [origin?, Archiver.origin?]
  generalize (s.archiver.compilePipeline p backends s.state).1 = result at hcompiled ⊢
  cases hcompiled
  simp only [hstaged, hresolved]

/-- A pipeline adds to a settled session what it adds to a new archive. -/
theorem Settled.plan_pipeline (hs : s.Settled native) {p : Pipeline} {backends : BackendSet}
    (hfits : s.Fits (.pipeline p backends)) {staging : Staging}
    (h : Archiver.planPipeline native s.contents p backends = .ok (some staging)) :
    ∃ pending isExtension compiled own,
      Archiver.preparePipeline s.contents p backends = .ok (some (pending, isExtension)) ∧
      Archiver.compileAll native p.shaders pending.toList = .ok compiled ∧
      Archiver.stagePipeline .empty p false compiled = .ok own ∧
      s.contents.view.Accepts own ∧ s.contents.view.commit staging = s.contents.view.commit own ∧
      ∀ name record, own.made? name = some record →
        ∃ signature, isBounded signature ∧ record.Describes signature := by
  obtain ⟨isExtension, compiled, hplanned, hstaged⟩ := Archiver.planPipeline_eq_some_iff.1 h
  obtain ⟨pending, hprepare, hcompiled⟩ := Archiver.planShaders_eq_some_iff.1 hplanned
  have hbounded {signatures : List Signature} {resolved : Staging}
      (hresolved : Archiver.resolveSignatures s.contents p isExtension compiled =
        .ok (signatures, resolved)) : ∀ signature ∈ signatures, isBounded signature :=
    hfits.2 _ (origin?_eq_some hs.compiles hfits.1 hplanned hstaged hresolved)
  have hdescribes : ∀ signatures resolved,
      Archiver.resolveSignatures s.contents p isExtension compiled = .ok (signatures, resolved) →
        ∀ signature ∈ signatures, s.contents.view.Describes signature :=
    fun _ _ hresolved signature hmem => hs.describes (hbounded hresolved signature hmem)
  obtain ⟨own, hown, haccepts, hview⟩ := Archiver.stagePipeline_own
    (Request.isBounded_given (r := .pipeline p backends) hfits.1) hstaged hdescribes
  refine ⟨pending, isExtension, compiled, own, hprepare, hcompiled, hown, haccepts, hview, ?_⟩
  intro name record hmade
  obtain ⟨signatures, _, hresolved, signature, hmem, hrecord⟩ :=
    Archiver.made_of_stagePipeline hown hmade
  refine ⟨signature, ?_, hrecord⟩
  -- the signatures are those that the session resolves, which fit
  obtain ⟨signatures', resolved', _, _, hresolved', -⟩ := Archiver.stagePipeline_spec hstaged
  obtain ⟨hsame, -⟩ :=
    Archiver.resolveSignatures_own hresolved' (hdescribes signatures' resolved' hresolved')
  cases hresolved.symm.trans hsame
  exact hbounded hresolved' signature hmem

/-! ## Runs that fit -/

/-- What is archived stays laid out for its signatures if no signature is made. -/
theorem Settled.describes_add_given (hs : s.Settled native) {r : Request} (hr : isBounded r)
    (hdefault : r.defaultName? = none) (hkey : r.key? = none) {staging : Option Staging}
    (h : r.plan native s.contents = .ok staging) {signature : Signature}
    (hsignature : isBounded signature) : (s.contents.view.add staging).Describes signature := by
  have hready : s.contents.view.Ready r := by
    refine ⟨fun signature hmem => hs.describes (Request.isBounded_given hr signature hmem), ?_, ?_⟩
    · rw [hdefault]
      rintro _ ⟨⟩
    · rw [hkey]
      rintro _ ⟨⟩
  obtain ⟨own, -, hadds, haccepts, hview⟩ := Request.plan_own hr hready h
  rw [hview]
  refine (hs.describes hsignature).commit haccepts
    (fun record hrecord => hadds.describes hr hsignature hrecord) ?_
  intro record hmade
  have hsome : (own.made? signature.name).isSome := by rw [hmade]; rfl
  have hname := hadds.defaultName?_of_made hsome
  cases hdefault.symm.trans hname

/-- What is archived stays laid out for its signatures, whatever a request that fits adds. -/
theorem Settled.describes_add (hs : s.Settled native) {r : Request} (hfits : s.Fits r)
    {staging : Option Staging} (h : r.plan native s.contents = .ok staging) {signature : Signature}
    (hsignature : isBounded signature) : (s.contents.view.add staging).Describes signature := by
  cases r with
  | signature given backends => exact hs.describes_add_given hfits.1 rfl rfl h hsignature
  | renderPass pass => exact hs.describes_add_given hfits.1 rfl rfl h hsignature
  | pipeline p backends =>
    -- a pipeline may take the place of its own signature, so the archive need not be ready for it
    cases staging with
    | none => exact hs.describes hsignature
    | some staging =>
      obtain ⟨pending, _, compiled, own, -, hcompiled, hown, haccepts, hview, hmade⟩ :=
        hs.plan_pipeline hfits h
      have hadds := Archiver.adds_of_stagePipeline hfits.1
        (Archiver.map_backend_compileAll hcompiled) hown
      rw [View.add, hview]
      refine (hs.describes hsignature).commit haccepts
        (fun record hrecord => hadds.describes hfits.1 hsignature hrecord) ?_
      -- a signature that is made can be counted too, so its encoding tells it
      intro record hrecord hcommon
      obtain ⟨made, hbounded, hdescribes⟩ := hmade _ record hrecord
      obtain rfl := SelfDelimiting.encode_inj hbounded hsignature
        (hdescribes.common.symm.trans hcommon)
      exact hdescribes

/-- The view after a request that fits. -/
theorem Settled.view_perform (hs : s.Settled native) {r : Request} (hr : isBounded r)
    {staging : Option Staging} (h : r.plan native s.contents = .ok staging) :
    (s.perform r).contents.view = s.contents.view.add staging := by
  obtain ⟨hfollows, -⟩ := follows_plan hs.compiles hr
  rw [h] at hfollows
  cases hfollows with
  | ok _ hcontents => rw [hcontents, Request.view_add hs.grounded h]

theorem Settled.perform (hs : s.Settled native) {r : Request} (hfits : s.Fits r) :
    (s.perform r).Settled native := by
  obtain ⟨hfollows, hcompiles⟩ := follows_plan hs.compiles hfits.1
  refine ⟨hcompiles, Archiver.grounded_perform hs.grounded s.state r, fun hsignature => ?_⟩
  cases hplan : r.plan native s.contents with
  | error e =>
    rw [hplan] at hfollows
    cases hfollows with
    | error _ hsame =>
      rw [Session.contents, hsame]
      exact hs.describes hsignature
  | ok staging =>
    rw [hs.view_perform hfits.1 hplan]
    exact hs.describes_add hfits hplan hsignature

theorem Settled.run (hs : s.Settled native) {requests : List Request}
    (hfits : s.Throughout Fits requests) : (s.run requests).Settled native := by
  -- each request fits the session that the earlier ones lead to
  induction requests generalizing s with
  | nil => exact hs
  | cons r rest ih => exact ih (hs.perform hfits.1) hfits.2

end Session

end PipelineArchive
