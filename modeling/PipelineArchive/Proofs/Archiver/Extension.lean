import PipelineArchive.Proofs.Archiver.Settled

/-!
# Adding a pipeline for more backends

A pipeline that is added for further backends is compiled for all its backends anew, and what it
adds takes the place of what it added before. Nothing is left of the first time: what it adds for
all the backends covers what it added for some (`covers_of_adds`), so that adding it in two steps
leads to the same contents as adding it at once (`extend_backends`). For backends that it is
archived for a pipeline adds nothing at all (`perform_eq_self`).
-/

set_option autoImplicit false

namespace PipelineArchive

open Results

/-! ## The backends of an archived pipeline -/

namespace View

/-- The backends that a pipeline is archived for. -/
def archivedFor (v : View) (p : Pipeline) : BackendSet :=
  ((v.pipeline (p.chunk, p.name)).map (·.backends)).getD .empty

/-- What is archived under the key of a pipeline, if anything is, has its source. -/
def HasSource (v : View) (p : Pipeline) : Prop :=
  ∀ entry, v.pipeline (p.chunk, p.name) = some entry → entry.source = p.source

end View

theorem ArchivedPipeline.backends_mapDevice {δ ε : Type} (f : Backend → δ → ε)
    (p : ArchivedPipeline δ) : (p.mapDevice f).backends = p.backends := by
  simp only [backends, PerBackend.present, mapDevice, PerBackend.get_ofFn, Option.isSome_map]

namespace Archiver

variable {native : Native} {c : Contents} {p : Pipeline}

/-- A pipeline is pending for the backends that are asked for and those it is archived for, unless
these include the others. -/
theorem pendingBackends_eq_ok_iff {backends : BackendSet} (hbackends : backends.isEmpty = false)
    {pending : Option (BackendSet × Bool)} : pendingBackends c p backends = .ok pending ↔
      c.view.HasSource p ∧ pending =
        if (c.view.archivedFor p).includes backends then none
        else some (backends.union (c.view.archivedFor p),
          (c.view.pipeline (p.chunk, p.name)).isSome) := by
  have hview : c.view.pipeline (p.chunk, p.name) =
      (c.pipeline? p.chunk p.name).map (·.resolved c.shaders) := rfl
  unfold pendingBackends View.HasSource View.archivedFor
  rw [hview]
  cases c.pipeline? p.chunk p.name with
  | none =>
    simp only [Option.map_none, Option.getD_none, BackendSet.empty_includes, hbackends,
      BackendSet.union_empty]
    exact ⟨fun h => ⟨by rintro _ ⟨⟩, (Except.ok.inj h).symm⟩, fun h => congrArg Except.ok h.2.symm⟩
  | some record =>
    have hsource : (record.resolved c.shaders).source = record.source := rfl
    have hset : (record.resolved c.shaders).backends = record.backends :=
      record.backends_mapDevice _
    simp only [Option.map_some, Option.getD_some, hset, Option.some.injEq, forall_eq', hsource,
      Option.isSome_some]
    by_cases hsame : record.source = p.source
    · rw [if_neg (not_not.2 hsame)]
      split
      · exact ⟨fun h => ⟨hsame, (Except.ok.inj h).symm⟩, fun h => congrArg Except.ok h.2.symm⟩
      · exact ⟨fun h => ⟨hsame, (Except.ok.inj h).symm⟩, fun h => congrArg Except.ok h.2.symm⟩
    · rw [if_pos hsame]
      exact iff_of_false (by rintro ⟨⟩) fun h => hsame h.1

/-- A pipeline for which nothing is pending is archived for all backends that are asked for. -/
theorem includes_of_preparePipeline {backends : BackendSet}
    (h : preparePipeline c p backends = .ok none) : (c.view.archivedFor p).includes backends := by
  obtain ⟨-, hbackends, hpending⟩ := preparePipeline_eq_ok_iff.1 h
  obtain ⟨-, hnone⟩ := (pendingBackends_eq_ok_iff hbackends).1 hpending
  by_contra hmissing
  rw [if_neg hmissing] at hnone
  cases hnone

/-- What a pipeline adds to a new archive depends on the members of a set of backends alone. -/
theorem planPipeline_congr {backends backends' : BackendSet}
    (h : backends.toList = backends'.toList) {own own' : Staging}
    (hown : planPipeline native .empty p backends = .ok (some own))
    (hown' : planPipeline native .empty p backends' = .ok (some own')) : own = own' := by
  obtain ⟨-, compiled, _, hcompiled, hs, ⟨⟩⟩ := (planPipeline_of_new rfl).1 hown
  obtain ⟨-, compiled', _, hcompiled', hs', ⟨⟩⟩ := (planPipeline_of_new rfl).1 hown'
  rw [h] at hcompiled
  cases hcompiled.symm.trans hcompiled'
  exact Except.ok.inj (hs.symm.trans hs')

end Archiver

/-- What a pipeline adds for more backends covers what it adds for less. -/
theorem Request.covers_of_adds {p : Pipeline} {backends more : BackendSet} {s t : Staging}
    (hs : (pipeline p backends).Adds s) (ht : (pipeline p more).Adds t)
    (h : backends.toList ⊆ more.toList) : t.Covers s where
  signature {name r} hr := by
    rw [hs.signature] at hr
    obtain ⟨given, hgiven, rfl⟩ := Option.map_eq_some_iff.1 hr
    refine ⟨Archiver.recordOf given more.toList, ?_, Archiver.merge_recordOf h⟩
    rw [ht.signature]
    exact Option.map_eq_some_iff.2 ⟨given, hgiven, rfl⟩
  made {name} hnone := by
    rw [Staging.made?, Staging.entryAt_eq_none_iff, ht.made] at hnone
    rw [Staging.made?, Staging.entryAt_eq_none_iff, hs.made]
    split
    · rename_i hsome
      obtain ⟨b, hb, hgl⟩ := List.any_eq_true.1 hsome
      have hmore : ((pipeline p more).backends.any fun b => !b.isGl) = true :=
        List.any_eq_true.2 ⟨b, h hb, hgl⟩
      rwa [if_pos hmore] at hnone
    · rintro ⟨⟩
  renderPass {name desc} hdesc := by
    rw [Staging.renderPass?, hs.renderPass] at hdesc
    rw [Staging.renderPass?, ht.renderPass]
    exact hdesc
  pipeline {key} hnone := by
    rw [Staging.pipeline?, Staging.entryAt_eq_none_iff, ht.pipeline] at hnone
    rw [Staging.pipeline?, Staging.entryAt_eq_none_iff, hs.pipeline]
    exact hnone

/-! ## Extending a pipeline -/

namespace View

open BackendSet

/-- A staged pipeline is archived with the shaders that are staged. -/
theorem pipeline_commit (v : View) {s : Staging} {key : PipelineKey}
    {entry : ArchivedPipeline PatchedPipeline} (h : s.pipeline = some (key, entry)) :
    (v.commit s).pipeline key = some entry.staged := by
  simp [commit, Staging.pipeline?, h, Staging.entryAt]

/-- The view after a pipeline is added for some backends: as it was if the pipeline is archived for
them, and otherwise with what the pipeline adds to a new archive for all its backends. -/
structure Extends (native : Native) (p : Pipeline) (backends : BackendSet) (v v' : View) :
    Prop where
  check : p.check = .ok ()
  isEmpty : backends.isEmpty = false
  hasSource : v'.HasSource p
  contains (b : Backend) : (v'.archivedFor p).contains b =
    (backends.union (v.archivedFor p)).contains b
  same : (v.archivedFor p).includes backends → v' = v
  adds : (v.archivedFor p).includes backends = false → ∃ own,
    Archiver.planPipeline native .empty p (backends.union (v.archivedFor p)) = .ok (some own) ∧
    (Request.pipeline p (backends.union (v.archivedFor p))).Adds own ∧ v' = v.commit own

variable {native : Native} {p : Pipeline} {backends more : BackendSet} {v v₁ v₂ v' : View}

/-- Adding a pipeline in two steps shows the same as adding it at once. -/
theorem Extends.comp (hfirst : v.Extends native p backends v₁)
    (hsecond : v₁.Extends native p more v₂)
    (hboth : v.Extends native p (backends.union more) v') : v₂ = v' := by
  cases hincludes : (v.archivedFor p).includes backends with
  | true =>
    -- the first step adds nothing, and both start from the same view
    obtain rfl := hfirst.same hincludes
    cases hmore : (v₁.archivedFor p).includes more with
    | true =>
      have hall : (v₁.archivedFor p).includes (backends.union more) = true := by
        rw [includes_union, hincludes, hmore, Bool.and_true]
      rw [hsecond.same hmore, hboth.same hall]
    | false =>
      obtain ⟨own, hown, -, rfl⟩ := hsecond.adds hmore
      obtain ⟨own', hown', -, rfl⟩ := hboth.adds (by rw [includes_union, hmore, Bool.and_false])
      refine congrArg v₁.commit (Archiver.planPipeline_congr (toList_congr fun b => ?_) hown hown')
      have hmem : backends.contains b → (v₁.archivedFor p).contains b :=
        contains_of_includes hincludes
      grind [contains_union]
  | false =>
    obtain ⟨own, hown, hadds, rfl⟩ := hfirst.adds hincludes
    obtain ⟨own', hown', hadds', rfl⟩ :=
      hboth.adds (by rw [includes_union, hincludes, Bool.false_and])
    have hmem (b : Backend) : ((v.commit own).archivedFor p).contains b =
        (backends.contains b || (v.archivedFor p).contains b) :=
      (hfirst.contains b).trans (contains_union _ _ b)
    cases hmore : ((v.commit own).archivedFor p).includes more with
    | true =>
      -- the second step adds nothing, and the first is for all the backends already
      rw [hsecond.same hmore]
      refine congrArg v.commit (Archiver.planPipeline_congr (toList_congr fun b => ?_) hown hown')
      have hmoreMem : more.contains b → ((v.commit own).archivedFor p).contains b :=
        contains_of_includes hmore
      grind [contains_union]
    | false =>
      -- the second step adds what both would, and that covers what the first adds
      obtain ⟨own₂, hown₂, -, rfl⟩ := hsecond.adds hmore
      obtain rfl : own₂ = own' := by
        refine Archiver.planPipeline_congr (toList_congr fun b => ?_) hown₂ hown'
        grind [contains_union]
      refine commit_of_covers (Request.covers_of_adds hadds hadds' fun b hb => ?_) v
      rw [mem_toList] at hb ⊢
      grind [contains_union]

end View

namespace Session

variable {σ : Type} {native : Native} {s : Session σ} {p : Pipeline} {backends : BackendSet}

/-- A pipeline that is archived for all backends that are asked for leaves the view. -/
theorem extends_archived {c : Contents}
    (h : Archiver.preparePipeline c p backends = .ok none) :
    c.view.Extends native p backends c.view := by
  obtain ⟨hcheck, hbackends, hpending⟩ := Archiver.preparePipeline_eq_ok_iff.1 h
  obtain ⟨hsource, -⟩ := (Archiver.pendingBackends_eq_ok_iff hbackends).1 hpending
  have hincludes := Archiver.includes_of_preparePipeline h
  refine ⟨hcheck, hbackends, hsource, fun b => ?_, fun _ => rfl, fun h => ?_⟩
  · rw [BackendSet.contains_union]
    cases hb : backends.contains b with
    | false => rfl
    | true => exact BackendSet.contains_of_includes hincludes hb
  · cases hincludes.symm.trans h

/-- A pipeline that is not is compiled for all its backends, and archived for these. -/
theorem Settled.extends_planned (hs : s.Settled native) (hfits : s.Fits (.pipeline p backends))
    {staging : Staging}
    (h : Archiver.planPipeline native s.contents p backends = .ok (some staging)) :
    s.contents.view.Extends native p backends (s.contents.view.commit staging) := by
  obtain ⟨pending, isExtension, compiled, own, hprepare, hcompiled, hown, -, hview, -⟩ :=
    hs.plan_pipeline hfits h
  obtain ⟨hcheck, hbackends, hpending⟩ := Archiver.preparePipeline_eq_ok_iff.1 hprepare
  obtain ⟨-, hsome⟩ := (Archiver.pendingBackends_eq_ok_iff hbackends).1 hpending
  have hincludes : (s.contents.view.archivedFor p).includes backends = false := by
    by_contra h
    rw [if_pos (by simpa using h)] at hsome
    cases hsome
  rw [hincludes] at hsome
  cases hsome
  obtain ⟨entry, hentry, hsource, hdevice⟩ := Archiver.pipeline_of_stagePipeline hown
  have hbackendsOf := Archiver.map_backend_compileAll hcompiled
  have hpipeline := View.pipeline_commit s.contents.view hentry
  rw [hview]
  refine ⟨hcheck, hbackends, ?_, fun b => ?_, fun h => ?_, fun _ => ⟨own, ?_, ?_, rfl⟩⟩
  · intro e he
    obtain rfl := Option.some.inj (hpipeline.symm.trans he)
    exact hsource
  · rw [View.archivedFor, hpipeline, Option.map_some, Option.getD_some, Bool.eq_iff_iff,
      ArchivedPipeline.staged, ArchivedPipeline.backends_mapDevice, ArchivedPipeline.backends,
      BackendSet.contains_present, hdevice, hbackendsOf, BackendSet.mem_toList]
  · cases hincludes.symm.trans h
  · have hpendingEmpty : (backends.union (s.contents.view.archivedFor p)).isEmpty = false := by
      rw [BackendSet.isEmpty_union, hbackends, Bool.false_and]
    exact (Archiver.planPipeline_of_new rfl).2
      ⟨⟨hcheck, hpendingEmpty⟩, compiled, own, hcompiled, hown, rfl⟩
  · exact Archiver.adds_of_stagePipeline hfits.1 hbackendsOf hown

/-- A pipeline that is added to a settled session extends its view. -/
theorem Settled.extends (hs : s.Settled native) (hfits : s.Fits (.pipeline p backends))
    (hsucceeds : s.Succeeds (.pipeline p backends)) :
    s.contents.view.Extends native p backends
      (s.perform (.pipeline p backends)).contents.view := by
  obtain ⟨hfollows, -⟩ := follows_plan hs.compiles hfits.1
  cases hplan : (Request.pipeline p backends).plan native s.contents with
  | error e =>
    rw [hplan] at hfollows
    cases hfollows with
    | error hanswer _ => cases hanswer.symm.trans hsucceeds
  | ok staging =>
    rw [hs.view_perform hfits.1 hplan]
    cases staging with
    | none => exact extends_archived (Archiver.planPipeline_eq_none_iff.1 hplan)
    | some staging => exact hs.extends_planned hfits hplan

/-- A pipeline that is archived for all backends that are asked for changes nothing. -/
theorem perform_eq_self (h : Archiver.preparePipeline s.contents p backends = .ok none) :
    s.Succeeds (.pipeline p backends) ∧ s.perform (.pipeline p backends) = s := by
  have hcompiled : s.archiver.compilePipeline p backends s.state = (.ok none, s.state) := by
    simp only [Archiver.compilePipeline, h]
  have hadded : s.archiver.addPipeline p backends s.state = (.ok (), s.archiver, s.state) := by
    simp only [Archiver.addPipeline, hcompiled]
  constructor
  · rw [Succeeds, answer, hadded]
  · simp only [perform, Archiver.perform, hadded, origin?, Archiver.origin?, hcompiled]

/-- A pipeline may be added in two steps or at once, on an archiver with pure transcoders where
everything can be counted: the contents are the same up to the numbering of shaders. If the backends
of the second step are among those of the first then that changes nothing at all, neither the cache
nor the state of the transcoders. -/
theorem extend_backends {registry : Registry σ} (hpure : registry.IsPure) (config : Config)
    (state : σ) {requests : List Request} (p : Pipeline) (bs bs' : List Backend)
    (hrequests : (new registry config state).Throughout Fits requests)
    (hfits : ((new registry config state).run requests).Fits (.pipeline p (.ofList bs)))
    (hsucceeds : ((new registry config state).run requests).Succeeds (.pipeline p (.ofList bs))) :
    let before := (new registry config state).run requests
    let first := before.perform (.pipeline p (.ofList bs))
    let second := first.perform (.pipeline p (.ofList bs'))
    let bothTimes := Request.pipeline p ((BackendSet.ofList bs).union (.ofList bs'))
    (first.Fits (.pipeline p (.ofList bs')) → first.Succeeds (.pipeline p (.ofList bs')) →
      before.Fits bothTimes → before.Succeeds bothTimes →
      second.contents.SameAs (before.perform bothTimes).contents) ∧
    (bs' ≠ [] → bs' ⊆ bs → first.Succeeds (.pipeline p (.ofList bs')) ∧ second = first) := by
  intro before first second bothTimes
  -- all four sessions are settled, so their views tell what each step adds
  have hbefore := (settled_new hpure config state).run hrequests
  have hfirst := hbefore.perform hfits
  have hextends := hbefore.extends hfits hsucceeds
  constructor
  · intro hmoreFits hmoreSucceeds hbothFits hbothSucceeds
    refine Contents.sameAs_of_view_eq (hfirst.perform hmoreFits).grounded.toConsistent
      (hbefore.perform hbothFits).grounded.toConsistent ?_
    exact hextends.comp (hfirst.extends hmoreFits hmoreSucceeds)
      (hbefore.extends hbothFits hbothSucceeds)
  · intro hmore hsubset
    have hmoreEmpty : (BackendSet.ofList bs').isEmpty = false :=
      Bool.eq_false_iff.2 fun h => hmore (BackendSet.isEmpty_ofList.1 h)
    have hincludes : (first.contents.view.archivedFor p).includes (.ofList bs') := by
      refine BackendSet.includes_ofList.2 fun b hb => ?_
      rw [hextends.contains, BackendSet.contains_union,
        BackendSet.contains_ofList.2 (hsubset hb), Bool.true_or]
    have hpending : Archiver.pendingBackends first.contents p (.ofList bs') = .ok none :=
      (Archiver.pendingBackends_eq_ok_iff hmoreEmpty).2
        ⟨hextends.hasSource, (if_pos hincludes).symm⟩
    exact perform_eq_self
      (Archiver.preparePipeline_eq_ok_iff.2 ⟨hextends.check, hmoreEmpty, hpending⟩)

/-- A pipeline next to another one: it may be added for two backends at once, and adding it again
for one of them changes nothing. -/
theorem extend_backends_singleShader :
    let p := singleShader "P" .compute .compute
    let before := (new metalRegistry {} ()).run
      [.pipeline (singleShader "Q" .compute .compute) (.singleton .metalMacos)]
    let first := before.perform (.pipeline p (.ofList [.metalMacos]))
    (first.perform (.pipeline p (.ofList [.metalIos]))).contents.SameAs (before.perform (.pipeline p
      ((BackendSet.ofList [.metalMacos]).union (.ofList [.metalIos])))).contents ∧
    first.perform (.pipeline p (.ofList [.metalMacos])) = first := by
  intro p before first
  have hadded (bs' : List Backend) := extend_backends isPure_metalRegistry {} () p [.metalMacos] bs'
    (by decide +kernel : (new metalRegistry {} ()).Throughout Fits
      [.pipeline (singleShader "Q" .compute .compute) (.singleton .metalMacos)])
    (by decide +kernel) (by decide +kernel)
  exact ⟨(hadded [.metalIos]).1 (by decide +kernel) (by decide +kernel) (by decide +kernel)
      (by decide +kernel),
    ((hadded [.metalMacos]).2 (by decide) (by decide)).2⟩

end Session

end PipelineArchive
