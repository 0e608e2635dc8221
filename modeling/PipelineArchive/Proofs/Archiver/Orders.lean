import PipelineArchive.Proofs.Archiver.OwnPlans
import Mathlib.Data.List.Pairwise

/-!
# Requests in any order

Requests for pipelines of different names do not depend on one another: if they succeed in one
order, then in every order, and with the same contents up to the numbering of shaders
(`run_perm`). A run succeeds exactly if each request would alone, and no two have different
descriptions under one name (`concur_of_run`, `exists_run`); neither depends on the order. What
they add are compatible changes of the view (`Request.Adds.compatible`), and these commute.
-/

set_option autoImplicit false

namespace PipelineArchive

open Results

/-! ## Requests that take different names -/

theorem Signature.defaultName_injective {m n : String}
    (h : Signature.defaultName m = Signature.defaultName n) : m = n := by
  change "Default Signature of PSO '" ++ m ++ "'" = "Default Signature of PSO '" ++ n ++ "'" at h
  rw [String.append_left_inj, String.append_right_inj] at h
  exact h

/-- The name of the pipeline of a request. -/
def Request.pipelineName? : Request → Option String
  | .pipeline p _ => some p.name
  | .signature _ _ => none
  | .renderPass _ => none

/-- Two requests have no pipeline in common, and neither has a signature under a name that the
other takes for one that it makes. -/
structure Request.Separate (r t : Request) : Prop where
  key {key : PipelineKey} : r.key? = some key → t.key? ≠ some key
  made {name : String} : r.defaultName? = some name → t.defaultName? ≠ some name
  given {name : String} : r.defaultName? = some name → ∀ signature ∈ t.given, signature.name ≠ name
  given' {name : String} : t.defaultName? = some name → ∀ signature ∈ r.given, signature.name ≠ name

theorem Request.Separate.symm {r t : Request} (h : r.Separate t) : t.Separate r where
  key ht hr := h.key hr ht
  made ht hr := h.made hr ht
  given := h.given'
  given' := h.given

/-- No two descriptions are staged under one name. -/
structure Staging.Concurs (s t : Staging) : Prop where
  signature {name : String} {r r' : SignatureRecord} : s.signatures.lookup name = some r →
    t.signatures.lookup name = some r' → r.common = r'.common
  renderPass {name : String} {desc desc' : Bytes} : s.renderPass? name = some desc →
    t.renderPass? name = some desc' → desc = desc'

theorem Staging.Concurs.symm {s t : Staging} (h : s.Concurs t) : t.Concurs s where
  signature ht hs := (h.signature hs ht).symm
  renderPass ht hs := (h.renderPass hs ht).symm

namespace Request.Adds

variable {r r' : Request} {s t : Staging}

theorem key?_of_pipeline (h : r.Adds s) {key : PipelineKey} (hp : (s.pipeline? key).isSome) :
    r.key? = some key := h.pipeline.symm.trans (Staging.isSome_entryAt_iff.1 hp)

theorem pipeline?_eq_none (h : r.Adds s) {key : PipelineKey} (hkey : r.key? ≠ some key) :
    s.pipeline? key = none :=
  Staging.entryAt_eq_none_iff.2 fun hp => hkey (h.pipeline.symm.trans hp)

/-- No signature is made under a name that is not the default name. -/
theorem made?_eq_none (h : r.Adds s) {name : String} (hname : r.defaultName? ≠ some name) :
    s.made? name = none := by
  rw [← Option.not_isSome_iff_eq_none]
  exact fun hmade => hname (h.defaultName?_of_made hmade)

/-- Nothing is staged under a name that no given signature has. -/
theorem lookup_eq_none (h : r.Adds s) {name : String}
    (hname : ∀ signature ∈ r.given, signature.name ≠ name) : s.signatures.lookup name = none := by
  rw [h.signature, Option.map_eq_none_iff, List.find?_eq_none]
  simpa using hname

/-- What separate requests add is compatible if it has one description under every name. -/
theorem compatible (hs : r.Adds s) (ht : r'.Adds t) (hr : isBounded r) (hr' : isBounded r')
    (hseparate : r.Separate r') (hconcurs : s.Concurs t) : s.Compatible t where
  signature {name record record'} hrecord hrecord' := by
    have hcommon := hconcurs.signature hrecord hrecord'
    obtain ⟨given, hgiven, -, rfl⟩ := hs.record hrecord
    obtain ⟨given', hgiven', -, rfl⟩ := ht.record hrecord'
    obtain rfl := SelfDelimiting.encode_inj (isBounded_given hr given hgiven)
      (isBounded_given hr' given' hgiven') hcommon
    refine ⟨rfl, fun {b data data'} hdata hdata' => ?_⟩
    have hlaidOut := (Archiver.describes_recordOf given _).data hdata
    exact Except.ok.inj (hlaidOut.symm.trans ((Archiver.describes_recordOf given _).data hdata'))
  made name hmade := by
    have hname := hs.defaultName?_of_made hmade
    exact ⟨ht.made?_eq_none (hseparate.made hname), ht.lookup_eq_none (hseparate.given hname)⟩
  given name hmade := by
    have hname := ht.defaultName?_of_made hmade
    exact ⟨hs.made?_eq_none fun hmade' => hseparate.made hmade' hname,
      hs.lookup_eq_none (hseparate.given' hname)⟩
  renderPass := hconcurs.renderPass
  pipeline key hp := ht.pipeline?_eq_none (hseparate.key (hs.key?_of_pipeline hp))

end Request.Adds

namespace View

variable {v : View} {r r' : Request} {s t : Staging}

/-- Records of one description are merged to one that has it. -/
theorem common_merge_iff {archived staged : Option SignatureRecord} {common : Bytes}
    (h : ∀ a q, archived = some a → staged = some q → a.common = q.common) :
    (∀ x, archived.merge SignatureRecord.merge staged = some x → x.common = common) ↔
      (∀ a, archived = some a → a.common = common) ∧ ∀ q, staged = some q → q.common = common := by
  cases archived with
  | none => simp
  | some a =>
    cases staged with
    | none => simp
    | some q =>
      have hsame := h a q rfl rfl
      simp [SignatureRecord.merge, ← hsame]

theorem eq_or_iff {archived staged : Option Bytes} {desc : Bytes}
    (h : ∀ a q, archived = some a → staged = some q → a = q) :
    (∀ x, archived.or staged = some x → x = desc) ↔
      (∀ a, archived = some a → a = desc) ∧ ∀ q, staged = some q → q = desc := by
  cases archived with
  | none => simp
  | some a =>
    cases staged with
    | none => simp
    | some q =>
      have hsame := h a q rfl rfl
      simp [← hsame]

/-- After a commit another staging is accepted if it was before and concurs with the first. -/
theorem accepts_commit_iff (hs : v.Accepts s)
    (hmade : ∀ name, (t.signatures.lookup name).isSome → s.made? name = none) :
    (v.commit s).Accepts t ↔ v.Accepts t ∧ s.Concurs t := by
  have hsignature {name : String} {r : SignatureRecord} (hr : t.signatures.lookup name = some r) :
      (∀ x, (v.commit s).signature name = some x → x.common = r.common) ↔
        (∀ a, v.signature name = some a → a.common = r.common) ∧
        ∀ q, s.signatures.lookup name = some q → q.common = r.common := by
    rw [← common_merge_iff fun a q ha hq => hs.signature hq ha]
    simp only [View.commit, hmade name (by rw [hr]; rfl), Option.none_or]
  have hrenderPass {name : String} {desc : Bytes} :
      (∀ x, (v.commit s).renderPass name = some x → x = desc) ↔
        (∀ a, v.renderPass name = some a → a = desc) ∧
        ∀ q, s.renderPass? name = some q → q = desc :=
    eq_or_iff fun a q ha hq => hs.renderPass hq ha
  constructor
  · intro h
    exact ⟨⟨fun hr ha => ((hsignature hr).1 fun x hx => h.signature hr hx).1 _ ha,
        fun hdesc ha => (hrenderPass.1 fun x hx => h.renderPass hdesc hx).1 _ ha⟩,
      ⟨fun hq hr => ((hsignature hr).1 fun x hx => h.signature hr hx).2 _ hq,
        fun hq hdesc => (hrenderPass.1 fun x hx => h.renderPass hdesc hx).2 _ hq⟩⟩
  · rintro ⟨haccepts, hconcurs⟩
    exact ⟨fun hr hx => (hsignature hr).2
        ⟨fun a ha => haccepts.signature hr ha, fun q hq => hconcurs.signature hq hr⟩ _ hx,
      fun hdesc hx => hrenderPass.2
        ⟨fun a ha => haccepts.renderPass hdesc ha, fun q hq => hconcurs.renderPass hq hdesc⟩ _ hx⟩

/-- A commit leaves a view ready for a separate request. -/
theorem Ready.commit (h : v.Ready r') (hs : r.Adds s) (hr : isBounded r) (hr' : isBounded r')
    (haccepts : v.Accepts s) (hseparate : r.Separate r') : (v.commit s).Ready r' where
  describes signature hmem := by
    refine (h.describes signature hmem).commit haccepts
      (fun record hrecord =>
        hs.describes hr (Request.isBounded_given hr' signature hmem) hrecord) ?_
    intro record hmade
    have hsome : (s.made? signature.name).isSome := by rw [hmade]; rfl
    have hname := hs.defaultName?_of_made hsome
    exact absurd rfl (hseparate.given hname signature hmem)
  made name hname := by
    have hmade : s.made? name = none :=
      hs.made?_eq_none fun hmade => hseparate.made hmade hname
    simp only [View.commit, hmade, h.made name hname, hs.lookup_eq_none (hseparate.given' hname)]
    rfl
  pipeline key hkey := by
    have hp : s.pipeline? key = none :=
      hs.pipeline?_eq_none fun hp => hseparate.key hp hkey
    simp only [View.commit, hp, h.pipeline key hkey]
    rfl

end View

/-! ## One request -/

namespace Request

variable {native : Native} {c : Contents} {r : Request}

/-- What a request adds to a new archive if it succeeds there. -/
def own (native : Native) (r : Request) : Staging :=
  match r.plan native .empty with
  | .ok (some s) => s
  | _ => {}

/-- A request succeeds on its own. -/
def IsSound (native : Native) (r : Request) : Prop :=
  r.plan native .empty = .ok (some (r.own native))

/-- A request that succeeds does so on its own too, and changes the view by what it adds then. -/
theorem isSound_of_plan (hc : c.Grounded) (hr : isBounded r) (hready : c.view.Ready r)
    {c' : Contents} (h : (r.plan native c).map c.add = .ok c') :
    r.IsSound native ∧ c.view.Accepts (r.own native) ∧ c'.Grounded ∧
      c'.view = c.view.commit (r.own native) := by
  obtain ⟨staging, hplan, rfl⟩ := map_eq_ok_iff.1 h
  obtain ⟨own, hown, -, haccepts, hview⟩ := plan_own hr hready hplan
  have heq : r.own native = own := by rw [Request.own, hown]
  rw [IsSound, heq]
  exact ⟨hown, haccepts, grounded_add hc hplan, (view_add hc hplan).trans hview⟩

/-- A request that succeeds on its own does so wherever it is accepted. -/
theorem IsSound.exists_plan (h : r.IsSound native) (hr : isBounded r) (hready : c.view.Ready r)
    (haccepts : c.view.Accepts (r.own native)) : ∃ c', (r.plan native c).map c.add = .ok c' := by
  obtain ⟨staging, hstaging⟩ := Request.exists_plan hr hready h haccepts
  exact ⟨c.add staging, map_eq_ok_iff.2 ⟨staging, hstaging, rfl⟩⟩

/-- What a separate request adds does not stand in the way of another one. -/
theorem IsSound.accepts_commit_iff {v : View} {t : Request} (h : r.IsSound native)
    (ht : t.IsSound native) (hr : isBounded r) (htBounded : isBounded t)
    (haccepts : v.Accepts (r.own native)) (hseparate : r.Separate t) :
    (v.commit (r.own native)).Accepts (t.own native) ↔
      v.Accepts (t.own native) ∧ (r.own native).Concurs (t.own native) := by
  refine View.accepts_commit_iff haccepts fun name hsome => ?_
  refine (adds_of_plan hr h).made?_eq_none fun hname => ?_
  rw [(adds_of_plan htBounded ht).lookup_eq_none (hseparate.given hname)] at hsome
  cases hsome

end Request

/-! ## Runs -/

/-- Requests that all succeed on their own, with no two descriptions under one name. -/
structure Concur (native : Native) (v : View) (requests : List Request) : Prop where
  isSound : ∀ r ∈ requests, r.IsSound native
  accepts : ∀ r ∈ requests, v.Accepts (r.own native)
  concurs : requests.Pairwise fun r t => (r.own native).Concurs (t.own native)

section

variable {native : Native} {c : Contents} {requests : List Request}

/-- What a run leaves behind: everything that its requests add on their own. -/
theorem concur_of_run (hc : c.Grounded) (hbounded : ∀ r ∈ requests, isBounded r)
    (hready : ∀ r ∈ requests, c.view.Ready r) (hseparate : requests.Pairwise Request.Separate)
    {c' : Contents}
    (h : requests.foldlM (fun c r => (r.plan native c).map c.add) c = .ok c') :
    Concur native c.view requests ∧ c'.Grounded ∧
      c'.view = requests.foldl (fun v r => v.commit (r.own native)) c.view := by
  induction requests generalizing c with
  | nil =>
    cases h
    exact ⟨⟨by simp, by simp, .nil⟩, hc, rfl⟩
  | cons r rest ih =>
    obtain ⟨hr, hrest⟩ := List.forall_mem_cons.1 hbounded
    obtain ⟨hrReady, hrestReady⟩ := List.forall_mem_cons.1 hready
    obtain ⟨hrSeparate, hrestSeparate⟩ := List.pairwise_cons.1 hseparate
    rw [List.foldlM_cons] at h
    obtain ⟨next, hnext, h⟩ := bind_eq_ok_iff.1 h
    obtain ⟨hsound, haccepts, hgrounded, hview⟩ := Request.isSound_of_plan hc hr hrReady hnext
    -- the first request leaves the archive ready for the others, since they are separate from it
    have hready : ∀ t ∈ rest, next.view.Ready t := fun t ht => hview ▸
      (hrestReady t ht).commit (Request.adds_of_plan hr hsound) hr (hrest t ht) haccepts
        (hrSeparate t ht)
    obtain ⟨hconcur, hgrounded, hview'⟩ := ih hgrounded hrest hready hrestSeparate h
    have hboth (t : Request) (ht : t ∈ rest) := (hsound.accepts_commit_iff (hconcur.isSound t ht) hr
      (hrest t ht) haccepts (hrSeparate t ht)).1 (hview ▸ hconcur.accepts t ht)
    refine ⟨⟨?_, ?_, ?_⟩, hgrounded, ?_⟩
    · exact List.forall_mem_cons.2 ⟨hsound, hconcur.isSound⟩
    · exact List.forall_mem_cons.2 ⟨haccepts, fun t ht => (hboth t ht).1⟩
    · exact List.pairwise_cons.2 ⟨fun t ht => (hboth t ht).2, hconcur.concurs⟩
    · rw [hview', hview, List.foldl_cons]

/-- Requests that concur run to the end. -/
theorem exists_run (hc : c.Grounded) (hbounded : ∀ r ∈ requests, isBounded r)
    (hready : ∀ r ∈ requests, c.view.Ready r) (hseparate : requests.Pairwise Request.Separate)
    (hconcur : Concur native c.view requests) :
    ∃ c', requests.foldlM (fun c r => (r.plan native c).map c.add) c = .ok c' := by
  induction requests generalizing c with
  | nil => exact ⟨c, rfl⟩
  | cons r rest ih =>
    obtain ⟨hr, hrest⟩ := List.forall_mem_cons.1 hbounded
    obtain ⟨hrReady, hrestReady⟩ := List.forall_mem_cons.1 hready
    obtain ⟨hrSeparate, hrestSeparate⟩ := List.pairwise_cons.1 hseparate
    obtain ⟨hsound, hrestSound⟩ := List.forall_mem_cons.1 hconcur.isSound
    obtain ⟨haccepts, hrestAccepts⟩ := List.forall_mem_cons.1 hconcur.accepts
    obtain ⟨hrConcurs, hrestConcurs⟩ := List.pairwise_cons.1 hconcur.concurs
    obtain ⟨next, hnext⟩ := hsound.exists_plan hr hrReady haccepts
    obtain ⟨-, -, hgrounded, hview⟩ := Request.isSound_of_plan hc hr hrReady hnext
    have hready : ∀ t ∈ rest, next.view.Ready t := fun t ht => hview ▸
      (hrestReady t ht).commit (Request.adds_of_plan hr hsound) hr (hrest t ht) haccepts
        (hrSeparate t ht)
    have hconcur : Concur native next.view rest := by
      refine ⟨hrestSound, fun t ht => ?_, hrestConcurs⟩
      rw [hview]
      exact (hsound.accepts_commit_iff (hrestSound t ht) hr (hrest t ht) haccepts
        (hrSeparate t ht)).2 ⟨hrestAccepts t ht, hrConcurs t ht⟩
    obtain ⟨c', hc'⟩ := ih hgrounded hrest hready hrestSeparate hconcur
    exact ⟨c', bind_eq_ok_iff.2 ⟨next, hnext, hc'⟩⟩

theorem Concur.perm {v : View} {requests' : List Request} (h : Concur native v requests)
    (hperm : requests.Perm requests') : Concur native v requests' where
  isSound r hr := h.isSound r (hperm.mem_iff.2 hr)
  accepts r hr := h.accepts r (hperm.mem_iff.2 hr)
  concurs := (hperm.pairwise_iff Staging.Concurs.symm).1 h.concurs

/-- What concurring requests add does not depend on their order. -/
theorem Concur.foldl_eq {v : View} {requests' : List Request} (h : Concur native v requests)
    (hbounded : ∀ r ∈ requests, isBounded r) (hseparate : requests.Pairwise Request.Separate)
    (hperm : requests.Perm requests') :
    requests.foldl (fun v r => v.commit (r.own native)) v =
      requests'.foldl (fun v r => v.commit (r.own native)) v := by
  have hpairs := hseparate.and h.concurs
  have hsymm : Std.Symm fun r t : Request =>
      r.Separate t ∧ (r.own native).Concurs (t.own native) := ⟨fun r t h => ⟨h.1.symm, h.2.symm⟩⟩
  refine hperm.foldl_eq' (fun r hr t ht w => ?_) v
  -- a request may occur twice if it is for no pipeline, and then its places may be swapped
  by_cases heq : r = t
  · rw [heq]
  · obtain ⟨hseparate, hconcurs⟩ := hpairs.forall hr ht heq
    exact View.commit_comm ((Request.adds_of_plan (hbounded r hr) (h.isSound r hr)).compatible
      (Request.adds_of_plan (hbounded t ht) (h.isSound t ht)) (hbounded r hr) (hbounded t ht)
      hseparate hconcurs) w

end

namespace Request

variable {r : Request}

theorem pipelineName?_of_key? {key : PipelineKey} (h : r.key? = some key) :
    r.pipelineName? = some key.2 := by
  cases r with
  | pipeline p backends => cases h; rfl
  | signature signature backends => cases h
  | renderPass pass => cases h

theorem pipelineName?_of_defaultName? {name : String} (h : r.defaultName? = some name) :
    ∃ pipeline, r.pipelineName? = some pipeline ∧ name = Signature.defaultName pipeline := by
  cases r with
  | pipeline p backends =>
    simp only [defaultName?] at h
    split at h
    · cases h
      exact ⟨p.name, rfl, rfl⟩
    · cases h
  | signature signature backends => cases h
  | renderPass pass => cases h

/-- Pipelines of different names make requests separate, unless a signature is given the name of
one that is made. -/
theorem pairwise_separate {requests : List Request}
    (hnames : (requests.filterMap pipelineName?).Nodup)
    (hgiven : ∀ r ∈ requests, ∀ t ∈ requests, ∀ signature ∈ t.given,
      r.defaultName? ≠ some signature.name) : requests.Pairwise Separate := by
  refine (List.pairwise_filterMap.1 hnames).imp_of_mem fun {r t} hr ht hne => ?_
  refine ⟨fun {key} hrKey htKey => ?_, fun {name} hrName htName => ?_,
    fun hname signature hmem heq => hgiven r hr t ht signature hmem (heq ▸ hname),
    fun hname signature hmem heq => hgiven t ht r hr signature hmem (heq ▸ hname)⟩
  · exact hne _ (pipelineName?_of_key? hrKey) _ (pipelineName?_of_key? htKey) rfl
  · obtain ⟨m, hm, rfl⟩ := pipelineName?_of_defaultName? hrName
    obtain ⟨n, hn, heq⟩ := pipelineName?_of_defaultName? htName
    exact hne m hm n hn (Signature.defaultName_injective heq)

end Request

namespace Session

variable {σ : Type}

/-- If requests whose pipelines have different names all succeed on a new archiver with pure
transcoders, then they do so in every order, and the contents are the same in the end up to the
numbering of shaders. No signature may be given the name of one that is made for a pipeline. -/
theorem run_perm {registry : Registry σ} (hpure : registry.IsPure) (config : Config) (state : σ)
    {requests requests' : List Request} (hperm : requests.Perm requests')
    (hbounded : ∀ r ∈ requests, isBounded r)
    (hnames : (requests.filterMap Request.pipelineName?).Nodup)
    (hgiven : ∀ r ∈ requests, ∀ t ∈ requests, ∀ signature ∈ t.given,
      r.defaultName? ≠ some signature.name)
    (hsucceeds : (new registry config state).Throughout Succeeds requests) :
    (new registry config state).Throughout Succeeds requests' ∧
      ((new registry config state).run requests).contents.SameAs
        ((new registry config state).run requests').contents := by
  have hcompiles := Archiver.compiles_new hpure config state
  have hseparate := Request.pairwise_separate hnames hgiven
  have hready (requests : List Request) : ∀ r ∈ requests, Contents.empty.view.Ready r :=
    fun r _ => View.ready_empty r
  have hrun := (run_succeeds_iff (s := new registry config state) hcompiles hbounded).1
    ⟨hsucceeds, rfl⟩
  obtain ⟨hconcur, hgrounded, hview⟩ :=
    concur_of_run Contents.grounded_empty hbounded (hready requests) hseparate hrun
  -- the order matters neither to what is asked of the requests nor to what they add
  have hbounded' : ∀ r ∈ requests', isBounded r := fun r hr => hbounded r (hperm.mem_iff.2 hr)
  have hseparate' := (hperm.pairwise_iff Request.Separate.symm).1 hseparate
  obtain ⟨c', hrun'⟩ := exists_run Contents.grounded_empty hbounded' (hready requests') hseparate'
    (hconcur.perm hperm)
  obtain ⟨hsucceeds', rfl⟩ :=
    (run_succeeds_iff (s := new registry config state) hcompiles hbounded').2 hrun'
  obtain ⟨-, hgrounded', hview'⟩ :=
    concur_of_run Contents.grounded_empty hbounded' (hready requests') hseparate' hrun'
  refine ⟨hsucceeds', Contents.sameAs_of_view_eq hgrounded.toConsistent hgrounded'.toConsistent ?_⟩
  rw [hview, hview', hconcur.foldl_eq hbounded hseparate hperm]

/-- A signature that is given for a pipeline and on its own, for different backends, and a pipeline
for which one is made. -/
def sharedSignature : List Request :=
  let shared : Signature := ⟨"S", 0, [], []⟩
  [.signature shared (.singleton .metalIos),
    .pipeline ⟨⟨"P", {}, [shared]⟩, .compute ⟨"shader", .compute, "main", .hlsl "", []⟩⟩
      (.singleton .metalMacos),
    .pipeline (singleShader "Q" .compute .compute) (.singleton .metalMacos)]

/-- The pipelines may be added first. -/
theorem run_reverse_sharedSignature :
    (new metalRegistry {} ()).Throughout Succeeds sharedSignature.reverse ∧
      ((new metalRegistry {} ()).run sharedSignature).contents.SameAs
        ((new metalRegistry {} ()).run sharedSignature.reverse).contents :=
  run_perm isPure_metalRegistry {} () (List.reverse_perm sharedSignature).symm (by decide)
    (by decide) (by decide) (by decide +kernel)

end Session

end PipelineArchive
