import PipelineArchive.Proofs.Archiver.OwnSignatures
import PipelineArchive.Proofs.Masks

/-!
# What an item adds to a new archive

If the data that are archived of its signatures are those that are laid out for them, then what an
item adds to an archive is what it adds to a new one, provided that the archive has no other
description under the names that are staged (`View.Accepts`). This is so for pipelines
(`stagePipeline_own`, `exists_stagePipeline`), for signatures (`prepareSignature_own`,
`exists_prepareSignature`) and for render passes (`prepareRenderPass_own`,
`exists_prepareRenderPass`).
-/

set_option autoImplicit false

namespace PipelineArchive

open Results

/-- No other description is archived under a name that is staged. -/
structure View.Accepts (v : View) (s : Staging) : Prop where
  signature {name : String} {r archived : SignatureRecord} :
    s.signatures.lookup name = some r → v.signature name = some archived →
      archived.common = r.common
  renderPass {name : String} {desc archived : Bytes} :
    s.renderPass? name = some desc → v.renderPass name = some archived → archived = desc

/-- Adding data that are archived already changes nothing. -/
theorem View.commit_addSignature {v : View} {name : String} {r record : SignatureRecord}
    (hr : v.signature name = some r) (hmerge : r.merge record = r) :
    v.commit (Staging.addSignature {} name record) = v := by
  ext1
  · funext other
    change (v.signature other).merge SignatureRecord.merge
      ((Staging.addTo name record []).lookup other) = v.signature other
    rw [Staging.lookup_addTo]
    split
    · rename_i hname
      rw [hname, hr]
      exact congrArg some hmerge
    · exact Option.merge_none_right
  · funext other
    exact Option.or_none
  · rfl

namespace Archiver

variable {c : Contents}

/-! ## Render passes -/

/-- A render pass is staged unless it is archived, with the same description. -/
theorem stageRenderPass_eq_ok_iff {pass? : Option RenderPass} {staged : Option (String × Bytes)} :
    stageRenderPass c pass? = .ok staged ↔
      (∀ pass, pass? = some pass →
        ∀ desc, c.renderPasses.get? pass.name = some desc → desc = encode pass) ∧
      staged = pass?.bind fun pass =>
        if (c.renderPasses.get? pass.name).isSome then none else some (pass.name, encode pass) := by
  cases pass? with
  | none =>
    constructor
    · rintro ⟨⟩
      exact ⟨by rintro _ ⟨⟩, rfl⟩
    · rintro ⟨-, rfl⟩
      rfl
  | some pass =>
    simp only [stageRenderPass, Contents.checkRenderPass, Option.bind_some, Option.some.injEq,
      forall_eq']
    cases c.renderPasses.get? pass.name with
    | none =>
      constructor
      · rintro ⟨⟩
        exact ⟨by rintro _ ⟨⟩, rfl⟩
      · rintro ⟨-, rfl⟩
        rfl
    | some desc =>
      by_cases hdesc : desc = encode pass
      · simp only [hdesc, if_true]
        constructor
        · rintro ⟨⟩
          exact ⟨by rintro _ ⟨⟩; rfl, rfl⟩
        · rintro ⟨-, rfl⟩
          rfl
      · simp only [hdesc, if_false]
        exact iff_of_false (by rintro ⟨⟩) fun h => hdesc (h.1 desc rfl)

/-- The render pass that is added to a new archive. -/
def ownRenderPass (pass? : Option RenderPass) : Option (String × Bytes) :=
  pass?.map fun pass => (pass.name, encode pass)

theorem stageRenderPass_empty (pass? : Option RenderPass) :
    stageRenderPass .empty pass? = .ok (ownRenderPass pass?) := by
  cases pass? <;> rfl

/-- A render pass is staged if no other description is archived under its name. -/
theorem stageRenderPass_iff {pass? : Option RenderPass} :
    (∃ staged, stageRenderPass c pass? = .ok staged) ↔
      ∀ name desc archived, Staging.entryAt (ownRenderPass pass?) name = some desc →
        c.view.renderPass name = some archived → archived = desc := by
  constructor
  · rintro ⟨staged, h⟩ name desc archived hdesc harchived
    obtain ⟨pass, hpass?, hentry⟩ := Option.map_eq_some_iff.1 (Staging.entryAt_eq_some_iff.1 hdesc)
    cases hentry
    exact (stageRenderPass_eq_ok_iff.1 h).1 pass hpass? archived harchived
  · intro h
    refine ⟨_, stageRenderPass_eq_ok_iff.2 ⟨fun pass hpass? desc harchived => ?_, rfl⟩⟩
    refine h pass.name (encode pass) desc (Staging.entryAt_eq_some_iff.2 ?_) harchived
    rw [hpass?]
    rfl

/-- A render pass that is staged is archived as it is in a new archive. -/
theorem or_stageRenderPass {pass? : Option RenderPass} {staged : Option (String × Bytes)}
    (h : stageRenderPass c pass? = .ok staged) (name : String) :
    (c.view.renderPass name).or (Staging.entryAt staged name) =
      (c.view.renderPass name).or (Staging.entryAt (ownRenderPass pass?) name) := by
  obtain ⟨-, rfl⟩ := stageRenderPass_eq_ok_iff.1 h
  cases pass? with
  | none => rfl
  | some pass =>
    simp only [Option.bind_some, ownRenderPass, Option.map_some]
    -- a pass that is archived is found before the one that is staged
    cases harchived : c.renderPasses.get? pass.name with
    | none => rfl
    | some desc =>
      by_cases hname : name = pass.name
      · have hview : c.view.renderPass name = some desc := by rw [hname]; exact harchived
        rw [hview]
        rfl
      · simp [Staging.entryAt, hname]

/-! ## Pipelines -/

section

variable {p : Pipeline} {isExtension : Bool} {compiled : List BackendShaders}

/-- What a pipeline adds to an archive is what it adds to a new one, and the archive accepts
that. -/
theorem stagePipeline_own (hbounded : ∀ signature ∈ p.common.signatures, isBounded signature)
    {s : Staging} (h : stagePipeline c p isExtension compiled = .ok s)
    (hdescribes : ∀ signatures resolved,
      resolveSignatures c p isExtension compiled = .ok (signatures, resolved) →
        ∀ signature ∈ signatures, c.view.Describes signature) :
    ∃ own, stagePipeline .empty p false compiled = .ok own ∧ c.view.Accepts own ∧
      c.view.commit s = c.view.commit own := by
  obtain ⟨signatures, resolved, patched, renderPass, hresolved, hpatched, hrenderPass, rfl⟩ :=
    stagePipeline_spec h
  obtain ⟨hresolved, hadmits⟩ := resolveSignatures_own hresolved (hdescribes _ _ hresolved)
  refine ⟨{ resolved with
    renderPass := ownRenderPass p.renderPass?
    pipeline := some ((p.chunk, p.name), archived p signatures patched) }, ?own, ?accepts, ?view⟩
  case own =>
    exact bind_eq_ok_iff.2 ⟨_, hresolved, bind_eq_ok_iff.2 ⟨_, hpatched,
      bind_eq_ok_iff.2 ⟨_, stageRenderPass_empty _, rfl⟩⟩⟩
  case accepts =>
    refine ⟨fun {name r archived} hr harchived => ?_, stageRenderPass_iff.1 ⟨_, hrenderPass⟩ _ _ _⟩
    change resolved.signatures.lookup name = some r at hr
    rw [lookup_resolveSignatures hbounded hresolved] at hr
    obtain ⟨given, hgiven, rfl⟩ := Option.map_eq_some_iff.1 hr
    have hname : given.name = name := by simpa using List.find?_some hgiven
    exact hadmits given (List.mem_of_find?_eq_some hgiven) archived (by rw [hname, harchived])
  case view =>
    ext1
    · rfl
    · exact funext (or_stageRenderPass hrenderPass)
    · rfl

/-- A pipeline is staged if what it adds to a new archive is accepted. -/
theorem exists_stagePipeline {own : Staging}
    (hown : stagePipeline .empty p false compiled = .ok own) (haccepts : c.view.Accepts own)
    (hdescribes : ∀ signature ∈ p.common.signatures, c.view.Describes signature)
    (hnew : p.common.signatures = [] → c.view.signature (Signature.defaultName p.name) = none) :
    ∃ s, stagePipeline c p false compiled = .ok s := by
  obtain ⟨signatures, resolved, patched, renderPass, hresolved, hpatched, hrenderPass, rfl⟩ :=
    stagePipeline_spec hown
  obtain rfl := Except.ok.inj ((stageRenderPass_empty _).symm.trans hrenderPass)
  have hc : resolveSignatures c p false compiled = .ok (signatures, resolved) :=
    resolveSignatures_of_own hresolved (fun _ _ _ => haccepts.signature) hdescribes hnew
  obtain ⟨staged, hstaged⟩ : ∃ staged, stageRenderPass c p.renderPass? = .ok staged :=
    stageRenderPass_iff.2 fun _ _ _ => haccepts.renderPass
  exact ⟨_, bind_eq_ok_iff.2 ⟨_, hc, bind_eq_ok_iff.2 ⟨_, hpatched,
    bind_eq_ok_iff.2 ⟨_, hstaged, rfl⟩⟩⟩⟩

end

/-! ## Signatures and render passes on their own -/

/-- A signature with a name is added for some backends, unless it is archived for all of them. -/
theorem prepareSignature_eq_ok_iff {signature : Signature} {backends : BackendSet}
    {staging : Option Staging} : prepareSignature c signature backends = .ok staging ↔
      (signature.name.isEmpty = false ∧ backends.isEmpty = false) ∧
      ∃ archived, c.checkSignature signature.name (encode signature) = .ok archived ∧
        if archived.any fun r => r.backends.includes backends then staging = none
        else ∃ record, signatureRecord signature archived backends.toList = .ok record ∧
          staging = some (Staging.addSignature {} signature.name record) := by
  simp only [prepareSignature]
  cases signature.name.isEmpty with
  | true => exact iff_of_false (by rintro ⟨⟩) (by simp)
  | false =>
    cases backends.isEmpty with
    | true => exact iff_of_false (by rintro ⟨⟩) (by simp)
    | false =>
      constructor
      · intro h
        obtain ⟨archived, hcheck, h⟩ := bind_eq_ok_iff.1 h
        refine ⟨⟨rfl, rfl⟩, archived, hcheck, ?_⟩
        split at h
        · rename_i hall
          cases h
          rw [if_pos hall]
        · rename_i hmissing
          obtain ⟨record, hrecord, h⟩ := bind_eq_ok_iff.1 h
          cases h
          rw [if_neg hmissing]
          exact ⟨record, hrecord, rfl⟩
      · rintro ⟨-, archived, hcheck, h⟩
        refine bind_eq_ok_iff.2 ⟨archived, hcheck, ?_⟩
        split at h
        · rename_i hall
          rw [if_pos hall, h]
          rfl
        · rename_i hmissing
          obtain ⟨record, hrecord, rfl⟩ := h
          rw [if_neg hmissing]
          exact bind_eq_ok_iff.2 ⟨record, hrecord, rfl⟩

/-- What a signature adds to an archive is what it adds to a new one. -/
theorem prepareSignature_own {signature : Signature} (hdescribes : c.view.Describes signature)
    {backends : BackendSet} {staging : Option Staging}
    (h : prepareSignature c signature backends = .ok staging) :
    prepareSignature .empty signature backends =
        .ok (some (Staging.addSignature {} signature.name (recordOf signature backends.toList))) ∧
      c.view.Admits signature ∧ c.view.add staging = c.view.commit
        (Staging.addSignature {} signature.name (recordOf signature backends.toList)) := by
  obtain ⟨hnames, archived, hcheck, h⟩ := prepareSignature_eq_ok_iff.1 h
  obtain ⟨harchived, hcommon⟩ := Contents.checkSignature_eq_ok_iff.1 hcheck
  have hadmits : c.view.Admits signature := fun r hr => hcommon r (harchived.symm.trans hr)
  have hdescribed : ∀ r, archived = some r → r.Describes signature :=
    fun r hr => hdescribes r (harchived.trans hr) (hcommon r hr)
  split at h
  · rename_i hall
    subst h
    -- the data are archived for all the backends, so adding them again changes nothing
    obtain ⟨r, hr, hincludes⟩ := (Option.any_eq_true _ _).1 hall
    have hpresent : ∀ b ∈ backends.toList, (r.device.get b).isSome := by
      intro b hb
      rw [← BackendSet.contains_present]
      exact BackendSet.contains_of_includes hincludes (BackendSet.mem_toList.1 hb)
    obtain ⟨hmerge, hdata⟩ := merge_recordOf_of_describes (hdescribed r hr) hpresent
    exact ⟨prepareSignature_eq_ok_iff.2 ⟨hnames, none, rfl, _, signatureRecord_none hdata, rfl⟩,
      hadmits, (View.commit_addSignature (harchived.trans hr) hmerge).symm⟩
  · obtain ⟨record, hrecord, rfl⟩ := h
    obtain rfl := signatureRecord_eq_recordOf hdescribed hrecord
    rw [signatureRecord_eq hdescribed] at hrecord
    exact ⟨prepareSignature_eq_ok_iff.2 ⟨hnames, none, rfl, _, hrecord, rfl⟩, hadmits, rfl⟩

/-- A signature is added if it can be added to a new archive and is accepted. -/
theorem exists_prepareSignature {signature : Signature} (hdescribes : c.view.Describes signature)
    (hadmits : c.view.Admits signature) {backends : BackendSet} {own : Staging}
    (hown : prepareSignature .empty signature backends = .ok (some own)) :
    ∃ staging, prepareSignature c signature backends = .ok staging := by
  obtain ⟨hnames, archived, hcheck, h⟩ := prepareSignature_eq_ok_iff.1 hown
  obtain rfl : none = archived := (Contents.checkSignature_eq_ok_iff.1 hcheck).1
  obtain ⟨record, hrecord, -⟩ := h
  have hcheck : c.checkSignature signature.name (encode signature) =
      .ok (c.signatures.get? signature.name) :=
    Contents.checkSignature_eq_ok_iff.2 ⟨rfl, hadmits⟩
  by_cases hall : (c.signatures.get? signature.name).any fun r => r.backends.includes backends
  · exact ⟨none, prepareSignature_eq_ok_iff.2 ⟨hnames, _, hcheck, by rw [if_pos hall]⟩⟩
  · refine ⟨some (Staging.addSignature {} signature.name record),
      prepareSignature_eq_ok_iff.2 ⟨hnames, _, hcheck, ?_⟩⟩
    rw [if_neg hall]
    refine ⟨record, ?_, rfl⟩
    exact (signatureRecord_eq (fun r hr => hdescribes r hr (hadmits r hr)) _).trans hrecord

/-- A render pass that passes its check is added, unless it is archived. -/
theorem prepareRenderPass_eq_ok_iff {pass : RenderPass} {s : Staging} :
    prepareRenderPass c pass = .ok s ↔ pass.check = .ok () ∧
      ∃ renderPass, stageRenderPass c (some pass) = .ok renderPass ∧ s = { renderPass } := by
  simp only [prepareRenderPass]
  cases pass.check with
  | error fault => exact iff_of_false (by rintro ⟨⟩) (by simp)
  | ok =>
    constructor
    · intro h
      obtain ⟨_, _, h⟩ := bind_eq_ok_iff.1 h
      obtain ⟨renderPass, hstaged, h⟩ := bind_eq_ok_iff.1 h
      cases h
      exact ⟨rfl, renderPass, hstaged, rfl⟩
    · rintro ⟨-, renderPass, hstaged, rfl⟩
      exact bind_eq_ok_iff.2 ⟨_, rfl, bind_eq_ok_iff.2 ⟨renderPass, hstaged, rfl⟩⟩

/-- What a render pass adds to an archive is what it adds to a new one. -/
theorem prepareRenderPass_own {pass : RenderPass} {s : Staging}
    (h : prepareRenderPass c pass = .ok s) :
    prepareRenderPass .empty pass = .ok { renderPass := ownRenderPass (some pass) } ∧
      c.view.Accepts { renderPass := ownRenderPass (some pass) } ∧
      c.view.commit s = c.view.commit { renderPass := ownRenderPass (some pass) } := by
  obtain ⟨hcheck, renderPass, hstaged, rfl⟩ := prepareRenderPass_eq_ok_iff.1 h
  refine ⟨prepareRenderPass_eq_ok_iff.2 ⟨hcheck, _, stageRenderPass_empty _, rfl⟩,
    ⟨by rintro _ _ _ ⟨⟩, stageRenderPass_iff.1 ⟨_, hstaged⟩ _ _ _⟩, ?_⟩
  ext1
  · rfl
  · exact funext (or_stageRenderPass hstaged)
  · rfl

/-- A render pass is added if it can be added to a new archive and is accepted. -/
theorem exists_prepareRenderPass {pass : RenderPass} {own : Staging}
    (hown : prepareRenderPass .empty pass = .ok own) (haccepts : c.view.Accepts own) :
    ∃ s, prepareRenderPass c pass = .ok s := by
  obtain ⟨hcheck, renderPass, hstaged, rfl⟩ := prepareRenderPass_eq_ok_iff.1 hown
  obtain rfl := Except.ok.inj ((stageRenderPass_empty _).symm.trans hstaged)
  obtain ⟨staged, hstaged⟩ : ∃ staged, stageRenderPass c (some pass) = .ok staged :=
    stageRenderPass_iff.2 fun _ _ _ => haccepts.renderPass
  exact ⟨_, prepareRenderPass_eq_ok_iff.2 ⟨hcheck, staged, hstaged, rfl⟩⟩

end Archiver

end PipelineArchive
