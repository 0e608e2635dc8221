import PipelineArchive.Archiver
import PipelineArchive.Proofs.Contents.Grounded
import PipelineArchive.Proofs.Results

/-!
# What an item stages

Before an item enters the contents it is staged, and most of what is true of archives is true
because of what can be staged. `Stages` says what is staged of the signatures that are given for a
pipeline or on their own, `stageDefaultSignature_spec` what is staged of one that is made, and
`stagePipeline_spec` puts these together with the pipeline and its render pass. Everything that a
staged pipeline names is therefore staged with it or archived (`supports_pipeline`). Each of the
stages is opened once, by an equivalence (`stageSignature_eq_ok_iff`,
`stageDefaultSignature_eq_ok_iff`, `resolveSignatures_eq_ok_iff`).
-/

set_option autoImplicit false

namespace PipelineArchive

/-- An archived signature passes the check if it has the given description. -/
theorem Contents.checkSignature_eq_ok_iff {c : Contents} {name : String} {common : Bytes}
    {archived : Option SignatureRecord} : c.checkSignature name common = .ok archived ↔
      c.signatures.get? name = archived ∧ ∀ r, archived = some r → r.common = common := by
  unfold checkSignature
  cases c.signatures.get? name with
  | none =>
    constructor
    · rintro ⟨⟩
      exact ⟨rfl, fun r hr => (by cases hr)⟩
    · rintro ⟨rfl, -⟩
      rfl
  | some record =>
    simp only
    split
    · rename_i hcommon
      constructor
      · rintro ⟨⟩
        exact ⟨rfl, fun r hr => Option.some.inj hr ▸ hcommon⟩
      · rintro ⟨rfl, -⟩
        rfl
    · rename_i hcommon
      refine iff_of_false (by rintro ⟨⟩) ?_
      rintro ⟨rfl, hsame⟩
      exact hcommon (hsame record rfl)

namespace Archiver

open Results

/-! ## Records of signatures -/

/-- The data of a signature has bytes, since it begins with the backend. -/
theorem dataFor_ne_nil {signature : Signature} {archived : Option SignatureRecord} {b : Backend}
    {data : Bytes} (harchived : ∀ r, archived = some r → r.Filled)
    (h : dataFor signature archived b = .ok data) : data ≠ [] := by
  rintro rfl
  unfold dataFor at h
  -- data are those that were archived, or those of a layout
  cases hold : archived.bind fun r => r.device.get b with
  | some data =>
    rw [hold] at h
    cases h
    obtain ⟨r, hr, hget⟩ := Option.bind_eq_some_iff.1 hold
    exact harchived r hr b hget
  | none =>
    rw [hold] at h
    simp only [Patch.signatureData] at h
    cases hlayout : SignatureLayout.standalone b signature with
    | error e =>
      rw [hlayout] at h
      cases h
    | ok layout =>
      rw [hlayout] at h
      have hnil : encode layout = [] := Except.ok.inj h
      simp only [encode, List.append_eq_nil_iff] at hnil
      obtain ⟨⟨⟨hbackend, -⟩, -⟩, -⟩ := hnil
      cases hbackend

/-- A record has the description of its signature, and data with bytes for exactly the backends
it was asked for. -/
theorem signatureRecord_spec {signature : Signature} {archived : Option SignatureRecord}
    {backends : List Backend} {record : SignatureRecord}
    (harchived : ∀ r, archived = some r → r.Filled)
    (h : signatureRecord signature archived backends = .ok record) :
    record.common = encode signature ∧ (∀ b, (record.device.get b).isSome ↔ b ∈ backends) ∧
      record.Filled := by
  -- the data are set one backend after another, and `seen` has those that are done
  refine foldlM_invariant (fun seen record => record.common = encode signature ∧
    (∀ b, (record.device.get b).isSome ↔ b ∈ seen) ∧ record.Filled) ?_ ?_ h
  · rintro seen b r next ⟨hcommon, hpresent, hfilled⟩ hnext
    obtain ⟨data, hdata, hnext⟩ := bind_eq_ok_iff.1 hnext
    cases hnext
    have hne := dataFor_ne_nil harchived hdata
    refine ⟨hcommon, ?_, ?_⟩
    · intro other
      rw [PerBackend.get_set, List.mem_append, List.mem_singleton]
      by_cases heq : other = b
      · simp [heq]
      · simp [heq, hpresent]
    · intro other
      rw [PerBackend.get_set]
      split
      · exact fun hdata => hne (Option.some.inj hdata)
      · exact hfilled other
  · refine ⟨rfl, ?_, ?_⟩
    · intro b
      simp [SignatureRecord.ofCommon]
    · intro b hdata
      simp [SignatureRecord.ofCommon] at hdata

/-! ## Signatures that are given -/

/-- A staging has the given signatures: each name once, with the description of the signature and
of any archived one, and with data for all the backends. -/
structure Stages (c : Contents) (backends : List Backend) (signatures : List Signature)
    (s : Staging) : Prop where
  distinct : Staging.Distinct s.signatures
  noDefault : s.defaultSignature = none
  record : ∀ signature ∈ signatures, ∃ record,
    s.signatures.lookup signature.name = some record ∧ record.common = encode signature ∧
      ∀ b ∈ backends, (record.device.get b).isSome
  agrees {name : String} {record archived : SignatureRecord} :
    s.signatures.lookup name = some record → c.signatures.get? name = some archived →
      archived.common = record.common
  filled {name : String} {record : SignatureRecord} :
    s.signatures.lookup name = some record → record.Filled

theorem stages_nil (c : Contents) (backends : List Backend) : Stages c backends [] {} where
  distinct := List.nodup_nil
  noDefault := rfl
  record signature hmem := by cases hmem
  agrees h := by cases h
  filled h := by cases h

/-- What is staged besides the signatures makes no difference. -/
theorem Stages.withPipeline {c : Contents} {backends : List Backend}
    {signatures : List Signature} {s : Staging} (h : Stages c backends signatures s)
    (renderPass : Option (String × Bytes))
    (pipeline : Option (PipelineKey × ArchivedPipeline PatchedPipeline)) :
    Stages c backends signatures { s with renderPass, pipeline } :=
  ⟨h.distinct, h.noDefault, h.record, h.agrees, h.filled⟩

/-- The record of a name after a signature of that name is staged, alone or merged into an earlier
one. -/
theorem Stages.exists_merged {c : Contents} {backends : List Backend} {signatures : List Signature}
    {s : Staging} (h : Stages c backends signatures s) {signature : Signature}
    {record : SignatureRecord}
    (hsame : ∀ staged, s.signatures.lookup signature.name = some staged →
      staged.common = encode signature)
    (hcommon : record.common = encode signature)
    (hpresent : ∀ b, (record.device.get b).isSome ↔ b ∈ backends) (hfilled : record.Filled) :
    ∃ merged, (s.addSignature signature.name record).signatures.lookup signature.name =
      some merged ∧ merged.common = encode signature ∧ merged.Filled ∧
      ∀ b ∈ backends, (merged.device.get b).isSome := by
  rw [Staging.addSignature, Staging.lookup_addTo, if_pos rfl]
  -- a signature that is given twice has the same description both times
  cases hstaged : s.signatures.lookup signature.name with
  | none => exact ⟨record, rfl, hcommon, hfilled, fun b hb => (hpresent b).2 hb⟩
  | some staged =>
    refine ⟨staged.merge record, rfl, hsame staged hstaged, (h.filled hstaged).merge hfilled, ?_⟩
    intro b hb
    rw [SignatureRecord.get_merge, Option.isSome_or, (hpresent b).2 hb, Bool.or_true]

/-- Another signature is staged, with the data that was archived of it. -/
theorem Stages.addSignature {c : Contents} (hc : c.Filled) {backends : List Backend}
    {signatures : List Signature} {s : Staging} (h : Stages c backends signatures s)
    {signature : Signature} {archived : Option SignatureRecord} {record : SignatureRecord}
    (hsame : ∀ staged, s.signatures.lookup signature.name = some staged →
      staged.common = encode signature)
    (hcheck : c.checkSignature signature.name (encode signature) = .ok archived)
    (hrecord : signatureRecord signature archived backends = .ok record) :
    Stages c backends (signatures ++ [signature]) (s.addSignature signature.name record) := by
  obtain ⟨harchived, hcommonArchived⟩ := Contents.checkSignature_eq_ok_iff.1 hcheck
  obtain ⟨hcommon, hpresent, hfilled⟩ := signatureRecord_spec
    (fun r hr => hc signature.name r (harchived.trans hr)) hrecord
  obtain ⟨merged, hmerged, hmergedCommon, hmergedFilled, hmergedPresent⟩ :=
    h.exists_merged hsame hcommon hpresent hfilled
  have hother {name : String} (hname : name ≠ signature.name) :
      (s.addSignature signature.name record).signatures.lookup name = s.signatures.lookup name := by
    rw [Staging.addSignature, Staging.lookup_addTo, if_neg hname]
  -- each part is looked at for the name of the signature and for all others
  refine ⟨h.distinct.addTo _ _, h.noDefault, ?_, ?_, ?_⟩
  · intro other hmem
    by_cases hname : other.name = signature.name
    · rw [hname]
      refine ⟨merged, hmerged, ?_, hmergedPresent⟩
      rcases List.mem_append.1 hmem with hold | hnew
      · obtain ⟨staged, hstaged, hstagedCommon, -⟩ := h.record other hold
        rw [hname] at hstaged
        rw [hmergedCommon, ← hsame staged hstaged, hstagedCommon]
      · rw [List.mem_singleton.1 hnew, hmergedCommon]
    · rw [hother hname]
      rcases List.mem_append.1 hmem with hold | hnew
      · exact h.record other hold
      · exact absurd (congrArg Signature.name (List.mem_singleton.1 hnew)) hname
  · intro name r a hr ha
    by_cases hname : name = signature.name
    · rw [hname] at hr ha
      rw [hmerged] at hr
      cases hr
      rw [hmergedCommon, hcommonArchived a (harchived.symm.trans ha)]
    · rw [hother hname] at hr
      exact h.agrees hr ha
  · intro name r hr
    by_cases hname : name = signature.name
    · rw [hname, hmerged] at hr
      cases hr
      exact hmergedFilled
    · rw [hother hname] at hr
      exact h.filled hr

/-- A signature is staged if it has the description that its name has among those staged and
archived. -/
theorem stageSignature_eq_ok_iff {c : Contents} {backends : List Backend} {staging next : Staging}
    {signature : Signature} : stageSignature c backends staging signature = .ok next ↔
      (∀ staged, staging.signatures.lookup signature.name = some staged →
        staged.common = encode signature) ∧
      ∃ archived record, c.checkSignature signature.name (encode signature) = .ok archived ∧
        signatureRecord signature archived backends = .ok record ∧
        next = staging.addSignature signature.name record := by
  have hrest : (do
      let archived ← c.checkSignature signature.name (encode signature)
      let record ← signatureRecord signature archived backends
      return staging.addSignature signature.name record) = Except.ok next ↔
        ∃ archived record, c.checkSignature signature.name (encode signature) = .ok archived ∧
          signatureRecord signature archived backends = .ok record ∧
          next = staging.addSignature signature.name record := by
    constructor
    · intro h
      obtain ⟨archived, hcheck, h⟩ := bind_eq_ok_iff.1 h
      obtain ⟨record, hrecord, h⟩ := bind_eq_ok_iff.1 h
      exact ⟨archived, record, hcheck, hrecord, (Except.ok.inj h).symm⟩
    · rintro ⟨archived, record, hcheck, hrecord, rfl⟩
      exact bind_eq_ok_iff.2 ⟨archived, hcheck, bind_eq_ok_iff.2 ⟨record, hrecord, rfl⟩⟩
  rw [← hrest]
  cases hstaged : staging.signatures.lookup signature.name with
  | none =>
    simp only [stageSignature, hstaged]
    exact ⟨fun h => ⟨fun _ hsome => (by cases hsome), h⟩, And.right⟩
  | some staged =>
    by_cases hsame : staged.common = encode signature
    · simp only [stageSignature, hstaged, hsame, ne_eq, not_true_eq_false, if_false]
      exact ⟨fun h => ⟨fun _ hsome => Option.some.inj hsome ▸ hsame, h⟩, And.right⟩
    · simp only [stageSignature, hstaged, hsame, ne_eq, not_false_eq_true, if_true]
      exact iff_of_false (by rintro ⟨⟩) fun h => hsame (h.1 staged rfl)

/-- The signatures given for a pipeline are staged if they fit its shaders. -/
theorem stageSignatures_spec {c : Contents} (hc : c.Filled) {signatures : List Signature}
    {compiled : List BackendShaders} {s : Staging}
    (h : stageSignatures c signatures compiled = .ok s) :
    Stages c (compiled.map (·.backend)) signatures s := by
  obtain ⟨-, -, h⟩ := bind_eq_ok_iff.1 h
  obtain ⟨-, -, h⟩ := bind_eq_ok_iff.1 h
  refine foldlM_invariant (Stages c (compiled.map (·.backend))) ?_ (stages_nil c _) h
  intro seen signature staging next hstaging hnext
  obtain ⟨hsame, archived, record, hcheck, hrecord, rfl⟩ := stageSignature_eq_ok_iff.1 hnext
  exact hstaging.addSignature hc hsame hcheck hrecord

/-! ## Signatures that are made -/

/-- A record that is used again has the description of the signature. -/
theorem archivedDefault_spec {c : Contents} {signature : Signature} {isExtension : Bool}
    {archived : Option SignatureRecord} (h : archivedDefault c signature isExtension = .ok archived)
    {r : SignatureRecord} (hr : archived = some r) :
    c.signatures.get? signature.name = some r ∧ r.common = encode signature := by
  subst hr
  unfold archivedDefault at h
  cases hname : c.signature? signature.name with
  | none =>
    rw [hname] at h
    cases h
  | some record =>
    simp only [hname] at h
    split at h
    · rename_i hcommon
      cases h
      exact ⟨hname, hcommon⟩
    · split at h <;> cases h

/-- The shaders that a signature is made from: those on all backends but OpenGL's. -/
def nonGl (compiled : List BackendShaders) : List BackendShaders :=
  compiled.filter fun s => !s.backend.isGl

theorem mem_backends_nonGl {compiled : List BackendShaders} {b : Backend} :
    b ∈ (nonGl compiled).map (·.backend) ↔ ∃ t ∈ compiled, t.backend = b ∧ b.isGl = false := by
  rw [List.mem_map]
  constructor
  · rintro ⟨t, ht, rfl⟩
    obtain ⟨hmem, hgl⟩ := List.mem_filter.1 ht
    exact ⟨t, hmem, rfl, by simpa using hgl⟩
  · rintro ⟨t, ht, rfl, hgl⟩
    exact ⟨t, List.mem_filter.2 ⟨ht, by simpa using hgl⟩, rfl⟩

section

variable {c : Contents} {p : Pipeline} {isExtension : Bool} {compiled : List BackendShaders}

/-- A signature is made for a pipeline, unless all its backends are those of OpenGL. -/
theorem stageDefaultSignature_eq_ok_iff {made : Option Signature} {s : Staging} :
    stageDefaultSignature c p isExtension compiled = .ok (made, s) ↔
      (nonGl compiled = [] ∧ made = none ∧ s = {}) ∨
      (nonGl compiled ≠ [] ∧ ∃ signature archived record,
        Signature.synthesize p.name
          ((nonGl compiled).flatMap fun s => s.shaders.map (·.reflection)) p.common.layout =
            .ok signature ∧
        archivedDefault c signature isExtension = .ok archived ∧
        signatureRecord signature archived ((nonGl compiled).map (·.backend)) = .ok record ∧
        made = some signature ∧ s = { defaultSignature := some (signature.name, record) }) := by
  unfold stageDefaultSignature
  change (if (nonGl compiled).isEmpty then _ else _) = _ ↔ _
  split
  · rename_i hgl
    have hnil : nonGl compiled = [] := List.isEmpty_iff.1 hgl
    constructor
    · rintro ⟨⟩
      exact .inl ⟨hnil, rfl, rfl⟩
    · rintro (⟨-, rfl, rfl⟩ | ⟨hne, -⟩)
      · rfl
      · exact absurd hnil hne
  · rename_i hother
    have hne : nonGl compiled ≠ [] := fun hnil => hother (List.isEmpty_iff.2 hnil)
    constructor
    · intro h
      obtain ⟨signature, hsignature, h⟩ := bind_eq_ok_iff.1 h
      obtain ⟨archived, harchived, h⟩ := bind_eq_ok_iff.1 h
      obtain ⟨record, hrecord, h⟩ := bind_eq_ok_iff.1 h
      cases h
      exact .inr ⟨hne, signature, archived, record, hsignature, harchived, hrecord, rfl, rfl⟩
    · rintro (⟨hnil, -⟩ |
        ⟨-, signature, archived, record, hsignature, harchived, hrecord, rfl, rfl⟩)
      · exact absurd hnil hne
      · exact bind_eq_ok_iff.2 ⟨signature, hsignature, bind_eq_ok_iff.2 ⟨archived, harchived,
          bind_eq_ok_iff.2 ⟨record, hrecord, rfl⟩⟩⟩

/-- A pipeline is bound by the signatures that are given, or by one that is made if there are
none. -/
theorem resolveSignatures_eq_ok_iff {signatures : List Signature} {s : Staging} :
    resolveSignatures c p isExtension compiled = .ok (signatures, s) ↔
      (p.common.signatures = [] ∧ ∃ made,
        stageDefaultSignature c p isExtension compiled = .ok (made, s) ∧
        signatures = made.toList) ∨
      (p.common.signatures ≠ [] ∧ stageSignatures c p.common.signatures compiled = .ok s ∧
        signatures = Signature.inBindingOrder p.common.signatures) := by
  unfold resolveSignatures
  split
  · rename_i hnone
    have hnone : p.common.signatures = [] := List.isEmpty_iff.1 hnone
    constructor
    · intro h
      obtain ⟨⟨made, _⟩, hmade, hresult⟩ := map_eq_ok_iff.1 h
      cases hresult
      exact .inl ⟨hnone, made, hmade, rfl⟩
    · rintro (⟨-, made, hmade, rfl⟩ | ⟨hsome, -⟩)
      · exact map_eq_ok_iff.2 ⟨(made, s), hmade, rfl⟩
      · exact absurd hnone hsome
  · rename_i hsome
    have hsome : p.common.signatures ≠ [] := fun hnil => hsome (List.isEmpty_iff.2 hnil)
    constructor
    · intro h
      obtain ⟨_, hgiven, hresult⟩ := map_eq_ok_iff.1 h
      cases hresult
      exact .inr ⟨hsome, hgiven, rfl⟩
    · rintro (⟨hnone, -⟩ | ⟨-, hgiven, rfl⟩)
      · exact absurd hnone hsome
      · exact map_eq_ok_iff.2 ⟨s, hgiven, rfl⟩

/-- What is staged of the signature made for a pipeline. There is none if all its backends are
those of OpenGL, and otherwise its record has data for exactly the others. -/
theorem stageDefaultSignature_spec (hc : c.Filled) {made : Option Signature} {s : Staging}
    (h : stageDefaultSignature c p isExtension compiled = .ok (made, s)) :
    (made = none ∧ s = {}) ∨ ∃ signature record, made = some signature ∧
      s = { defaultSignature := some (signature.name, record) } ∧
      record.common = encode signature ∧
      (∀ b, (record.device.get b).isSome ↔ ∃ t ∈ compiled, t.backend = b ∧ b.isGl = false) ∧
      record.Filled := by
  rcases stageDefaultSignature_eq_ok_iff.1 h with ⟨-, rfl, rfl⟩ |
    ⟨-, signature, archived, record, -, harchived, hrecord, rfl, rfl⟩
  · exact .inl ⟨rfl, rfl⟩
  · obtain ⟨hcommon, hpresent, hfilled⟩ := signatureRecord_spec (fun r hr =>
      hc signature.name r (archivedDefault_spec harchived hr).1) hrecord
    exact .inr ⟨signature, record, rfl, rfl, hcommon,
      fun b => (hpresent b).trans mem_backends_nonGl, hfilled⟩

end

/-- How the signatures that a pipeline is bound by are staged. -/
inductive Resolved (c : Contents) (p : Pipeline) (compiled : List BackendShaders) :
    List Signature → Staging → Prop where
  /-- A pipeline for OpenGL alone without signatures. -/
  | none : p.common.signatures = [] → Resolved c p compiled [] {}
  /-- A pipeline without signatures has one made for it. -/
  | made {signature : Signature} {record : SignatureRecord} : p.common.signatures = [] →
      record.common = encode signature →
      (∀ b, (record.device.get b).isSome ↔ ∃ t ∈ compiled, t.backend = b ∧ b.isGl = false) →
      record.Filled →
      Resolved c p compiled [signature] { defaultSignature := some (signature.name, record) }
  /-- The signatures that are given. -/
  | given {s : Staging} : p.common.signatures ≠ [] →
      Stages c (compiled.map (·.backend)) p.common.signatures s →
      Resolved c p compiled (Signature.inBindingOrder p.common.signatures) s

theorem resolveSignatures_spec {c : Contents} (hc : c.Filled) {p : Pipeline} {isExtension : Bool}
    {compiled : List BackendShaders} {signatures : List Signature} {s : Staging}
    (h : resolveSignatures c p isExtension compiled = .ok (signatures, s)) :
    Resolved c p compiled signatures s := by
  rcases resolveSignatures_eq_ok_iff.1 h with ⟨hnone, made, hmade, rfl⟩ | ⟨hsome, hgiven, rfl⟩
  · rcases stageDefaultSignature_spec hc hmade with ⟨rfl, rfl⟩ |
      ⟨signature, record, rfl, rfl, hcommon, hpresent, hfilled⟩
    · exact .none hnone
    · exact .made hnone hcommon hpresent hfilled
  · exact .given hsome (stageSignatures_spec hc hgiven)

theorem mem_inBindingOrder {signature : Signature} {signatures : List Signature} :
    signature ∈ Signature.inBindingOrder signatures ↔ signature ∈ signatures :=
  List.mem_mergeSort

namespace Resolved

variable {c : Contents} {p : Pipeline} {compiled : List BackendShaders}
  {signatures : List Signature} {s : Staging}

theorem distinct (h : Resolved c p compiled signatures s) : Staging.Distinct s.signatures := by
  cases h with
  | none => exact List.nodup_nil
  | made => exact List.nodup_nil
  | given _ h => exact h.distinct

theorem filled (h : Resolved c p compiled signatures s) {name : String} {r : SignatureRecord}
    (hr : s.signatures.lookup name = some r) : r.Filled := by
  cases h with
  | none => cases hr
  | made => cases hr
  | given _ h => exact h.filled hr

theorem filledDefault (h : Resolved c p compiled signatures s) {name : String}
    {r : SignatureRecord} (hr : s.defaultSignature = some (name, r)) : r.Filled := by
  cases h with
  | none => cases hr
  | made _ _ _ hfilled =>
    cases hr
    exact hfilled
  | given _ h =>
    rw [h.noDefault] at hr
    cases hr

/-- Every signature that the pipeline is bound by is staged. -/
theorem isStaged (h : Resolved c p compiled signatures s) {signature : Signature}
    (hmem : signature ∈ signatures) : (s.signatures.lookup signature.name).isSome ∨
      ∃ r, s.defaultSignature = some (signature.name, r) := by
  cases h with
  | none => cases hmem
  | @made made record =>
    rw [List.mem_singleton.1 hmem]
    exact .inr ⟨record, rfl⟩
  | given _ h =>
    obtain ⟨record, hrecord, -⟩ := h.record signature (mem_inBindingOrder.1 hmem)
    exact .inl (by rw [hrecord]; rfl)

end Resolved

/-! ## Pipelines -/

theorem patchFor_spec {p : Pipeline} {signatures : List Signature} {t : BackendShaders}
    {result : Backend × UInt64 × PatchedPipeline} (h : patchFor p signatures t = .ok result) :
    result.1 = t.backend ∧ ∀ shader ∈ result.2.2.shaders, Patch.IsRecord shader := by
  obtain ⟨laidOut, -, h⟩ := bind_eq_ok_iff.1 h
  obtain ⟨layout, -, h⟩ := bind_eq_ok_iff.1 h
  obtain ⟨patched, hpatched, h⟩ := bind_eq_ok_iff.1 h
  cases h
  refine ⟨rfl, ?_⟩
  intro shader hshader
  -- each shader of the result is the record of one that was compiled
  obtain ⟨records, hrecords, hpatched⟩ := bind_eq_ok_iff.1 hpatched
  obtain ⟨header, -, hpatched⟩ := bind_eq_ok_iff.1 hpatched
  cases hpatched
  obtain ⟨source, -, hsource⟩ := exists_of_mem_right (mapM_eq_ok_iff.1 hrecords) hshader
  unfold Patch.recordOf at hsource
  cases hcode : Patch.patchShader t.backend layout source with
  | error e =>
    rw [hcode] at hsource
    cases hsource
  | ok code =>
    rw [hcode] at hsource
    cases hsource
    exact ⟨_, _, _, code, rfl⟩

/-- A pipeline has data for the backends it was compiled for. -/
theorem isSome_archived_iff {p : Pipeline} {signatures : List Signature}
    {compiled : List BackendShaders} {patched : List (Backend × UInt64 × PatchedPipeline)}
    (h : compiled.mapM (patchFor p signatures) = .ok patched) (b : Backend) :
    ((archived p signatures patched).device.get b).isSome ↔ ∃ t ∈ compiled, t.backend = b := by
  rw [archived, PerBackend.get_ofFn, Option.isSome_map, List.find?_isSome]
  have hrel := mapM_eq_ok_iff.1 h
  constructor
  · rintro ⟨result, hmem, hresult⟩
    obtain ⟨t, ht, hpatch⟩ := exists_of_mem_right hrel hmem
    exact ⟨t, ht, (patchFor_spec hpatch).1.symm.trans (eq_of_beq hresult)⟩
  · rintro ⟨t, hmem, rfl⟩
    obtain ⟨result, hresult, hpatch⟩ := exists_of_mem_left hrel hmem
    exact ⟨result, hresult, beq_iff_eq.2 (patchFor_spec hpatch).1⟩

theorem isRecord_archived {p : Pipeline} {signatures : List Signature}
    {compiled : List BackendShaders} {patched : List (Backend × UInt64 × PatchedPipeline)}
    (h : compiled.mapM (patchFor p signatures) = .ok patched) {b : Backend} {d : PatchedPipeline}
    (hd : (archived p signatures patched).device.get b = some d) :
    ∀ shader ∈ d.shaders, Patch.IsRecord shader := by
  rw [archived, PerBackend.get_ofFn] at hd
  obtain ⟨result, hresult, rfl⟩ := Option.map_eq_some_iff.1 hd
  obtain ⟨t, -, hpatch⟩ :=
    exists_of_mem_right (mapM_eq_ok_iff.1 h) (List.mem_of_find?_eq_some hresult)
  exact (patchFor_spec hpatch).2

theorem stageRenderPass_spec {c : Contents} {pass? : Option RenderPass}
    {staged : Option (String × Bytes)} (h : stageRenderPass c pass? = .ok staged)
    {pass : RenderPass} (hpass : pass? = some pass) :
    (c.renderPasses.get? pass.name).isSome ∨ ∃ desc, staged = some (pass.name, desc) := by
  subst hpass
  obtain ⟨isArchived, hcheck, h⟩ := bind_eq_ok_iff.1 h
  -- a pass that is archived is not staged again
  cases isArchived with
  | false =>
    cases h
    exact .inr ⟨_, rfl⟩
  | true =>
    unfold Contents.checkRenderPass at hcheck
    cases hname : c.renderPasses.get? pass.name with
    | none =>
      rw [hname] at hcheck
      cases hcheck
    | some archived => exact .inl rfl

/-- What is staged of a pipeline: its signatures, its render pass, and what was patched. -/
theorem stagePipeline_spec {c : Contents} {p : Pipeline} {isExtension : Bool}
    {compiled : List BackendShaders} {s : Staging}
    (h : stagePipeline c p isExtension compiled = .ok s) :
    ∃ signatures resolved patched renderPass,
      resolveSignatures c p isExtension compiled = .ok (signatures, resolved) ∧
      compiled.mapM (patchFor p signatures) = .ok patched ∧
      stageRenderPass c p.renderPass? = .ok renderPass ∧
      s = { resolved with
        renderPass
        pipeline := some ((p.chunk, p.name), archived p signatures patched) } := by
  obtain ⟨⟨signatures, resolved⟩, hresolved, h⟩ := bind_eq_ok_iff.1 h
  obtain ⟨patched, hpatched, h⟩ := bind_eq_ok_iff.1 h
  obtain ⟨renderPass, hrenderPass, h⟩ := bind_eq_ok_iff.1 h
  cases h
  exact ⟨signatures, resolved, patched, renderPass, hresolved, hpatched, hrenderPass, rfl⟩

theorem isPipeline_chunk (p : Pipeline) : p.chunk.isPipeline = true := by
  unfold Pipeline.chunk
  split <;> rfl

/-! ## What can be committed -/

theorem supports_pipeline {c : Contents} (hc : c.Filled) {p : Pipeline} {isExtension : Bool}
    {compiled : List BackendShaders} {s : Staging}
    (h : stagePipeline c p isExtension compiled = .ok s) : c.Supports s := by
  obtain ⟨signatures, resolved, patched, renderPass, hresolved, hpatched, hrenderPass, rfl⟩ :=
    stagePipeline_spec h
  have hresolved := resolveSignatures_spec hc hresolved
  refine ⟨hresolved.distinct, hresolved.filled, hresolved.filledDefault, ?_, ?_, ?_, ?_⟩
  · intro key staged hp
    cases hp
    exact isPipeline_chunk p
  · intro key staged hp name hname
    cases hp
    obtain ⟨signature, hsignature, rfl⟩ := List.mem_map.1 hname
    exact hresolved.isStaged hsignature
  · intro key staged hp name hname
    cases hp
    obtain ⟨pass, hpass, rfl⟩ := Option.map_eq_some_iff.1 hname
    exact stageRenderPass_spec hrenderPass hpass
  · intro key staged b d hp hd
    cases hp
    exact isRecord_archived hpatched hd

/-- A signature that is added on its own is staged like one given for a pipeline. -/
theorem prepareSignature_spec {c : Contents} (hc : c.Filled) {signature : Signature}
    {backends : BackendSet} {s : Staging}
    (h : prepareSignature c signature backends = .ok (some s)) :
    Stages c backends.toList [signature] s ∧ s.pipeline = none := by
  simp only [prepareSignature] at h
  split at h
  · cases h
  · split at h
    · cases h
    · obtain ⟨archived, hcheck, h⟩ := bind_eq_ok_iff.1 h
      split at h
      · cases h
      · obtain ⟨record, hrecord, h⟩ := bind_eq_ok_iff.1 h
        cases h
        refine ⟨(stages_nil c backends.toList).addSignature hc ?_ hcheck
          hrecord, rfl⟩
        intro staged hstaged
        cases hstaged

theorem Stages.supports {c : Contents} {backends : List Backend} {signatures : List Signature}
    {s : Staging} (h : Stages c backends signatures s) (hpipeline : s.pipeline = none) :
    c.Supports s where
  distinct := h.distinct
  filled := h.filled
  filledDefault hr := by cases h.noDefault.symm.trans hr
  kind hp := by cases hpipeline.symm.trans hp
  signature hp := by cases hpipeline.symm.trans hp
  renderPass hp := by cases hpipeline.symm.trans hp
  shader hp := by cases hpipeline.symm.trans hp

/-- A render pass that is added on its own is staged alone. -/
theorem prepareRenderPass_spec {c : Contents} {pass : RenderPass} {s : Staging}
    (h : prepareRenderPass c pass = .ok s) : ∃ renderPass, s = { renderPass } := by
  obtain ⟨-, -, h⟩ := bind_eq_ok_iff.1 h
  obtain ⟨renderPass, -, h⟩ := bind_eq_ok_iff.1 h
  cases h
  exact ⟨renderPass, rfl⟩

theorem supports_renderPass (c : Contents) (renderPass : Option (String × Bytes)) :
    c.Supports { renderPass } where
  distinct := List.nodup_nil
  filled hr := by cases hr
  filledDefault hr := by cases hr
  kind hp := by cases hp
  signature hp := by cases hp
  renderPass hp := by cases hp
  shader hp := by cases hp

end Archiver

end PipelineArchive
