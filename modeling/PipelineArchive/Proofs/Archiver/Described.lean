import PipelineArchive.Proofs.Archiver.Orders
import PipelineArchive.Proofs.Archiver.Settled

/-!
# Archived signatures have descriptions

The data of a signature are laid out once and then used again: for a pipeline that is given the
signature, for one that is compiled for more backends, for one whose own signature is replaced.
Nothing compares them with the description that they are used for; only the encodings of the
descriptions are compared. `signatures_described` says that this is enough: after every run that
fits, whatever the transcoders answer, every archived record belongs to a description of its name,
and each of its data is what is laid out for that description on its own.

The invariant is `View.IsDescribed`. A staging keeps it if the records that it stages belong to
descriptions and no other description is archived under their names (`IsDescribed.commit`).
-/

set_option autoImplicit false

namespace PipelineArchive

open Results

/-! ## Records and descriptions -/

namespace SignatureRecord

/-- A record belongs to a description of a name that can be counted. -/
def BelongsTo (r : SignatureRecord) (name : String) : Prop :=
  ∃ signature : Signature, signature.name = name ∧ isBounded signature ∧ r.Describes signature

/-- Data that are laid out for a signature are what the layout of the signature alone is encoded
as. -/
theorem Describes.exists_layout {r : SignatureRecord} {signature : Signature}
    (h : r.Describes signature) {b : Backend} {data : Bytes} (hdata : r.device.get b = some data) :
    ∃ layout, SignatureLayout.standalone b signature = .ok layout ∧ data = encode layout := by
  obtain ⟨layout, hlayout, rfl⟩ := map_eq_ok_iff.1 (h.data hdata)
  exact ⟨layout, hlayout, rfl⟩

theorem Describes.merge {r other : SignatureRecord} {signature : Signature}
    (h : r.Describes signature) (hother : other.Describes signature) :
    (r.merge other).Describes signature where
  common := h.common
  data {b data} hdata := by
    rw [get_merge, Option.or_eq_some_iff] at hdata
    rcases hdata with hdata | ⟨-, hdata⟩
    · exact h.data hdata
    · exact hother.data hdata

/-- Records of one encoding belong to one description. -/
theorem BelongsTo.merge {r other : SignatureRecord} {name : String} (h : r.BelongsTo name)
    (hother : other.BelongsTo name) (hcommon : r.common = other.common) :
    (r.merge other).BelongsTo name := by
  obtain ⟨signature, hname, hbounded, hdescribes⟩ := h
  obtain ⟨signature', -, hbounded', hdescribes'⟩ := hother
  have hencode : encode signature = encode signature' := by
    rw [← hdescribes.common, hcommon, hdescribes'.common]
  obtain rfl := SelfDelimiting.encode_inj hbounded hbounded' hencode
  exact ⟨signature, hname, hbounded, hdescribes.merge hdescribes'⟩

end SignatureRecord

namespace View

/-- Every archived signature belongs to a description of its name. -/
def IsDescribed (v : View) : Prop := ∀ name r, v.signature name = some r → r.BelongsTo name

namespace IsDescribed

variable {v : View}

/-- Data that are archived of a signature are laid out for it: its encoding is compared, and that
tells it from every other description. -/
theorem describes (h : v.IsDescribed) {signature : Signature} (hsignature : isBounded signature) :
    v.Describes signature := by
  intro r hr hcommon
  obtain ⟨other, -, hother, hdescribes⟩ := h signature.name r hr
  obtain rfl := SelfDelimiting.encode_inj hother hsignature (hdescribes.common.symm.trans hcommon)
  exact hdescribes

/-- What is staged keeps the descriptions if it has some itself and agrees with those archived. A
signature that is made takes the place of any other, so nothing is asked of that one. -/
theorem commit (h : v.IsDescribed) {s : Staging}
    (hagrees : ∀ name r archived, s.signatures.lookup name = some r →
      v.signature name = some archived → archived.common = r.common)
    (hgiven : ∀ name r, s.signatures.lookup name = some r → r.BelongsTo name)
    (hmade : ∀ name r, s.made? name = some r → r.BelongsTo name) :
    (v.commit s).IsDescribed := by
  intro name r hr
  change (s.made? name).or
    ((v.signature name).merge SignatureRecord.merge (s.signatures.lookup name)) = some r at hr
  cases hown : s.made? name with
  | some made =>
    rw [hown, Option.some_or] at hr
    cases hr
    exact hmade name r hown
  | none =>
    rw [hown, Option.none_or] at hr
    cases harchived : v.signature name with
    | none =>
      rw [harchived, Option.merge_none_left] at hr
      exact hgiven name r hr
    | some archived =>
      rw [harchived] at hr
      cases hstaged : s.signatures.lookup name with
      | none =>
        rw [hstaged, Option.merge_none_right] at hr
        cases hr
        exact h name r harchived
      | some staged =>
        rw [hstaged] at hr
        cases hr
        exact (h name archived harchived).merge (hgiven name staged hstaged)
          (hagrees name staged archived hstaged harchived)

end IsDescribed

end View

namespace Archiver

variable {c : Contents} {p : Pipeline} {isExtension : Bool} {compiled : List BackendShaders}

theorem belongsTo_recordOf {signature : Signature} (h : isBounded signature)
    (backends : List Backend) : (recordOf signature backends).BelongsTo signature.name :=
  ⟨signature, rfl, h, describes_recordOf signature backends⟩

/-- The signatures of a pipeline, given or made, keep the descriptions. -/
theorem isDescribed_resolveSignatures (hc : c.view.IsDescribed) {signatures : List Signature}
    {resolved : Staging}
    (h : resolveSignatures c p isExtension compiled = .ok (signatures, resolved))
    (hgiven : ∀ signature ∈ p.common.signatures, isBounded signature)
    (hbound : ∀ signature ∈ signatures, isBounded signature) :
    (c.view.commit resolved).IsDescribed := by
  -- the data that are archived are those laid out, so all is staged as in a new archive
  obtain ⟨hown, hadmits⟩ := resolveSignatures_own h fun signature hmem =>
    hc.describes (hbound signature hmem)
  have hlookup := lookup_resolveSignatures hgiven hown
  have hstaged {name : String} {r : SignatureRecord}
      (hr : resolved.signatures.lookup name = some r) :
      ∃ signature ∈ p.common.signatures, signature.name = name ∧
        r = recordOf signature (compiled.map (·.backend)) := by
    rw [hlookup] at hr
    obtain ⟨signature, hfind, rfl⟩ := Option.map_eq_some_iff.1 hr
    exact ⟨signature, List.mem_of_find?_eq_some hfind, by simpa using List.find?_some hfind, rfl⟩
  refine hc.commit ?agrees ?given ?made
  case agrees =>
    intro name r archived hr harchived
    obtain ⟨signature, hmem, rfl, rfl⟩ := hstaged hr
    exact hadmits signature hmem archived harchived
  case given =>
    intro name r hr
    obtain ⟨signature, hmem, rfl, rfl⟩ := hstaged hr
    exact belongsTo_recordOf (hgiven signature hmem) _
  case made =>
    intro name r hr
    have hdefault : resolved.defaultSignature = some (name, r) := Staging.entryAt_eq_some_iff.1 hr
    rcases resolveSignatures_eq_ok_iff.1 hown with ⟨-, made, hmade, rfl⟩ | ⟨-, hstages, -⟩
    · obtain ⟨signature, rfl, hdescribes⟩ := describes_of_made hmade hdefault
      refine ⟨signature, ?_, hbound signature List.mem_cons_self, hdescribes⟩
      -- a signature that is made is staged under its name
      rcases stageDefaultSignature_eq_ok_iff.1 hmade with ⟨-, ⟨⟩, -⟩ |
        ⟨-, other, _, _, -, -, -, hsame, rfl⟩
      cases hsame
      cases hdefault
      rfl
    · rw [(stageSignatures_spec Contents.grounded_empty.filled hstages).noDefault] at hdefault
      cases hdefault

/-- A signature that is added on its own keeps the descriptions. -/
theorem isDescribed_prepareSignature (hc : c.view.IsDescribed) {signature : Signature}
    (hsignature : isBounded signature) {backends : BackendSet} {staging : Option Staging}
    (h : prepareSignature c signature backends = .ok staging) :
    (c.view.add staging).IsDescribed := by
  obtain ⟨-, hadmits, hview⟩ := prepareSignature_own (hc.describes hsignature) h
  have hlookup {name : String} {r : SignatureRecord}
      (hr : (Staging.addSignature {} signature.name
        (recordOf signature backends.toList)).signatures.lookup name = some r) :
      name = signature.name ∧ r = recordOf signature backends.toList := by
    rw [Staging.addSignature, Staging.lookup_addTo] at hr
    split at hr
    · rename_i hname
      cases hr
      exact ⟨hname, rfl⟩
    · cases hr
  rw [hview]
  refine hc.commit ?_ ?_ (by rintro _ _ ⟨⟩)
  · intro name r archived hr harchived
    obtain ⟨rfl, rfl⟩ := hlookup hr
    exact hadmits archived harchived
  · intro name r hr
    obtain ⟨rfl, rfl⟩ := hlookup hr
    exact belongsTo_recordOf hsignature _

end Archiver

namespace Session

variable {σ : Type} {s : Session σ}

/-! ## Requests and runs -/

/-- Every request that fits keeps the descriptions. -/
theorem isDescribed_perform (hs : s.contents.Grounded) (h : s.contents.view.IsDescribed)
    {r : Request} (hfits : s.Fits r) : (s.perform r).contents.view.IsDescribed := by
  cases r with
  | pipeline p backends =>
    have hgiven := Request.isBounded_given (r := .pipeline p backends) hfits.1
    cases ho : s.origin? (.pipeline p backends) with
    | none =>
      have hsame : (s.perform (.pipeline p backends)).contents = s.contents :=
        Archiver.contents_of_origin?_none ho
      rwa [hsame]
    | some o =>
      obtain ⟨isExtension, resolved, patched, renderPass, rfl, hresolved, -, hcommit⟩ :=
        Archiver.contents_of_origin?_some ho
      have hdistinct := (Archiver.resolveSignatures_spec hs.filled hresolved).distinct
      -- the render pass and the pipeline that are staged with them leave the signatures alone
      intro name record hrecord
      refine Archiver.isDescribed_resolveSignatures h hresolved hgiven (hfits.2 o ho) name record ?_
      have hview := Contents.view_commit hs.toConsistent (s := { resolved with
        renderPass
        pipeline := some ((o.pipeline.chunk, o.pipeline.name),
          Archiver.archived o.pipeline o.signatures patched) }) hdistinct
      change ((s.archiver.addPipeline o.pipeline backends s.state).2.1.contents.view).signature
        name = some record at hrecord
      rw [hcommit, hview] at hrecord
      exact hrecord
  | signature signature backends =>
    have hsignature : isBounded signature :=
      Request.isBounded_given (r := .signature signature backends) hfits.1 signature
        List.mem_cons_self
    rcases s.archiver.contents_addSignature signature backends with hsame | ⟨staging, hs', hcommit⟩
    · change (s.archiver.addSignature signature backends).2.contents.view.IsDescribed
      rwa [hsame]
    · change (s.archiver.addSignature signature backends).2.contents.view.IsDescribed
      have hdistinct := (Archiver.prepareSignature_spec hs.filled hs').1.distinct
      rw [hcommit, Contents.view_commit hs.toConsistent hdistinct]
      exact Archiver.isDescribed_prepareSignature h hsignature hs'
  | renderPass pass =>
    rcases s.archiver.contents_addRenderPass pass with hsame | ⟨renderPass, hcommit⟩
    · change (s.archiver.addRenderPass pass).2.contents.view.IsDescribed
      rwa [hsame]
    · change (s.archiver.addRenderPass pass).2.contents.view.IsDescribed
      rw [hcommit, Contents.view_commit hs.toConsistent (s := { renderPass }) List.nodup_nil]
      exact h.commit (by rintro _ _ _ ⟨⟩) (by rintro _ _ ⟨⟩) (by rintro _ _ ⟨⟩)

/-- A run that fits keeps the descriptions. -/
theorem isDescribed_run (hs : s.contents.Grounded) (h : s.contents.view.IsDescribed)
    {requests : List Request} (hfits : s.Throughout Fits requests) :
    (s.run requests).contents.view.IsDescribed := by
  induction requests generalizing s with
  | nil => exact h
  | cons r rest ih =>
    exact ih (Archiver.grounded_perform hs s.state r) (isDescribed_perform hs h hfits.1) hfits.2

/-- Whatever an archiver was asked to add, every archived signature belongs to a description: its
name is that of the description, its encoding that of the description, and its data on every
backend are the encoding of what the description is laid out as on its own there. -/
theorem signatures_described (registry : Registry σ) (config : Config) (state : σ)
    {requests : List Request} (hfits : (new registry config state).Throughout Fits requests)
    {name : String} {r : SignatureRecord}
    (hr : ((new registry config state).run requests).contents.signatures.get? name = some r) :
    ∃ signature : Signature, signature.name = name ∧ isBounded signature ∧
      r.common = encode signature ∧
      ∀ b data, r.device.get b = some data →
        ∃ layout, SignatureLayout.standalone b signature = .ok layout ∧ data = encode layout := by
  obtain ⟨signature, hname, hbounded, hdescribes⟩ :=
    isDescribed_run (s := new registry config state) Contents.grounded_empty
      (by rintro _ _ ⟨⟩) hfits name r hr
  exact ⟨signature, hname, hbounded, hdescribes.common,
    fun b data hdata => hdescribes.exists_layout hdata⟩

/-- A signature that was given for a pipeline and on its own has one record for both backends. -/
theorem signatures_described_sharedSignature :
    (new metalRegistry {} ()).Throughout Fits sharedSignature ∧
      ∃ r, ((new metalRegistry {} ()).run sharedSignature).contents.signatures.get? "S" = some r ∧
        (∀ b ∈ [Backend.metalMacos, .metalIos], (r.device.get b).isSome) ∧
        ∃ signature : Signature, signature.name = "S" ∧ isBounded signature ∧
          r.common = encode signature ∧
          ∀ b data, r.device.get b = some data →
            ∃ layout, SignatureLayout.standalone b signature = .ok layout ∧
              data = encode layout := by
  have hfits : (new metalRegistry {} ()).Throughout Fits sharedSignature := by decide +kernel
  have hrecord : (((new metalRegistry {} ()).run sharedSignature).contents.signatures.get? "S").map
      (fun r => [Backend.metalMacos, .metalIos].all fun b => (r.device.get b).isSome) =
        some true := by decide +kernel
  obtain ⟨r, hr, hall⟩ := Option.map_eq_some_iff.1 hrecord
  exact ⟨hfits, r, hr, List.all_eq_true.1 hall, signatures_described metalRegistry {} () hfits hr⟩

end Session

end PipelineArchive
