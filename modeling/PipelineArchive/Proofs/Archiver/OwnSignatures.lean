import PipelineArchive.Proofs.Archiver.Staging
import PipelineArchive.Proofs.Contents.View
import PipelineArchive.Proofs.Encoding.Descriptions

/-!
# The signatures that a pipeline adds to a new archive

What is staged of a signature depends on what is archived in two ways: data that are archived are
used again, and a signature whose name has another description is refused. If the data that are
archived of a signature are those that are laid out for it (`View.Describes`), then using them
again makes no difference. The signatures of a pipeline, given or made, are then resolved as in a
new archive (`resolveSignatures_own`), where each has a record with its own data
(`lookup_resolveSignatures`).
-/

set_option autoImplicit false

namespace PipelineArchive

open Results

/-- A record of a signature with data that are laid out for it. -/
structure SignatureRecord.Describes (r : SignatureRecord) (signature : Signature) : Prop where
  common : r.common = encode signature
  data {b : Backend} {data : Bytes} :
    r.device.get b = some data → Patch.signatureData b signature = .ok data

namespace View

/-- What is archived of a signature has data that are laid out for it. -/
def Describes (v : View) (signature : Signature) : Prop :=
  ∀ r, v.signature signature.name = some r → r.common = encode signature → r.Describes signature

/-- No other description is archived under the name of a signature. -/
def Admits (v : View) (signature : Signature) : Prop :=
  ∀ r, v.signature signature.name = some r → r.common = encode signature

end View

namespace Archiver

variable {c : Contents}

/-! ## Records -/

/-- The record of a signature with data for some backends. -/
def recordOf (signature : Signature) (backends : List Backend) : SignatureRecord where
  common := encode signature
  device := .ofFn fun b =>
    if b ∈ backends then (Patch.signatureData b signature).toOption else none

theorem get_recordOf (signature : Signature) (backends : List Backend) (b : Backend) :
    (recordOf signature backends).device.get b =
      if b ∈ backends then (Patch.signatureData b signature).toOption else none :=
  PerBackend.get_ofFn _ b

theorem describes_recordOf (signature : Signature) (backends : List Backend) :
    (recordOf signature backends).Describes signature where
  common := rfl
  data {b data} h := by
    rw [get_recordOf] at h
    split at h
    · cases hdata : Patch.signatureData b signature with
      | error e => rw [hdata] at h; cases h
      | ok laidOut => rw [hdata] at h; exact congrArg Except.ok (Option.some.inj h)
    · cases h

/-- A record for more backends has all data of one for less. -/
theorem merge_recordOf {signature : Signature} {backends more : List Backend}
    (h : backends ⊆ more) :
    (recordOf signature backends).merge (recordOf signature more) = recordOf signature more := by
  refine SignatureRecord.ext_get rfl fun b => ?_
  rw [SignatureRecord.get_merge, get_recordOf, get_recordOf]
  by_cases hb : b ∈ backends
  · rw [if_pos hb, if_pos (h hb), Option.or_self]
  · rw [if_neg hb, Option.none_or]

/-- Data that are laid out for a signature may be used again. -/
theorem dataFor_eq {signature : Signature} {archived : Option SignatureRecord}
    (h : ∀ r, archived = some r → r.Describes signature) (b : Backend) :
    dataFor signature archived b = Patch.signatureData b signature := by
  unfold dataFor
  cases hold : archived.bind fun r => r.device.get b with
  | none => rfl
  | some data =>
    obtain ⟨r, hr, hget⟩ := Option.bind_eq_some_iff.1 hold
    exact ((h r hr).data hget).symm

theorem signatureRecord_eq_recordOf {signature : Signature} {archived : Option SignatureRecord}
    (h : ∀ r, archived = some r → r.Describes signature) {backends : List Backend}
    {record : SignatureRecord}
    (hrecord : signatureRecord signature archived backends = .ok record) :
    record = recordOf signature backends := by
  -- on the way the record has the data for the backends already seen
  refine foldlM_invariant (fun seen record => record = recordOf signature seen) ?_ ?_ hrecord
  · rintro seen b _ next rfl hnext
    obtain ⟨data, hdata, hnext⟩ := bind_eq_ok_iff.1 hnext
    cases hnext
    rw [dataFor_eq h] at hdata
    refine SignatureRecord.ext_get rfl fun other => ?_
    rw [PerBackend.get_set, get_recordOf, get_recordOf]
    by_cases heq : other = b
    · rw [if_pos heq, if_pos (by simp [heq]), heq, hdata]
      rfl
    · simp [heq]
  · exact SignatureRecord.ext_get rfl fun b => by
      simp [SignatureRecord.ofCommon, get_recordOf]

/-- It makes no difference to a record whether its data are archived. -/
theorem signatureRecord_eq {signature : Signature} {archived : Option SignatureRecord}
    (h : ∀ r, archived = some r → r.Describes signature) (backends : List Backend) :
    signatureRecord signature archived backends = signatureRecord signature none backends := by
  have hnone (b : Backend) : dataFor signature none b = Patch.signatureData b signature := rfl
  simp only [signatureRecord, dataFor_eq h, hnone]

/-- Data that are laid out for a signature are archived already. -/
theorem merge_recordOf_of_describes {r : SignatureRecord} {signature : Signature}
    (h : r.Describes signature) {backends : List Backend}
    (hpresent : ∀ b ∈ backends, (r.device.get b).isSome) :
    r.merge (recordOf signature backends) = r ∧
      ∀ b ∈ backends, ∃ data, Patch.signatureData b signature = .ok data := by
  have hdata {b : Backend} (hb : b ∈ backends) :
      ∃ data, r.device.get b = some data ∧ Patch.signatureData b signature = .ok data := by
    obtain ⟨data, hget⟩ := Option.isSome_iff_exists.1 (hpresent b hb)
    exact ⟨data, hget, h.data hget⟩
  refine ⟨SignatureRecord.ext_get rfl fun b => ?_, fun b hb => ?_⟩
  · rw [SignatureRecord.get_merge, get_recordOf]
    by_cases hb : b ∈ backends
    · obtain ⟨data, hget, -⟩ := hdata hb
      rw [hget, Option.some_or]
    · rw [if_neg hb, Option.or_none]
  · obtain ⟨data, -, hlaidOut⟩ := hdata hb
    exact ⟨data, hlaidOut⟩

/-- Data that can be laid out for every backend make a record. -/
theorem signatureRecord_none {signature : Signature} {backends : List Backend}
    (h : ∀ b ∈ backends, ∃ data, Patch.signatureData b signature = .ok data) :
    signatureRecord signature none backends = .ok (recordOf signature backends) := by
  have hfold : ∀ record : SignatureRecord, ∃ result, backends.foldlM (fun record b => do
      let data ← dataFor signature none b
      return { record with device := record.device.set b (some data) }) record =
        (.ok result : Except ArchiveError SignatureRecord) := by
    induction backends with
    | nil => exact fun record => ⟨record, rfl⟩
    | cons first rest ih =>
      intro record
      obtain ⟨⟨data, hdata⟩, hrest⟩ := List.forall_mem_cons.1 h
      obtain ⟨result, hresult⟩ :=
        ih hrest { record with device := record.device.set first (some data) }
      refine ⟨result, ?_⟩
      rw [List.foldlM_cons]
      exact bind_eq_ok_iff.2 ⟨_, bind_eq_ok_iff.2 ⟨data, hdata, rfl⟩, hresult⟩
  obtain ⟨result, hresult⟩ := hfold (SignatureRecord.ofCommon (encode signature))
  obtain rfl := signatureRecord_eq_recordOf (by rintro r ⟨⟩) hresult
  exact hresult

/-! ## Signatures that are given -/

/-- What is archived of a signature decides only whether it is accepted. -/
theorem stageSignature_iff {signature : Signature} (h : c.view.Describes signature)
    {backends : List Backend} {staging next : Staging} :
    stageSignature c backends staging signature = .ok next ↔
      stageSignature .empty backends staging signature = .ok next ∧ c.view.Admits signature := by
  rw [stageSignature_eq_ok_iff, stageSignature_eq_ok_iff]
  constructor
  · rintro ⟨hsame, archived, record, hcheck, hrecord, rfl⟩
    obtain ⟨harchived, hcommon⟩ := Contents.checkSignature_eq_ok_iff.1 hcheck
    have hadmits : c.view.Admits signature := fun r hr => hcommon r (harchived.symm.trans hr)
    have hdescribed : ∀ r, archived = some r → r.Describes signature :=
      fun r hr => h r (harchived.trans hr) (hcommon r hr)
    rw [signatureRecord_eq hdescribed] at hrecord
    exact ⟨⟨hsame, none, record, rfl, hrecord, rfl⟩, hadmits⟩
  · rintro ⟨⟨hsame, archived, record, hcheck, hrecord, rfl⟩, hadmits⟩
    obtain rfl : none = archived := (Contents.checkSignature_eq_ok_iff.1 hcheck).1
    refine ⟨hsame, c.signatures.get? signature.name, record,
      Contents.checkSignature_eq_ok_iff.2 ⟨rfl, hadmits⟩, ?_, rfl⟩
    exact (signatureRecord_eq (fun r hr => h r hr (hadmits r hr)) backends).trans hrecord

theorem foldlM_stageSignature_iff {signatures : List Signature}
    (h : ∀ signature ∈ signatures, c.view.Describes signature) {backends : List Backend}
    {staging result : Staging} :
    signatures.foldlM (stageSignature c backends) staging = .ok result ↔
      signatures.foldlM (stageSignature .empty backends) staging = .ok result ∧
        ∀ signature ∈ signatures, c.view.Admits signature := by
  induction signatures generalizing staging with
  | nil => exact ⟨fun h => ⟨h, fun _ hmem => by cases hmem⟩, And.left⟩
  | cons first rest ih =>
    obtain ⟨hfirst, hrest⟩ := List.forall_mem_cons.1 h
    rw [List.foldlM_cons, List.foldlM_cons, bind_eq_ok_iff, bind_eq_ok_iff, List.forall_mem_cons]
    constructor
    · rintro ⟨next, hnext, hresult⟩
      obtain ⟨hnext, hadmits⟩ := (stageSignature_iff hfirst).1 hnext
      obtain ⟨hresult, hothers⟩ := (ih hrest).1 hresult
      exact ⟨⟨next, hnext, hresult⟩, hadmits, hothers⟩
    · rintro ⟨⟨next, hnext, hresult⟩, hadmits, hothers⟩
      exact ⟨next, (stageSignature_iff hfirst).2 ⟨hnext, hadmits⟩, (ih hrest).2 ⟨hresult, hothers⟩⟩

/-- The signatures given for a pipeline are staged as they are in a new archive if they are
accepted. -/
theorem stageSignatures_iff {signatures : List Signature}
    (h : ∀ signature ∈ signatures, c.view.Describes signature) {compiled : List BackendShaders}
    {s : Staging} :
    stageSignatures c signatures compiled = .ok s ↔
      stageSignatures .empty signatures compiled = .ok s ∧
        ∀ signature ∈ signatures, c.view.Admits signature := by
  simp only [stageSignatures, bind_eq_ok_iff, foldlM_stageSignature_iff h]
  constructor
  · rintro ⟨_, hindices, _, hreflections, hs, hadmits⟩
    exact ⟨⟨_, hindices, _, hreflections, hs⟩, hadmits⟩
  · rintro ⟨⟨_, hindices, _, hreflections, hs⟩, hadmits⟩
    exact ⟨_, hindices, _, hreflections, hs, hadmits⟩

/-- Signatures given for a pipeline are staged with their own data, each name once. -/
theorem lookup_stageSignatures {signatures : List Signature}
    (hbounded : ∀ signature ∈ signatures, isBounded signature) {compiled : List BackendShaders}
    {s : Staging} (h : stageSignatures .empty signatures compiled = .ok s) (name : String) :
    s.signatures.lookup name = (signatures.find? fun signature => signature.name = name).map
      (recordOf · (compiled.map (·.backend))) := by
  obtain ⟨_, -, h⟩ := bind_eq_ok_iff.1 h
  obtain ⟨_, -, h⟩ := bind_eq_ok_iff.1 h
  refine foldlM_invariant (fun seen s => (∀ signature ∈ seen, isBounded signature) →
    ∀ name, s.signatures.lookup name = (seen.find? fun signature => signature.name = name).map
      (recordOf · (compiled.map (·.backend)))) ?_ (fun _ _ => rfl) h hbounded name
  intro seen signature s next hstaged hnext hbounded name
  obtain ⟨hsame, archived, record, hcheck, hrecord, rfl⟩ := stageSignature_eq_ok_iff.1 hnext
  obtain rfl : none = archived := (Contents.checkSignature_eq_ok_iff.1 hcheck).1
  obtain rfl := signatureRecord_eq_recordOf (by rintro r ⟨⟩) hrecord
  obtain ⟨hseen, hsignature⟩ := List.forall_mem_append.1 hbounded
  rw [Staging.addSignature, Staging.lookup_addTo, List.find?_append]
  by_cases hname : name = signature.name
  · subst hname
    rw [if_pos rfl, hstaged hseen]
    cases hfind : seen.find? fun other => other.name = signature.name with
    | none => simp
    | some other =>
      -- a signature that is given twice is the same both times
      have hcommon : encode other = encode signature :=
        hsame (recordOf other _) (by rw [hstaged hseen, hfind]; rfl)
      obtain rfl := SelfDelimiting.encode_inj (hseen other (List.mem_of_find?_eq_some hfind))
        (hsignature signature List.mem_cons_self) hcommon
      exact congrArg some (merge_recordOf (List.Subset.refl _))
  · rw [if_neg hname, hstaged hseen]
    simp [Ne.symm hname]

/-! ## Signatures that are made -/

theorem name_of_synthesize {pipeline : String} {reflections : List Reflection}
    {layout : ResourceLayout} {signature : Signature}
    (h : Signature.synthesize pipeline reflections layout = .ok signature) :
    signature.name = Signature.defaultName pipeline := by
  unfold Signature.synthesize at h
  split at h
  · cases h
  · cases h
    rfl

section

variable {p : Pipeline} {isExtension : Bool} {compiled : List BackendShaders}

/-- A signature is made for a pipeline as in a new archive, unless what is archived of it has other
data than those laid out for it. -/
theorem stageDefaultSignature_own {made : Option Signature} {s : Staging}
    (h : stageDefaultSignature c p isExtension compiled = .ok (made, s))
    (hdescribes : ∀ signature, made = some signature → c.view.Describes signature) :
    stageDefaultSignature .empty p false compiled = .ok (made, s) := by
  rcases stageDefaultSignature_eq_ok_iff.1 h with ⟨hgl, rfl, rfl⟩ |
    ⟨hother, signature, archived, record, hsignature, harchived, hrecord, rfl, rfl⟩
  · exact stageDefaultSignature_eq_ok_iff.2 (.inl ⟨hgl, rfl, rfl⟩)
  · have hdescribed : ∀ r, archived = some r → r.Describes signature := by
      intro r hr
      obtain ⟨hget, hcommon⟩ := archivedDefault_spec harchived hr
      exact hdescribes signature rfl r hget hcommon
    rw [signatureRecord_eq hdescribed] at hrecord
    exact stageDefaultSignature_eq_ok_iff.2
      (.inr ⟨hother, signature, none, record, hsignature, rfl, hrecord, rfl, rfl⟩)

/-- A signature that is made in a new archive is made in one where its name is not taken. -/
theorem stageDefaultSignature_of_own {made : Option Signature} {s : Staging}
    (h : stageDefaultSignature .empty p false compiled = .ok (made, s))
    (hnew : c.view.signature (Signature.defaultName p.name) = none) :
    stageDefaultSignature c p false compiled = .ok (made, s) := by
  rcases stageDefaultSignature_eq_ok_iff.1 h with ⟨hgl, rfl, rfl⟩ |
    ⟨hother, signature, archived, record, hsignature, harchived, hrecord, rfl, rfl⟩
  · exact stageDefaultSignature_eq_ok_iff.2 (.inl ⟨hgl, rfl, rfl⟩)
  · obtain rfl : none = archived := Except.ok.inj harchived
    have hname : c.signature? signature.name = none := by
      rw [name_of_synthesize hsignature]
      exact hnew
    have hdefault : archivedDefault c signature false = .ok none := by
      simp only [archivedDefault, hname]
    exact stageDefaultSignature_eq_ok_iff.2
      (.inr ⟨hother, signature, none, record, hsignature, hdefault, hrecord, rfl, rfl⟩)

theorem name_of_made {signature : Signature} {s : Staging}
    (h : stageDefaultSignature c p isExtension compiled = .ok (some signature, s)) :
    signature.name = Signature.defaultName p.name := by
  rcases stageDefaultSignature_eq_ok_iff.1 h with ⟨-, ⟨⟩, -⟩ |
    ⟨-, made, _, _, hmade, -, -, hsame, -⟩
  obtain rfl := Option.some.inj hsame
  exact name_of_synthesize hmade

/-- In a new archive a signature is made with the data that are laid out for it. -/
theorem describes_of_made {made : Option Signature} {s : Staging}
    (h : stageDefaultSignature .empty p isExtension compiled = .ok (made, s)) {name : String}
    {record : SignatureRecord} (hrecord : s.defaultSignature = some (name, record)) :
    ∃ signature, made = some signature ∧ record.Describes signature := by
  rcases stageDefaultSignature_eq_ok_iff.1 h with ⟨-, rfl, rfl⟩ |
    ⟨-, signature, archived, _, -, harchived, hmade, rfl, rfl⟩
  · cases hrecord
  · cases hrecord
    obtain rfl : none = archived := Except.ok.inj harchived
    rw [signatureRecord_eq_recordOf (by rintro r ⟨⟩) hmade]
    exact ⟨signature, rfl, describes_recordOf signature _⟩

/-- Nothing is staged for a pipeline without signatures but one of the default name, which it has
unless all its backends are those of OpenGL. -/
theorem names_stageDefaultSignature {made : Option Signature} {s : Staging}
    (h : stageDefaultSignature c p isExtension compiled = .ok (made, s)) :
    s.signatures = [] ∧ s.defaultSignature.map (·.1) =
      if compiled.any (!·.backend.isGl) then some (Signature.defaultName p.name) else none := by
  have hany : compiled.any (!·.backend.isGl) ↔ nonGl compiled ≠ [] := by
    simp [nonGl, List.filter_eq_nil_iff]
  rcases stageDefaultSignature_eq_ok_iff.1 h with ⟨hgl, -, rfl⟩ |
    ⟨hother, signature, _, _, hsignature, -, -, -, rfl⟩
  · rw [if_neg fun h => hany.1 h hgl]
    exact ⟨rfl, rfl⟩
  · rw [if_pos (hany.2 hother)]
    exact ⟨rfl, congrArg some (name_of_synthesize hsignature)⟩

/-! ## The signatures of a pipeline -/

/-- The signatures of a pipeline are resolved as in a new archive. -/
theorem resolveSignatures_own {signatures : List Signature} {s : Staging}
    (h : resolveSignatures c p isExtension compiled = .ok (signatures, s))
    (hdescribes : ∀ signature ∈ signatures, c.view.Describes signature) :
    resolveSignatures .empty p false compiled = .ok (signatures, s) ∧
      ∀ signature ∈ p.common.signatures, c.view.Admits signature := by
  rcases resolveSignatures_eq_ok_iff.1 h with ⟨hnone, made, hmade, rfl⟩ | ⟨hsome, hgiven, rfl⟩
  · refine ⟨resolveSignatures_eq_ok_iff.2 (.inl ⟨hnone, made, ?_, rfl⟩), ?_⟩
    · refine stageDefaultSignature_own hmade ?_
      rintro signature rfl
      exact hdescribes signature List.mem_cons_self
    · rw [hnone]
      exact fun _ hmem => by cases hmem
  · obtain ⟨hgiven, hadmits⟩ := (stageSignatures_iff fun signature hmem =>
      hdescribes signature (mem_inBindingOrder.2 hmem)).1 hgiven
    exact ⟨resolveSignatures_eq_ok_iff.2 (.inr ⟨hsome, hgiven, rfl⟩), hadmits⟩

/-- Signatures that are resolved in a new archive are resolved in one that accepts them and does
not have the name of one that is made. -/
theorem resolveSignatures_of_own {signatures : List Signature} {s : Staging}
    (h : resolveSignatures .empty p false compiled = .ok (signatures, s))
    (haccepts : ∀ name r archived, s.signatures.lookup name = some r →
      c.view.signature name = some archived → archived.common = r.common)
    (hdescribes : ∀ signature ∈ p.common.signatures, c.view.Describes signature)
    (hnew : p.common.signatures = [] → c.view.signature (Signature.defaultName p.name) = none) :
    resolveSignatures c p false compiled = .ok (signatures, s) := by
  rcases resolveSignatures_eq_ok_iff.1 h with ⟨hnone, made, hmade, rfl⟩ | ⟨hsome, hgiven, rfl⟩
  · exact resolveSignatures_eq_ok_iff.2
      (.inl ⟨hnone, made, stageDefaultSignature_of_own hmade (hnew hnone), rfl⟩)
  · have hstages := stageSignatures_spec Contents.grounded_empty.filled hgiven
    refine resolveSignatures_eq_ok_iff.2
      (.inr ⟨hsome, (stageSignatures_iff hdescribes).2 ⟨hgiven, ?_⟩, rfl⟩)
    intro signature hmem archived harchived
    obtain ⟨record, hrecord, hcommon, -⟩ := hstages.record signature hmem
    exact (haccepts _ _ _ hrecord harchived).trans hcommon

/-- A pipeline is bound by the signatures that are given, or by one of the default name. -/
theorem mem_resolveSignatures {signatures : List Signature} {s : Staging}
    (h : resolveSignatures c p isExtension compiled = .ok (signatures, s)) {signature : Signature}
    (hmem : signature ∈ signatures) : signature ∈ p.common.signatures ∨
      p.common.signatures = [] ∧ signature.name = Signature.defaultName p.name := by
  rcases resolveSignatures_eq_ok_iff.1 h with ⟨hnone, made, hmade, rfl⟩ | ⟨-, -, rfl⟩
  · obtain rfl : made = some signature := by simpa [eq_comm] using hmem
    exact .inr ⟨hnone, name_of_made hmade⟩
  · exact .inl (mem_inBindingOrder.1 hmem)

/-- What is staged of the signatures of a pipeline in a new archive. -/
theorem lookup_resolveSignatures (hbounded : ∀ signature ∈ p.common.signatures, isBounded signature)
    {signatures : List Signature} {s : Staging}
    (h : resolveSignatures .empty p isExtension compiled = .ok (signatures, s)) (name : String) :
    s.signatures.lookup name =
      (p.common.signatures.find? fun signature => signature.name = name).map
        (recordOf · (compiled.map (·.backend))) := by
  rcases resolveSignatures_eq_ok_iff.1 h with ⟨hnone, made, hmade, rfl⟩ | ⟨-, hgiven, rfl⟩
  · rw [(names_stageDefaultSignature hmade).1, hnone]
    rfl
  · exact lookup_stageSignatures hbounded hgiven name

/-- A signature is staged as the pipeline's own if none are given and some backend is not one of
OpenGL. -/
theorem defaultName_resolveSignatures {signatures : List Signature} {s : Staging}
    (h : resolveSignatures .empty p isExtension compiled = .ok (signatures, s)) :
    s.defaultSignature.map (·.1) =
      if compiled.any (!·.backend.isGl) then
        if p.common.signatures.isEmpty then some (Signature.defaultName p.name) else none
      else none := by
  rcases resolveSignatures_eq_ok_iff.1 h with ⟨hnone, made, hmade, rfl⟩ | ⟨hsome, hgiven, rfl⟩
  · rw [(names_stageDefaultSignature hmade).2, if_pos (List.isEmpty_iff.2 hnone)]
  · rw [(stageSignatures_spec Contents.grounded_empty.filled hgiven).noDefault,
      if_neg fun h => hsome (List.isEmpty_iff.1 h), ite_self]
    rfl

end

end Archiver

end PipelineArchive
