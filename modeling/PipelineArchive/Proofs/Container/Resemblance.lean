import PipelineArchive.Inspection
import PipelineArchive.Description.RenderPass
import PipelineArchive.Proofs.Container.Formats
import PipelineArchive.Proofs.Container.NameLists
import PipelineArchive.Proofs.Container.Soundness
import PipelineArchive.Proofs.Description.Checks

/-!
# Records that read as pipelines

A record tells its kind, but the reader of pipelines is told a kind as well, and compares no more
than the two. So the record of a signature or of a render pass is read as a pipeline if its payload
and its data look like those of one (`Resembles`). In an archive that was built this is exactly when
it happens (`Built.exists_pipeline_iff`), and then a report shows the record as a pipeline
(`Inspection.exists_pipelineLine_iff`). Render passes do look like pipelines: all those that have no
attachments (`resembles_of_no_attachments`), and those with a single attachment that is stored
(`resembles_of_stored`), whatever else is said of them.
-/

set_option autoImplicit false

namespace PipelineArchive

/-! ## Descriptions of render passes -/

namespace RenderPass

/-- There is at most one attachment, and what is drawn into it is stored. -/
structure IsPlain (pass : RenderPass) : Prop where
  single : pass.attachments.length ≤ 1
  stored : ∀ attachment ∈ pass.attachments, attachment.storeOp = .store

end RenderPass

namespace Container

open Results

/-- A payload and data begin with those of a pipeline. -/
structure Resembles (payload : Bytes) (device : PerBackend (Option Bytes)) : Prop where
  payload : ∃ p signatures renderPass more,
    payload = pipelinePayload p signatures renderPass ++ more
  device (b : Backend) : ∀ data ∈ device.get b, ∃ d more, data = devicePayload d ++ more

/-- What is said of a pipeline resembles one. -/
theorem resembles_of_pipelineRecord {c : Contents} {key : PipelineKey} {p : PipelineRecord}
    {r : Record} (h : pipelineRecord c key p = .ok r) : Resembles r.payload r.device := by
  obtain ⟨-, -, ⟨signatures, renderPass, hpayload, -, -⟩, -, hdevice⟩ := pipelineRecord_spec h
  refine ⟨⟨p, signatures, renderPass, [], by rw [hpayload, List.append_nil]⟩, ?_⟩
  intro b data hdata
  rw [hdevice, PerBackend.get_ofFn] at hdata
  obtain ⟨d, -, rfl⟩ := Option.map_eq_some_iff.1 hdata
  exact ⟨d, [], (List.append_nil _).symm⟩

/-- A payload without data resembles a pipeline if it begins with the payload of one. -/
theorem resembles_of_payload {payload : Bytes} {p : PipelineRecord} {signatures : List UInt32}
    {renderPass : UInt32} {more : Bytes}
    (h : payload = pipelinePayload p signatures renderPass ++ more) :
    Resembles payload (.replicate none) := by
  refine ⟨⟨p, signatures, renderPass, more, h⟩, ?_⟩
  intro b data hdata
  rw [PerBackend.get_replicate] at hdata
  cases hdata

/-! ## Render passes -/

/-- A render pass without attachments looks like a pipeline: the name stands where the description
of a pipeline is, the number of subpasses where the position of its render pass is, and the counts
of nothing before and behind it are those of signatures and of layouts. -/
theorem resembles_of_no_attachments {pass : RenderPass} (hcheck : pass.check = .ok ())
    (h : pass.attachments = []) : Resembles (encode pass) (.replicate none) := by
  obtain ⟨hsubpasses, hgrounded⟩ := RenderPass.check_eq_ok_iff.1 hcheck
  obtain ⟨subpass, rest, hcons⟩ := List.exists_cons_of_ne_nil hsubpasses
  -- there is nothing that the first subpass could name
  have hinputs : subpass.inputs = [] := by
    have hnone := hgrounded.subpasses subpass (hcons ▸ List.mem_cons_self)
    rw [h] at hnone
    exact List.eq_nil_iff_forall_not_mem.2 fun reference hreference =>
      Nat.not_lt_zero _ (hnone.inputs reference hreference)
  obtain ⟨behind, hencode⟩ : ∃ behind, encode subpass = Encode.count 0 ++ behind := by
    change ∃ behind, Encode.list subpass.inputs ++ _ ++ _ ++ _ ++ _ = _
    rw [hinputs]
    simp only [List.append_assoc]
    exact ⟨_, rfl⟩
  let seen : PipelineRecord := ⟨[], Bytes.ofText pass.name, [], none, [], .replicate none⟩
  have hpayload : encode pass =
      pipelinePayload seen [] (UInt32.ofNat (min pass.subpasses.length maxCount))
        ++ (behind ++ (rest.flatMap encode ++ Encode.list pass.dependencies)) := by
    change encode pass.name ++ Encode.list pass.attachments
      ++ (Encode.count pass.subpasses.length ++ pass.subpasses.flatMap encode)
      ++ Encode.list pass.dependencies = _
    rw [h, hcons, List.flatMap_cons, hencode]
    simp only [pipelinePayload, List.append_assoc]
    rfl
  exact resembles_of_payload hpayload

/-- A render pass with a single attachment that is stored looks like a pipeline with one signature,
at the position that is the format of the attachment: the number of samples and what happens to the
attachment at the start stand where the position of the render pass is, and that it is stored at the
end makes for no layouts. -/
theorem resembles_of_stored {pass : RenderPass} {attachment : Attachment}
    (h : pass.attachments = [attachment]) (hstore : attachment.storeOp = .store) :
    Resembles (encode pass) (.replicate none) := by
  -- the words of a pipeline are cut one byte behind those of the attachment
  let loadBytes : Bytes := (encode attachment.loadOp).take 3
  have hload : encode attachment.loadOp = loadBytes ++ [0] := by
    cases hop : attachment.loadOp <;> simp only [loadBytes, hop] <;> rfl
  obtain ⟨word, hword⟩ : ∃ word : UInt32, [attachment.sampleCount] ++ loadBytes = encode word := by
    refine ⟨_, (Bytes.ofU32_toNat ?_).symm⟩
    simp only [loadBytes]
    cases attachment.loadOp <;> rfl
  obtain ⟨behind, hencode⟩ : ∃ behind, encode attachment =
      encode attachment.format ++ encode word ++ Encode.count 0 ++ behind := by
    change ∃ behind, encode attachment.format ++ [attachment.sampleCount]
      ++ encode attachment.loadOp ++ encode attachment.storeOp ++ _ ++ _ ++ _ ++ _ = _
    rw [← hword, hload, hstore]
    simp only [List.append_assoc]
    exact ⟨[0] ++ _, rfl⟩
  let seen : PipelineRecord := ⟨[], Bytes.ofText pass.name, [], none, [], .replicate none⟩
  have hpayload : encode pass =
      pipelinePayload seen [UInt32.ofNat attachment.format.ctorIdx] word
        ++ (behind ++ (Encode.list pass.subpasses ++ Encode.list pass.dependencies)) := by
    change encode pass.name
      ++ (Encode.count pass.attachments.length ++ pass.attachments.flatMap encode)
      ++ Encode.list pass.subpasses ++ Encode.list pass.dependencies = _
    rw [h, List.flatMap_cons, hencode]
    simp only [pipelinePayload, List.append_assoc]
    rfl
  exact resembles_of_payload hpayload

theorem resembles_of_isPlain {pass : RenderPass} (h : pass.IsPlain)
    (hcheck : pass.check = .ok ()) : Resembles (encode pass) (.replicate none) := by
  have hsingle := h.single
  have hstored := h.stored
  cases hattachments : pass.attachments with
  | nil => exact resembles_of_no_attachments hcheck hattachments
  | cons attachment rest =>
    rw [hattachments] at hsingle hstored
    obtain rfl : rest = [] := by simpa using hsingle
    exact resembles_of_stored hattachments (hstored attachment List.mem_cons_self)

/-! ## Records that are found -/

/-- The reader finds a record, its payload and its data, under a kind and name. -/
structure Archive.Finds (a : Archive) (kind : ChunkKind) (name : String) (r : Record) : Prop where
  place : ∃ e header, a.lookup kind name = .ok e ∧
    a.record kind e = .ok ⟨header, r.payload⟩ ∧
    ∀ b, a.deviceData? b ⟨header, r.payload⟩ name = .ok (r.device.get b)
  length_payload : r.payload.length < UInt32.size
  length_data (b : Backend) : ∀ data ∈ r.device.get b, data.length < UInt32.size

namespace Archive.Finds

variable {a : Archive} {kind : ChunkKind} {name : String} {r : Record}

theorem signature_eq (h : a.Finds .signatures name r) :
    a.signature name = .ok ⟨r.payload, r.device⟩ := by
  obtain ⟨e, header, hlookup, hrecord, hdata⟩ := h.place
  exact bind_eq_ok_iff.2 ⟨e, hlookup, bind_eq_ok_iff.2 ⟨_, hrecord,
    bind_eq_ok_iff.2 ⟨r.device, ofFnM_eq_ok_iff.2 hdata, rfl⟩⟩⟩

theorem renderPass_eq (h : a.Finds .renderPasses name r) : a.renderPass name = .ok r.payload := by
  obtain ⟨e, header, hlookup, hrecord, -⟩ := h.place
  exact bind_eq_ok_iff.2 ⟨e, hlookup, bind_eq_ok_iff.2 ⟨_, hrecord, rfl⟩⟩

/-- A record is read as a pipeline exactly if it resembles one. -/
theorem exists_pipeline_iff (h : a.Finds kind name r) :
    (∃ view, a.pipeline kind name = .ok view) ↔ Resembles r.payload r.device := by
  obtain ⟨e, header, hlookup, hrecord, hdata⟩ := h.place
  have hpayload := exists_readPipeline_iff name h.length_payload
  constructor
  · rintro ⟨view, hview⟩
    obtain ⟨e', hlookup', hview⟩ := bind_eq_ok_iff.1 hview
    cases Except.ok.inj (hlookup.symm.trans hlookup')
    obtain ⟨r', hrecord', hview⟩ := bind_eq_ok_iff.1 hview
    cases Except.ok.inj (hrecord.symm.trans hrecord')
    obtain ⟨read, hread, hview⟩ := bind_eq_ok_iff.1 hview
    obtain ⟨device, hdevice, -⟩ := bind_eq_ok_iff.1 hview
    refine ⟨hpayload.1 ⟨read, hread⟩, ?_⟩
    intro b data hsome
    obtain ⟨data?, hdata?, hb⟩ := bind_eq_ok_iff.1 (ofFnM_eq_ok_iff.1 hdevice b)
    cases Except.ok.inj ((hdata b).symm.trans hdata?)
    rw [Option.mem_def.1 hsome] at hb
    obtain ⟨d, hd, -⟩ := bind_eq_ok_iff.1 hb
    exact (exists_readDevice_iff (h.length_data b data hsome)).1 ⟨d, hd⟩
  · intro hresembles
    obtain ⟨read, hread⟩ := hpayload.2 hresembles.payload
    refine exists_bind_eq_ok hlookup (exists_bind_eq_ok hrecord (exists_bind_eq_ok hread ?_))
    apply Exists.elim (exists_ofFnM fun b => ?_) fun device hdevice =>
      exists_bind_eq_ok hdevice ⟨_, rfl⟩
    -- the data are read on every backend that has some
    refine exists_bind_eq_ok (hdata b) ?_
    cases hsome : r.device.get b with
    | none => exact ⟨none, rfl⟩
    | some data =>
      obtain ⟨d, hd⟩ := (exists_readDevice_iff (h.length_data b data hsome)).2
        (hresembles.device b data hsome)
      exact exists_bind_eq_ok hd ⟨_, rfl⟩

end Archive.Finds

/-- Names are found in chunks of names only. -/
theorem Archive.isNamed_of_lookup {a : Archive} {data : Bytes} {kind : ChunkKind} {name : String}
    {e : NamedEntry} (ha : ofBytes data = .ok a) (hlookup : a.lookup kind name = .ok e) :
    kind.isNamed = true := by
  obtain ⟨he, -⟩ := mem_of_lookup hlookup
  by_contra hunnamed
  rw [entries_eq_nil ha (Bool.not_eq_true _ ▸ hunnamed)] at he
  exact List.not_mem_nil he

/-! ## Archives that were built -/

/-- What is read as a pipeline of a kind and name from an archive that has pipelines of some names:
a pipeline, a render pass that resembles one, or a signature that does. -/
inductive Archive.Takes (a : Archive) (names : ChunkKind → String → Prop) :
    ChunkKind → String → Prop where
  | pipeline {kind : ChunkKind} {name seen : String} : kind.isPipeline = true → names kind name →
      SeenAs name seen → a.Takes names kind seen
  | renderPass {name : String} {desc : Bytes} : a.renderPass name = .ok desc →
      Resembles desc (.replicate none) → a.Takes names .renderPasses name
  | signature {name : String} {view : SignatureView} : a.signature name = .ok view →
      Resembles view.common view.device → a.Takes names .signatures name

namespace Built

variable {c : Contents} {builder : Option String} {rs : List Record} {l : Layout} {a : Archive}

/-- What a name leads to is a record of the kind and of a name that is seen as this one. -/
theorem exists_finds (h : Built c builder rs l a) (hc : c.Readable) {kind : ChunkKind}
    (hkind : kind.isNamed = true) {name : String} {e : NamedEntry}
    (hlookup : a.lookup kind name = .ok e) :
    ∃ r ∈ rs, r.kind = kind ∧ SeenAs r.name name ∧ a.Finds kind name r := by
  obtain ⟨he, rfl⟩ := Archive.mem_of_lookup hlookup
  obtain ⟨placed, hplaced, hr, rfl, hentry⟩ := h.exists_source hkind he
  obtain ⟨-, header, hrecord, hdata⟩ := h.layout.record_spec h.size h.opened hplaced hentry
    (device_ne_nil hc h.records hr)
  exact ⟨placed.1, hr, rfl, hentry.1, ⟨e, header, hlookup, hrecord, fun b => hdata b e.name⟩,
    h.length_payload_lt hr, fun b data hsome => h.length_data_lt hr hsome⟩

/-- The description that is found under the name of a render pass is that of one that is archived,
and there are no data with it. -/
theorem exists_of_renderPass (h : Built c builder rs l a) (hresolves : c.Resolves)
    (hc : c.Readable) {name : String} {desc : Bytes} (hdesc : a.renderPass name = .ok desc) :
    ∃ archived, c.renderPasses.get? archived = some desc ∧ SeenAs archived name ∧
      a.Finds .renderPasses name (renderPassSource (archived, desc)) := by
  obtain ⟨e, hlookup, -⟩ := bind_eq_ok_iff.1 hdesc
  obtain ⟨r, hr, hkind, hseen, hfinds⟩ := h.exists_finds hc rfl hlookup
  cases Except.ok.inj (hdesc.symm.trans hfinds.renderPass_eq)
  rcases mem_records h.records hr with ⟨_, _, -, rfl⟩ | ⟨archived, desc, harchived, rfl⟩ |
    ⟨key, p, hp, hrecord⟩
  · cases hkind
  · exact ⟨archived, harchived, hseen, hfinds⟩
  · have hpipeline := hresolves.kind hp
    rw [← (pipelineRecord_spec hrecord).1, hkind] at hpipeline
    cases hpipeline

/-- A pipeline is read exactly from pipelines, and from render passes and signatures that resemble
one. -/
theorem exists_pipeline_iff (h : Built c builder rs l a) (hresolves : c.Resolves)
    (hc : c.Readable) {data : Bytes} (ha : Archive.ofBytes data = .ok a) (kind : ChunkKind)
    (name : String) : (∃ view, a.pipeline kind name = .ok view) ↔
      a.Takes (fun kind name => name ∈ c.names kind) kind name := by
  constructor
  · rintro ⟨view, hview⟩
    obtain ⟨e, hlookup, -⟩ := bind_eq_ok_iff.1 hview
    obtain ⟨r, hr, rfl, hseen, hfinds⟩ :=
      h.exists_finds hc (Archive.isNamed_of_lookup ha hlookup) hlookup
    -- the record says what it resembles, and its kind where it comes from
    have hresembles := hfinds.exists_pipeline_iff.1 ⟨view, hview⟩
    rcases mem_records h.records hr with ⟨_, s, -, rfl⟩ | ⟨_, desc, -, rfl⟩ | ⟨key, p, hp, hrecord⟩
    · exact .signature hfinds.signature_eq hresembles
    · exact .renderPass hfinds.renderPass_eq hresembles
    · have hpipeline := hresolves.kind hp
      rw [← (pipelineRecord_spec hrecord).1] at hpipeline
      refine .pipeline hpipeline ?_ hseen
      rw [← map_name_recordsOf hresolves h.records (isNamed_of_isPipeline hpipeline)]
      exact List.mem_map.2 ⟨r, List.mem_filter.2 ⟨hr, beq_self_eq_true _⟩, rfl⟩
  · intro htakes
    cases htakes with
    | @pipeline kind archived seen hkind hname hseen =>
      -- there is an entry for the name that was archived, and it is found under what is seen of it
      obtain ⟨e, he, hentry⟩ := exists_of_mem_left
        (h.seen_names hresolves (isNamed_of_isPipeline hkind)) hname
      obtain rfl : e.name = name := Bytes.ofText_injective (hentry.trans hseen.symm)
      obtain ⟨e', he', hsame, hlookup⟩ := exists_lookup he
      obtain ⟨r, hr, rfl, -, hfinds⟩ := h.exists_finds hc (isNamed_of_isPipeline hkind) hlookup
      obtain ⟨key, p, -, hrecord⟩ := h.exists_pipeline hr hkind
      exact hfinds.exists_pipeline_iff.2 (resembles_of_pipelineRecord hrecord)
    | renderPass hdesc hresembles =>
      obtain ⟨_, -, -, hfinds⟩ := h.exists_of_renderPass hresolves hc hdesc
      exact hfinds.exists_pipeline_iff.2 hresembles
    | @signature _ view hview hresembles =>
      obtain ⟨e, hlookup, -⟩ := bind_eq_ok_iff.1 hview
      obtain ⟨r, -, -, -, hfinds⟩ := h.exists_finds hc rfl hlookup
      cases Except.ok.inj (hview.symm.trans hfinds.signature_eq)
      exact hfinds.exists_pipeline_iff.2 hresembles

end Built

end Container

/-! ## Reports -/

namespace Inspection

open Container

theorem getElem?_append {s t : String} {i : Nat} {c : Char} (h : s.toList[i]? = some c) :
    (s ++ t).toList[i]? = some c := by
  rw [String.toList_append, List.getElem?_append_left (List.getElem?_eq_some_iff.1 h).1, h]

/-- A line on an entry begins with its name, and no line on a pipeline does. -/
theorem pipelineLine_ne_entry (view : Archive.PipelineView) (name rest : String) :
    pipelineLine view ≠ "  " ++ Text.quoted name ++ rest := by
  intro heq
  have hview : (pipelineLine view).toList[2]? = some ' ' := by
    unfold pipelineLine
    repeat apply getElem?_append
    decide
  have hname : ("  " ++ Text.quoted name ++ rest).toList[2]? = some '"' := by
    apply getElem?_append
    rw [String.toList_append, List.getElem?_append_right (by decide), Text.quoted,
      String.toList_ofList]
    rfl
  rw [heq, hname] at hview
  cases hview

theorem pipelineLine_ne_signatureLine (view : Archive.PipelineView) (s : Archive.SignatureView) :
    pipelineLine view ≠ signatureLine s := by
  intro heq
  have hview : (pipelineLine view).toList[4]? = some 's' := by
    unfold pipelineLine
    repeat apply getElem?_append
    decide
  have hsignature : (signatureLine s).toList[4]? = some 'b' := by
    apply getElem?_append
    decide
  rw [heq, hsignature] at hview
  cases hview

theorem pipelineLine_mem {a : Archive} {kind : ChunkKind} {e : NamedEntry}
    {view : Archive.PipelineView} (h : a.pipeline kind e.name = .ok view) :
    pipelineLine view ∈ entryLines a kind e := by
  simp [entryLines, h]

/-- What is read as a pipeline is reported as one. -/
theorem exists_reported {a : Archive} {kind : ChunkKind} {name : String}
    {view : Archive.PipelineView} (h : a.pipeline kind name = .ok view) :
    ∃ e ∈ a.entries kind, pipelineLine view ∈ entryLines a kind e := by
  obtain ⟨e, hlookup, -⟩ := Results.bind_eq_ok_iff.1 h
  obtain ⟨he, rfl⟩ := Archive.mem_of_lookup hlookup
  exact ⟨e, he, pipelineLine_mem h⟩

/-- A report has a line on a pipeline exactly for the entries that are read as one. -/
theorem exists_pipelineLine_iff (a : Archive) (kind : ChunkKind) (e : NamedEntry) :
    (∃ view, pipelineLine view ∈ entryLines a kind e) ↔
      ∃ view, a.pipeline kind e.name = .ok view := by
  have hentry (view : Archive.PipelineView) : pipelineLine view ≠
      s!"  {Text.quoted e.name}: {e.size.toNat} bytes at {e.offset.toNat}" := by
    have hne := pipelineLine_ne_entry view e.name
      (": " ++ e.size.toNat.repr ++ " bytes at " ++ e.offset.toNat.repr)
    simp only [← String.append_assoc] at hne
    exact hne
  cases hview : a.pipeline kind e.name with
  | ok view => exact iff_of_true ⟨view, pipelineLine_mem hview⟩ ⟨view, rfl⟩
  | error reason =>
    apply iff_of_false
    · rintro ⟨view, hline⟩
      -- what is left are lines on the entry and on a signature, and both begin otherwise
      simp only [entryLines, hview] at hline
      split at hline
      · split at hline
        · rcases List.mem_pair.1 hline with hline | hline
          · exact hentry view hline
          · exact pipelineLine_ne_signatureLine view _ hline
        · exact hentry view (List.mem_singleton.1 hline)
      · exact hentry view (List.mem_singleton.1 hline)
    · rintro ⟨view, ⟨⟩⟩

end Inspection
end PipelineArchive
