import PipelineArchive.Proofs.Container.Beginning
import PipelineArchive.Proofs.Container.Verified

/-!
# What passes verification can be followed

Verification goes through an archive entry by entry, but the archive is asked by name, and of
several entries of one name only the first is found. `Archive.Sound` says what every entry of an
archive must lead to, whether names repeat or records overlap, and `verify_eq_ok_iff` says that
verification succeeds for these archives and for no others. What holds of every entry holds of the
one that is found. So in a verified archive the name of every entry is found with all that belongs
to it, and a pipeline refers only to what can be read (`verify_sound`).
-/

set_option autoImplicit false

namespace PipelineArchive.Container.Archive

open Results

variable {a : Archive} {kind : ChunkKind} {name : String} {e : NamedEntry}

/-! ## Pipelines -/

/-- A pipeline refers to signatures, a render pass and shaders that the archive has. -/
structure Refers (a : Archive) (view : PipelineView) : Prop where
  signatures : ∀ index ∈ view.signatures, index.toNat < (a.entries .signatures).length
  renderPass : ∀ index ∈ view.renderPass, index.toNat < (a.entries .renderPasses).length
  shaders (b : Backend) : ∀ device ∈ view.device.get b, ∃ shaders, a.shaders b = .ok shaders ∧
    ∀ index ∈ device.shaders, index.toNat < shaders.length

theorem firstOutside_eq_none_iff {indices : List UInt32} {count : Nat} :
    firstOutside indices count = none ↔ ∀ index ∈ indices, index.toNat < count := by
  rw [firstOutside, List.find?_eq_none]
  simp

/-- A pipeline passes if it is read, and what it refers to is there. -/
theorem verifyPipeline_eq_ok_iff :
    a.verifyPipeline (.ofFn fun b => (a.shaders b).map List.length) kind name = .ok () ↔
      ∃ view, a.pipeline kind name = .ok view ∧ a.Refers view := by
  unfold verifyPipeline
  rw [bind_eq_ok_iff]
  refine exists_congr fun view => and_congr_right fun _ => ?_
  simp only
  cases hsignatures : firstOutside view.signatures (a.entries .signatures).length with
  | some index =>
    refine iff_of_false (by rintro ⟨⟩) fun hrefers => ?_
    rw [firstOutside_eq_none_iff.2 hrefers.signatures] at hsignatures
    cases hsignatures
  | none =>
    cases hpass : firstOutside view.renderPass.toList (a.entries .renderPasses).length with
    | some index =>
      refine iff_of_false (by rintro ⟨⟩) fun hrefers => ?_
      have hnone := firstOutside_eq_none_iff.2 fun i hi =>
        hrefers.renderPass i (Option.mem_toList.1 hi)
      rw [hnone] at hpass
      cases hpass
    | none =>
      simp only [PerBackend.get_ofFn]
      rw [forM_eq_ok_iff]
      constructor
      · intro h
        refine ⟨firstOutside_eq_none_iff.1 hsignatures, fun i hi =>
          firstOutside_eq_none_iff.1 hpass i (Option.mem_toList.2 hi), fun b device hdevice => ?_⟩
        have hb := h b (Backend.mem_all b)
        rw [Option.mem_def.1 hdevice] at hb
        obtain ⟨count, hcount, hb⟩ := bind_eq_ok_iff.1 hb
        obtain ⟨shaders, hshaders, rfl⟩ := map_eq_ok_iff.1 hcount
        refine ⟨shaders, hshaders, firstOutside_eq_none_iff.1 ?_⟩
        cases houtside : firstOutside device.shaders shaders.length with
        | none => rfl
        | some index =>
          rw [houtside] at hb
          cases hb
      · intro hrefers b _
        cases hdevice : view.device.get b with
        | none => rfl
        | some device =>
          obtain ⟨shaders, hshaders, hindices⟩ := hrefers.shaders b device hdevice
          rw [hshaders]
          refine bind_eq_ok_iff.2 ⟨shaders.length, rfl, ?_⟩
          rw [firstOutside_eq_none_iff.2 hindices]
          rfl

/-! ## Entries -/

/-- A record is in its place if it has a head and ends in the common region. -/
theorem verifyPlace_eq_ok_iff : a.verifyPlace kind e = .ok () ↔
    a.header.common.toNat + e.offset.toNat + e.size.toNat ≤ min maxOffset a.commonEnd ∧
      DataHeader.size ≤ e.size.toNat := by
  simp only [verifyPlace]
  split
  · refine iff_of_false (by rintro ⟨⟩) ?_
    omega
  · split
    · refine iff_of_false (by rintro ⟨⟩) ?_
      omega
    · refine iff_of_true rfl ?_
      omega

/-- What an entry must lead to: a record in the common region with a head and all of its data, and,
if it is one of a pipeline, a pipeline under its name that refers to what the archive has. -/
structure Leads (a : Archive) (kind : ChunkKind) (e : NamedEntry) : Prop where
  place : a.header.common.toNat + e.offset.toNat + e.size.toNat ≤ min maxOffset a.commonEnd
  head : DataHeader.size ≤ e.size.toNat
  record : ∃ r, a.record kind e = .ok r ∧ ∀ b, ∃ data?, a.deviceData? b r e.name = .ok data?
  pipeline : kind.isPipeline = true → ∃ view, a.pipeline kind e.name = .ok view ∧ a.Refers view

theorem verifyEntry_eq_ok_iff :
    a.verifyEntry (.ofFn fun b => (a.shaders b).map List.length) kind e = .ok () ↔
      a.Leads kind e := by
  unfold verifyEntry
  constructor
  · intro h
    obtain ⟨⟨⟩, hplace, h⟩ := bind_eq_ok_iff.1 h
    obtain ⟨r, hrecord, h⟩ := bind_eq_ok_iff.1 h
    obtain ⟨⟨⟩, hdata, h⟩ := bind_eq_ok_iff.1 h
    rw [verifyPlace_eq_ok_iff] at hplace
    refine ⟨hplace.1, hplace.2, ⟨r, hrecord, fun b => ?_⟩, fun hkind => ?_⟩
    · obtain ⟨data?, hdata?, -⟩ := bind_eq_ok_iff.1 (forM_eq_ok_iff.1 hdata b (Backend.mem_all b))
      exact ⟨data?, hdata?⟩
    · rw [if_pos hkind] at h
      exact verifyPipeline_eq_ok_iff.1 h
  · intro h
    obtain ⟨r, hrecord, hdata⟩ := h.record
    refine bind_eq_ok_iff.2 ⟨(), verifyPlace_eq_ok_iff.2 ⟨h.place, h.head⟩,
      bind_eq_ok_iff.2 ⟨r, hrecord, bind_eq_ok_iff.2 ⟨(), forM_eq_ok_iff.2 fun b _ => ?_, ?_⟩⟩⟩
    · obtain ⟨data?, hdata?⟩ := hdata b
      exact bind_eq_ok_iff.2 ⟨data?, hdata?, rfl⟩
    · by_cases hkind : kind.isPipeline = true
      · rw [if_pos hkind]
        exact verifyPipeline_eq_ok_iff.2 (h.pipeline hkind)
      · rw [if_neg hkind]
        rfl

/-- Every entry of an archive leads to what it must. -/
structure Sound (a : Archive) : Prop where
  common : a.header.common.toNat ≤ a.commonEnd
  entry {kind : ChunkKind} {e : NamedEntry} : kind.isNamed = true → e ∈ a.entries kind →
    a.Leads kind e

/-- Verification succeeds exactly for sound archives. -/
theorem verify_eq_ok_iff : a.verify = .ok () ↔ a.Sound := by
  have hentries : ((ChunkKind.all.filter ChunkKind.isNamed).forM fun kind =>
      (a.entries kind).forM
        (a.verifyEntry (.ofFn fun b => (a.shaders b).map List.length) kind)) = .ok () ↔
      ∀ kind, kind.isNamed = true → ∀ e ∈ a.entries kind, a.Leads kind e := by
    rw [forM_eq_ok_iff]
    simp only [List.mem_filter, ChunkKind.mem_all, true_and, forM_eq_ok_iff, verifyEntry_eq_ok_iff]
  unfold verify
  split
  · rename_i hcommon
    refine iff_of_false (by rintro ⟨⟩) fun hsound => ?_
    exact absurd hcommon (Nat.not_lt.2 hsound.common)
  · rename_i hcommon
    refine hentries.trans ⟨fun h => ?_, fun hsound kind hkind e he => hsound.entry hkind he⟩
    exact ⟨Nat.le_of_not_lt hcommon, fun hkind he => h _ hkind _ he⟩

/-! ## Names -/

namespace Sound

/-- The first entry of a name leads to a record with all of its data, whichever entry the name is
taken from. -/
theorem exists_record (h : a.Sound) (hkind : kind.isNamed = true) (he : e ∈ a.entries kind) :
    ∃ first r, a.lookup kind e.name = .ok first ∧ a.record kind first = .ok r ∧
      ∀ b, ∃ data?, a.deviceData? b r e.name = .ok data? := by
  obtain ⟨first, hfirst, hname, hlookup⟩ := Built.exists_lookup he
  obtain ⟨r, hrecord, hdata⟩ := (h.entry hkind hfirst).record
  rw [hname] at hdata
  exact ⟨first, r, hlookup, hrecord, hdata⟩

theorem exists_signature (h : a.Sound) (he : e ∈ a.entries .signatures) :
    ∃ view, a.signature e.name = .ok view := by
  obtain ⟨first, r, hlookup, hrecord, hdata⟩ := h.exists_record rfl he
  obtain ⟨device, hdevice⟩ := exists_ofFnM hdata
  exact ⟨⟨r.payload, device⟩, bind_eq_ok_iff.2 ⟨first, hlookup, bind_eq_ok_iff.2 ⟨r, hrecord,
    bind_eq_ok_iff.2 ⟨device, hdevice, rfl⟩⟩⟩⟩

theorem exists_renderPass (h : a.Sound) (he : e ∈ a.entries .renderPasses) :
    ∃ desc, a.renderPass e.name = .ok desc := by
  obtain ⟨first, r, hlookup, hrecord, -⟩ := h.exists_record rfl he
  exact ⟨r.payload, bind_eq_ok_iff.2 ⟨first, hlookup, bind_eq_ok_iff.2 ⟨r, hrecord, rfl⟩⟩⟩

/-- A pipeline that is found under a name is that of an entry, and all it refers to is there. -/
theorem refers (h : a.Sound) (hkind : kind.isPipeline = true) {view : PipelineView}
    (hview : a.pipeline kind name = .ok view) : a.Refers view := by
  obtain ⟨e, hlookup, -⟩ := bind_eq_ok_iff.1 hview
  obtain ⟨he, rfl⟩ := mem_of_lookup hlookup
  obtain ⟨found, hfound, hrefers⟩ :=
    (h.entry (Built.isNamed_of_isPipeline hkind) he).pipeline hkind
  rw [hview] at hfound
  cases hfound
  exact hrefers

end Sound

/-- In an archive that passes verification, whatever its bytes are, the name of every entry leads to
a signature, a render pass or a pipeline, as the entry is one. Every pipeline that is found refers
to signatures and a render pass that the archive has, and to shaders that can be read. -/
theorem verify_sound {a : Archive} (h : a.verify = .ok ()) :
    (∀ e ∈ a.entries .signatures, ∃ view, a.signature e.name = .ok view) ∧
      (∀ e ∈ a.entries .renderPasses, ∃ desc, a.renderPass e.name = .ok desc) ∧
      ∀ kind : ChunkKind, kind.isPipeline = true →
        (∀ e ∈ a.entries kind, ∃ view, a.pipeline kind e.name = .ok view) ∧
          ∀ name view, a.pipeline kind name = .ok view → a.Refers view := by
  have hsound : a.Sound := verify_eq_ok_iff.1 h
  refine ⟨fun e he => hsound.exists_signature he, fun e he => hsound.exists_renderPass he,
    fun kind hkind => ⟨fun e he => ?_, fun name view hview => hsound.refers hkind hview⟩⟩
  obtain ⟨view, hview, -⟩ := (hsound.entry (Built.isNamed_of_isPipeline hkind) he).pipeline hkind
  exact ⟨view, hview⟩

/-! ## An archive in disorder -/

/-- A chunk of two entries of one name. -/
def twice (name : Bytes) (first second : UInt32 × UInt32) : Bytes :=
  let entry (place : UInt32 × UInt32) := encode (28 : UInt32) ++ encode place.1 ++ encode place.2
  Encode.count 2 ++ entry first ++ entry second ++ name ++ [0]

/-- Two signatures of one name that share the head of a record, and two pipelines of one name whose
records overlap. The data of the signature are part of those of the pipeline, and a region of
nothing stands behind that of the backend that follows it. -/
def tangled : Bytes :=
  let regions : PerBackend UInt64 :=
    ((PerBackend.replicate (UInt64.ofNat invalidOffset.toNat)).set .vulkan 380).set .d3d11 425
  let tables : PerBackend (UInt32 × UInt32) :=
    (PerBackend.replicate (invalidOffset, 0)).set .vulkan (12, 33)
  let record (kind : ChunkKind) (size : UInt32) : DataHeader := {
    kind := UInt32.ofNat kind.ordinal
    offsets := (PerBackend.replicate invalidOffset).set .vulkan 0
    sizes := (PerBackend.replicate 0).set .vulkan size }
  let directory : List ChunkHeader :=
    [⟨.signatures, 30, 112⟩, ⟨.computePipelines, 30, 144⟩, ⟨.shaders, 56, 176⟩]
  encode (⟨magic, version, 3, regions, 232⟩ : Header) ++ directory.flatMap encode
    ++ Bytes.padTo alignment (twice [83] (0, 64) (0, 60))
    ++ Bytes.padTo alignment (twice [80] (64, 84) (64, 80))
    ++ tables.toList.flatMap (fun table => encode table.1 ++ encode table.2)
    ++ encode (record .signatures 4) ++ [0, 0, 0, 0]
    ++ encode (record .computePipelines 12)
    ++ Encode.sized [] ++ Encode.words [1] ++ encode invalidOffset ++ Encode.count 0 ++ [0, 0, 0, 0]
    ++ Encode.words [0] ++ Encode.sized []
    ++ Encode.count 1 ++ encode (24 : UInt32) ++ encode (21 : UInt32)
    ++ Patch.shaderRecord .compute "main" .hlsl [5]

/-- It passes verification, so its names can be followed all the same. -/
theorem verify_sound_tangled : ∃ a, ofBytes tangled = .ok a ∧ a.verify = .ok () ∧
    a.entries .signatures = [⟨"S", 0, 64⟩, ⟨"S", 0, 60⟩] ∧
    a.entries .computePipelines = [⟨"P", 64, 84⟩, ⟨"P", 64, 80⟩] ∧
    (∃ view, a.signature "S" = .ok view) ∧
    ∃ view, a.pipeline .computePipelines "P" = .ok view ∧ a.Refers view := by
  have hopened : (ofBytes tangled).map (fun a =>
      (a.verify.isOk, a.entries .signatures, a.entries .computePipelines)) =
      .ok (true, [⟨"S", 0, 64⟩, ⟨"S", 0, 60⟩], [⟨"P", 64, 84⟩, ⟨"P", 64, 80⟩]) := by
    decide +kernel
  obtain ⟨a, ha, hfacts⟩ := map_eq_ok_iff.1 hopened
  rw [Prod.mk.injEq, Prod.mk.injEq] at hfacts
  obtain ⟨hverified, hsignatures, hpipelines⟩ := hfacts
  obtain ⟨⟨⟩, hverify⟩ := exists_ok_of_isOk hverified
  obtain ⟨hsignature, -, hpipeline⟩ := verify_sound hverify
  obtain ⟨hfound, hrefers⟩ := hpipeline .computePipelines rfl
  obtain ⟨view, hview⟩ := hfound ⟨"P", 64, 84⟩ (hpipelines ▸ List.mem_cons_self)
  exact ⟨a, ha, hverify, hsignatures, hpipelines,
    hsignature ⟨"S", 0, 64⟩ (hsignatures ▸ List.mem_cons_self), view, hview,
    hrefers "P" view hview⟩

end PipelineArchive.Container.Archive
