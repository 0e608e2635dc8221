import PipelineArchive.Proofs.Container.Packing
import PipelineArchive.Proofs.Container.Reading

/-!
# Records are read back

`commonRecords_spec` says what a successful writer puts into the common region: each record is
its head and its payload, and the head holds, on every backend, the place of the record's datum
in the packed data. `pipelineRecord_spec` says what the record of a pipeline is made of.

The other half is what the readers find there: `reads_dataHeader` for the head,
`reads_pipeline` for the payload of a pipeline and `reads_device` for its data on a backend.
-/

set_option autoImplicit false

namespace PipelineArchive.Container

open Results

/-! ## Heads of records -/

/-- The data of the records on one backend, in record order. -/
def column (records : List Record) (b : Backend) : List (Option Bytes) :=
  records.map fun r => r.device.get b

@[simp] theorem length_encode_u32 (w : UInt32) : (encode w).length = 4 := Bytes.length_ofU32 w

@[simp] theorem length_encode_u64 (w : UInt64) : (encode w).length = 8 := Bytes.length_ofU64 w

theorem length_toList_flatMap {α : Type} {f : α → Bytes} {width : Nat}
    (h : ∀ x, (f x).length = width) (p : PerBackend α) :
    (p.toList.flatMap f).length = width * 7 := by
  rw [Encode.length_flatMap_const h]
  rfl

@[simp] theorem length_encode_dataHeader (h : DataHeader) :
    (encode h).length = DataHeader.size := by
  show (encode h.kind ++ h.offsets.toList.flatMap encode
    ++ h.sizes.toList.flatMap encode).length = _
  rw [List.length_append, List.length_append, length_toList_flatMap length_encode_u32,
    length_toList_flatMap length_encode_u32, length_encode_u32]
  rfl

theorem placeWords_none {w s : UInt32} (h : placeWords none = .ok (w, s)) : w = invalidOffset := by
  cases h
  rfl

theorem placeWords_some {offset size : Nat} {w s : UInt32}
    (h : placeWords (some (offset, size)) = .ok (w, s)) : w.toNat = offset ∧ s.toNat = size := by
  obtain ⟨w', hw, h⟩ := bind_eq_ok_iff.1 h
  obtain ⟨s', hs, h⟩ := bind_eq_ok_iff.1 h
  cases h
  exact ⟨word_eq_ok_iff.1 hw, word_eq_ok_iff.1 hs⟩

theorem recordBytes_spec {r : Record} {places : PerBackend (Option (Nat × Nat))} {bytes : Bytes}
    (h : recordBytes r places = .ok bytes) :
    ∃ header : DataHeader, bytes = encode header ++ r.payload ∧
      header.kind = UInt32.ofNat r.kind.ordinal ∧
      ∀ b, placeWords (places.get b) = .ok (header.offsets.get b, header.sizes.get b) := by
  obtain ⟨words, hwords, h⟩ := bind_eq_ok_iff.1 h
  cases h
  refine ⟨_, rfl, rfl, ?_⟩
  intro b
  rw [ofFnM_eq_ok_iff.1 hwords b, PerBackend.get_map, PerBackend.get_map]

/-- The places that are written into the head of a record. -/
theorem get_places {records : List Record} {i : Nat} {r : Record} (hr : records[i]? = some r)
    (b : Backend) :
    (PerBackend.map (fun places => places[i]?.join)
      (.ofFn fun b => placesFrom 0 (records.map fun r => r.device.get b))).get b =
        (r.device.get b).map fun d => ((packed ((column records b).take i)).length, d.length) := by
  rw [PerBackend.get_map, PerBackend.get_ofFn, getElem?_placesFrom, List.getElem?_map, hr]
  simp [column]

/-- What the writer puts into the common region. -/
theorem commonRecords_spec {records : List Record} {bodies : List Bytes}
    (h : commonRecords records = .ok bodies) :
    bodies.length = records.length ∧ ∀ (i : Nat) (r : Record), records[i]? = some r →
      ∃ header : DataHeader, bodies[i]? = some (encode header ++ r.payload) ∧
        header.kind = UInt32.ofNat r.kind.ordinal ∧
        ∀ b, placeWords ((r.device.get b).map fun d =>
            ((packed ((column records b).take i)).length, d.length)) =
          .ok (header.offsets.get b, header.sizes.get b) := by
  have hbodies := mapM_eq_ok_iff.1 h
  refine ⟨by simpa using hbodies.length_eq.symm, ?_⟩
  intro i r hr
  -- the writer numbers the records and looks their places up by number
  have hi : records.zipIdx[i]? = some (r, i) := by rw [List.getElem?_zipIdx, hr, Nat.zero_add]; rfl
  obtain ⟨body, hbody, hrecord⟩ := forall₂_getElem? hbodies hi
  obtain ⟨header, rfl, hkind, hplaces⟩ := recordBytes_spec hrecord
  refine ⟨header, hbody, hkind, ?_⟩
  intro b
  rw [← get_places hr b]
  exact hplaces b

theorem toList_flatMap {α : Type} (p : PerBackend α) (f : α → Bytes) :
    p.toList.flatMap f = Backend.all.flatMap fun b => f (p.get b) := by
  rw [PerBackend.toList, List.flatMap_map]

theorem ofFn_get {α : Type} (p : PerBackend α) : PerBackend.ofFn p.get = p :=
  PerBackend.ext_get fun b => PerBackend.get_ofFn _ b

theorem reads_dataHeader (h : DataHeader) : Archive.readDataHeader.Reads (encode h) h := by
  obtain ⟨kind, offsets, sizes⟩ := h
  have hoffsets := Read.Reads.ofFnM fun b => Read.reads_u32 (offsets.get b)
  have hsizes := Read.Reads.ofFnM fun b => Read.reads_u32 (sizes.get b)
  rw [ofFn_get] at hoffsets hsizes
  rw [← toList_flatMap] at hoffsets hsizes
  show Archive.readDataHeader.Reads
    (encode kind ++ offsets.toList.flatMap encode ++ sizes.toList.flatMap encode) _
  rw [List.append_assoc]
  exact (Read.reads_u32 kind).bind (hoffsets.bind (hsizes.bind_pure))

/-! ## Pipelines -/

/-- The payload of a pipeline's record, given the positions it refers to. -/
def pipelinePayload (p : PipelineRecord) (signatures : List UInt32) (renderPass : UInt32) : Bytes :=
  Encode.sized p.desc ++ Encode.list signatures ++ encode renderPass
    ++ Encode.count p.layoutIds.length ++ p.layoutIds.flatMap fun (b, id) => encode b ++ encode id

/-- The data of a pipeline on one backend. -/
def devicePayload (d : DevicePipeline) : Bytes :=
  Encode.list (d.shaders.map UInt32.ofNat) ++ Encode.sized d.header

theorem deviceData_eq_ok_iff {c : Contents} {pipeline : String} {b : Backend} {d : DevicePipeline}
    {bytes : Bytes} : deviceData c pipeline b d = .ok bytes ↔
      (∀ index ∈ d.shaders, index < (c.shaders.get b).size) ∧ devicePayload d = bytes := by
  unfold deviceData
  constructor
  · intro h
    simp only at h
    split at h
    · cases h
    · rename_i hfind
      injection h with h
      refine ⟨?_, h⟩
      intro index hindex
      have := List.find?_eq_none.1 hfind index hindex
      simpa using this
  · rintro ⟨hshaders, rfl⟩
    have hfind : d.shaders.find? (fun index => (c.shaders.get b).size ≤ index) = none := by
      rw [List.find?_eq_none]
      intro index hindex
      simpa using hshaders index hindex
    simp only [hfind]
    rfl

theorem signatureIndex_eq_ok_iff {c : Contents} {pipeline name : String} {w : UInt32} :
    signatureIndex c pipeline name = .ok w ↔
      ∃ index, c.signatures.keys[index]? = some name ∧ w = UInt32.ofNat index := by
  unfold signatureIndex
  simp only [← Table.position?_eq_some_iff]
  cases c.signatures.position? name with
  | none => simp
  | some index => simp [eq_comm]

theorem renderPassIndex_eq_ok_iff {c : Contents} {pipeline name : String} {w : UInt32} :
    renderPassIndex c pipeline (some name) = .ok w ↔
      ∃ index, c.renderPasses.keys[index]? = some name ∧ w = UInt32.ofNat index := by
  unfold renderPassIndex
  simp only [← Table.position?_eq_some_iff]
  cases c.renderPasses.position? name with
  | none => simp
  | some index => simp [eq_comm]

/-- What the record of a pipeline is made of. -/
theorem pipelineRecord_spec {c : Contents} {key : PipelineKey} {p : PipelineRecord} {r : Record}
    (h : pipelineRecord c key p = .ok r) :
    r.kind = key.1 ∧ r.name = key.2 ∧
      (∃ signatures renderPass, r.payload = pipelinePayload p signatures renderPass ∧
        List.Forall₂ (fun name w => signatureIndex c key.2 name = .ok w) p.signatures signatures ∧
        renderPassIndex c key.2 p.renderPass = .ok renderPass) ∧
      (∀ b d, p.device.get b = some d → ∀ index ∈ d.shaders, index < (c.shaders.get b).size) ∧
      r.device = .ofFn fun b => (p.device.get b).map devicePayload := by
  obtain ⟨kind, name⟩ := key
  obtain ⟨signatures, hsignatures, h⟩ := bind_eq_ok_iff.1 h
  obtain ⟨renderPass, hrenderPass, h⟩ := bind_eq_ok_iff.1 h
  obtain ⟨device, hdevice, h⟩ := bind_eq_ok_iff.1 h
  cases h
  -- on every backend there are data on both sides or on none
  have hrel (b : Backend) := option_mapM_eq_ok_iff.1 (ofFnM_eq_ok_iff.1 hdevice b)
  refine ⟨rfl, rfl, ⟨signatures, renderPass, rfl, mapM_eq_ok_iff.1 hsignatures, hrenderPass⟩,
    ?_, PerBackend.ext_get ?_⟩
  · intro b d hd
    rcases hrel b with ⟨hnone, -⟩ | ⟨d', bytes, hd', -, hbytes⟩
    · rw [hd] at hnone
      cases hnone
    · rw [hd] at hd'
      injection hd' with hd'
      subst hd'
      exact (deviceData_eq_ok_iff.1 hbytes).1
  · intro b
    rw [PerBackend.get_ofFn]
    rcases hrel b with ⟨hnone, hdevice⟩ | ⟨d, bytes, hd, hdevice, hbytes⟩
    · rw [hnone, hdevice]
      rfl
    · rw [hd, hdevice, Option.map_some, (deviceData_eq_ok_iff.1 hbytes).2]

theorem ofOrdinal?_ordinal (b : Backend) :
    Backend.ofOrdinal? (UInt32.ofNat b.ordinal).toNat = some b := by
  cases b <;> rfl

theorem reads_layoutIds (pipeline : String) (ids : List (Backend × UInt64)) :
    (Archive.readLayoutIds pipeline ids.length).Reads
      (ids.flatMap fun (b, id) => encode b ++ encode id) ids := by
  induction ids with
  | nil => exact Read.Reads.pure []
  | cons entry rest ih =>
    obtain ⟨b, id⟩ := entry
    rw [List.flatMap_cons, List.append_assoc]
    refine (Read.reads_u32 (UInt32.ofNat b.ordinal)).bind ?_
    -- the ordinal that was written is that of a backend
    rw [ofOrdinal?_ordinal]
    exact (Read.reads_u64 id).bind ih.bind_pure

theorem length_layoutIds (ids : List (Backend × UInt64)) :
    (ids.flatMap fun (b, id) => encode b ++ encode id).length = 12 * ids.length :=
  Encode.length_flatMap_const (fun entry => by
    rw [List.length_append, length_encode_u64]
    exact congrArg (· + 8) (Bytes.length_ofU32 _)) ids

/-- The payload of a pipeline is read back, if it is not too long for the counts in it. -/
theorem reads_pipeline (name : String) (p : PipelineRecord) (signatures : List UInt32)
    (renderPass : UInt32)
    (h : (pipelinePayload p signatures renderPass).length < UInt32.size) :
    (Archive.readPipeline name).Reads (pipelinePayload p signatures renderPass) {
      desc := p.desc
      signatures
      renderPass := if renderPass = invalidOffset then none else some renderPass
      layoutIds := p.layoutIds
      device := .replicate none } := by
  -- no part of the payload is longer than the payload, so every count in it is exact
  have hids := length_layoutIds p.layoutIds
  simp only [pipelinePayload, Encode.list, List.length_append, Encode.length_sized,
    Encode.length_count, Encode.length_flatMap_const length_encode_u32, hids] at h
  simp only [pipelinePayload, List.append_assoc]
  refine (Read.Reads.ofDecoder (Decoder.reads_sized (by omega))).bind ?_
  refine (Read.Reads.ofDecoder (Decoder.reads_words (by omega))).bind ?_
  refine (Read.reads_u32 renderPass).bind ?_
  refine Read.Reads.count_bind (by omega) ?_ (reads_layoutIds name p.layoutIds).bind_pure
  exact Nat.le_of_eq (by rw [hids, Nat.mul_comm])

/-- The data of a pipeline on a backend are read back, if they are not too long for the counts
in them. -/
theorem reads_device (d : DevicePipeline) (h : (devicePayload d).length < UInt32.size) :
    Archive.readDevice.Reads (devicePayload d) ⟨d.shaders.map UInt32.ofNat, d.header⟩ := by
  simp only [devicePayload, Encode.list, List.length_append, Encode.length_sized,
    Encode.length_count, Encode.length_flatMap_const length_encode_u32, List.length_map] at h
  refine (Read.Reads.ofDecoder (Decoder.reads_words ?_)).bind
    (Read.Reads.ofDecoder (Decoder.reads_sized (by omega))).bind_pure
  rw [List.length_map]
  omega

end PipelineArchive.Container
