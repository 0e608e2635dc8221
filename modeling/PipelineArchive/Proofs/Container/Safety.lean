import PipelineArchive.Container.Verification
import PipelineArchive.Proofs.Container.Forward
import PipelineArchive.Proofs.Container.ReadBack

/-!
# Reading is safe

Every place in an archive is made up of words that anyone may have written: chunks, records, the
data of records, tables of shaders and shaders are all found through them. `reads_safely` says
that following them is safe, whatever the bytes: whenever an archive, or something in it, cannot
be read, this is reported. No slice is taken outside the bytes, and no sum is too large.

One thing is asked: the regions that the header names must start in the data (`RegionsWithin`).
A region is compared with the one that follows, and nothing compares the last one with the end.
-/

set_option autoImplicit false

namespace PipelineArchive.Container

open Results

/-- The largest number of bytes that fit into memory: half of the addresses are never used. -/
def maxLength : Nat := UInt64.size / 2 - 1

theorem saturatingAdd_le (offset size : Nat) : saturatingAdd offset size ≤ maxOffset :=
  Nat.min_le_right _ _

theorem le_saturatingAdd {offset : Nat} (h : offset ≤ maxOffset) (size : Nat) :
    offset ≤ saturatingAdd offset size := Nat.le_min.2 ⟨Nat.le_add_right _ _, h⟩

theorem sliceBetween_eq_ok {bytes : Bytes} {start stop : Nat} (hstart : start ≤ stop)
    (hstop : stop ≤ bytes.length) :
    sliceBetween bytes start stop = .ok (bytes.slice start (stop - start)) :=
  if_pos ⟨hstart, hstop⟩

/-! ## Heads of records -/

/-- A reader that succeeds takes a fixed number of bytes. -/
def Read.Takes {α : Type} (r : Read α) (count : Nat) : Prop :=
  ∀ c c' value, r c = .ok (value, c') → c'.position = c.position + count

namespace Read

variable {α β : Type}

theorem Takes.bind {r : Read α} {next : α → Read β} {m n : Nat} (hr : r.Takes m)
    (hnext : ∀ x, (next x).Takes n) : (r >>= next).Takes (m + n) := by
  intro c c' value h
  obtain ⟨x, middle, hx, hy⟩ := bind_eq_ok_iff.1 h
  rw [hnext x _ _ _ hy, hr _ _ _ hx, Nat.add_assoc]

theorem takes_pure (value : α) : (Pure.pure value : Read α).Takes 0 := by
  rintro c _ _ ⟨⟩
  rfl

theorem takes_u32 : u32.Takes 4 := by
  intro c c' value h
  have hdecode : Decoder.u32 c = (.ok value, c') := by
    unfold u32 ofDecoder at h
    cases hd : Decoder.u32 c with
    | mk result c'' =>
    rw [hd] at h
    cases result with
    | error e => cases h
    | ok word =>
      cases h
      rfl
  obtain ⟨bytes, middle, hbytes, hword⟩ := Decoder.bind_eq_ok_iff.1 hdecode
  cases hword
  unfold Decoder.take at hbytes
  split at hbytes
  · cases hbytes
    rfl
  · cases hbytes

theorem takes_ofFnM {f : Backend → Read α} {n : Nat} (h : ∀ b, (f b).Takes n) :
    (PerBackend.ofFnM f).Takes (n + (n + (n + (n + (n + (n + (n + 0))))))) :=
  (h .d3d11).bind fun _ => (h .d3d12).bind fun _ => (h .gl).bind fun _ => (h .gles).bind fun _ =>
    (h .vulkan).bind fun _ => (h .metalMacos).bind fun _ => (h .metalIos).bind fun _ =>
      takes_pure _

end Read

namespace Archive

theorem takes_readDataHeader : readDataHeader.Takes DataHeader.size :=
  Read.takes_u32.bind fun _ => (Read.takes_ofFnM fun _ => Read.takes_u32).bind fun _ =>
    (Read.takes_ofFnM fun _ => Read.takes_u32).bind fun _ => Read.takes_pure _

/-- What has the head of a record is as long as that. -/
theorem le_length_of_readDataHeader {bytes : Bytes} {header : DataHeader}
    (h : readDataHeader.value? bytes = .ok header) : DataHeader.size ≤ bytes.length := by
  obtain ⟨⟨_, c⟩, hread, rfl⟩ := map_eq_ok_iff.1 h
  have hposition := takes_readDataHeader _ _ _ hread
  obtain ⟨taken, htaken⟩ := forward_readDataHeader.passes hread
  have hin := (htaken.slice (Cursor.start_in bytes)).1
  have hle := hin.1
  rw [hposition] at hle
  exact Nat.le_trans (Nat.le_add_left _ _) hle

/-! ## Opening -/

/-- An archive is opened if its header, its directory and its chunks are read. -/
theorem ofBytesOfVersion_eq_ok_iff {data : Bytes} {expected : UInt32} {a : Archive} :
    ofBytesOfVersion data expected = .ok a ↔
      a.data = data ∧ a.header.magic = magic ∧ a.header.version = expected ∧
      ∃ cursor cursor' directory, Header.read (.start data) = .ok (a.header, cursor) ∧
        ChunkHeader.readAll a.header.chunkCount.toNat [] cursor = .ok (directory, cursor') ∧
        directory.mapM (readChunk data) = .ok a.chunks := by
  constructor
  · intro h
    obtain ⟨⟨header, cursor⟩, hheader, h⟩ := bind_eq_ok_iff.1 h
    simp only at h
    split at h
    · cases h
    · rename_i hmagic
      split at h
      · cases h
      · rename_i hversion
        obtain ⟨⟨directory, cursor'⟩, hdirectory, h⟩ := bind_eq_ok_iff.1 h
        obtain ⟨chunks, hchunks, h⟩ := bind_eq_ok_iff.1 h
        cases h
        exact ⟨rfl, not_not.1 hmagic, not_not.1 hversion, cursor, cursor', directory, hheader,
          hdirectory, hchunks⟩
  · rintro ⟨hdata, hmagic, hversion, cursor, cursor', directory, hheader, hdirectory, hchunks⟩
    refine bind_eq_ok_iff.2 ⟨_, hheader, ?_⟩
    simp only [hmagic, hversion, ne_eq, not_true_eq_false, if_false]
    refine bind_eq_ok_iff.2 ⟨_, hdirectory, bind_eq_ok_iff.2 ⟨_, hchunks, ?_⟩⟩
    rw [← hdata]
    rfl

theorem reports_readChunk (data : Bytes) (header : ChunkHeader) :
    Reports (readChunk data header) :=
  (reports_slicePart data (toNat_le_maxOffset header.offset) _ _).bind fun body _ =>
    ((ChunkBody.forward_read header.kind body).value?_reports body).bind fun _ _ => .ok _

theorem reports_ofBytesOfVersion (data : Bytes) (expected : UInt32) :
    Reports (ofBytesOfVersion data expected) := by
  refine (Header.forward_read.reports _).bind fun (header, cursor) _ => ?_
  simp only
  split
  · exact .error trivial
  · split
    · exact .error trivial
    · exact ((ChunkHeader.forward_readAll _ _).reports cursor).bind fun p _ =>
        (Reports.mapM fun chunk _ => reports_readChunk data chunk).bind fun _ _ => .ok _

/-! ## Regions -/

/-- Every region that the header names starts in the data. -/
def RegionsWithin (a : Archive) : Prop :=
  ∀ b start, a.header.region? b = some start → start ≤ a.data.length

theorem regionsWithin_iff (a : Archive) : a.RegionsWithin ↔
    ∀ b ∈ Backend.all, ∀ start ∈ a.header.region? b, start ≤ a.data.length :=
  ⟨fun h b _ => h b, fun h b => h b (Backend.mem_all b)⟩

instance (a : Archive) : Decidable a.RegionsWithin :=
  decidable_of_iff _ (regionsWithin_iff a).symm

variable {a : Archive}

/-- The least of some regions starts in the data, and the data end where they do. -/
theorem RegionsWithin.min?_le (h : a.RegionsWithin) (backends : List Backend) :
    ((backends.filterMap a.header.region?).min?).getD a.data.length ≤ a.data.length := by
  cases hmin : (backends.filterMap a.header.region?).min? with
  | none => exact Nat.le_refl _
  | some least =>
    obtain ⟨b, -, hb⟩ := List.mem_filterMap.1 (List.min?_mem hmin)
    exact h b least hb

theorem RegionsWithin.regionEnd_le (h : a.RegionsWithin) (b : Backend) :
    a.regionEnd b ≤ a.data.length := h.min?_le _

theorem RegionsWithin.commonEnd_le (h : a.RegionsWithin) : a.commonEnd ≤ a.data.length :=
  h.min?_le _

/-! ## Records and their data -/

theorem reports_lookup (a : Archive) (kind : ChunkKind) (name : String) :
    Reports (a.lookup kind name) := by
  unfold lookup
  split
  · exact .ok _
  · exact .error trivial

/-- A record that is found has a head, so its payload is behind that. -/
theorem reports_record (a : Archive) (kind : ChunkKind) (e : NamedEntry) :
    Reports (a.record kind e) := by
  refine (reports_slicePart a.data (saturatingAdd_le _ _) _ _).bind fun bytes _ => ?_
  refine (forward_readDataHeader.value?_reports bytes).bind fun header hheader => ?_
  split
  · exact .error trivial
  · rw [sliceBetween_eq_ok (le_length_of_readDataHeader hheader) (Nat.le_refl _)]
    exact .ok _

/-- The data of a record end no later than the region, which ends in the data. -/
theorem reports_deviceData? (h : a.RegionsWithin) (b : Backend) (r : RecordView) (name : String) :
    Reports (a.deviceData? b r name) := by
  unfold deviceData?
  split
  · exact .ok _
  · cases a.header.region? b with
    | none => exact .error trivial
    | some start =>
      simp only
      split
      · exact .error trivial
      · rename_i hstop
        have hend := h.regionEnd_le b
        rw [sliceBetween_eq_ok (le_saturatingAdd (saturatingAdd_le _ _) _) (by omega)]
        exact .ok _

theorem reports_signature (h : a.RegionsWithin) (name : String) : Reports (a.signature name) :=
  (reports_lookup a _ name).bind fun e _ => (reports_record a _ e).bind fun r _ =>
    (Reports.ofFnM fun b => reports_deviceData? h b r name).bind fun _ _ => .ok _

theorem reports_renderPass (a : Archive) (name : String) : Reports (a.renderPass name) :=
  (reports_lookup a _ name).bind fun e _ => (reports_record a _ e).bind fun _ _ => .ok _

theorem reports_pipeline (h : a.RegionsWithin) (kind : ChunkKind) (name : String) :
    Reports (a.pipeline kind name) := by
  refine (reports_lookup a kind name).bind fun e _ => ?_
  refine (reports_record a kind e).bind fun r _ => ?_
  refine ((forward_readPipeline name).value?_reports r.payload).bind fun view _ => ?_
  refine (Reports.ofFnM fun b => ?_).bind fun _ _ => .ok _
  refine (reports_deviceData? h b r name).bind fun data? _ => ?_
  cases data? with
  | none => exact .ok _
  | some data => exact (forward_readDevice.value?_reports data).bind fun _ _ => .ok _

/-! ## Shaders -/

/-- A table that ends in its region starts in it, and the region starts before its end. The sums
do not saturate, for nothing in memory is so long. -/
theorem reports_shaders (hlength : a.data.length ≤ maxLength) (h : a.RegionsWithin) (b : Backend) :
    Reports (a.shaders b) := by
  unfold shaders
  cases a.shaderTable? b with
  | none => exact .ok _
  | some table =>
    obtain ⟨offset, size⟩ := table
    cases hregion : a.header.region? b with
    | none => exact .error trivial
    | some start =>
      simp only
      split
      · exact .error trivial
      · rename_i hstop
        have hend := h.regionEnd_le b
        have hmax : maxLength < maxOffset := by decide
        have hstart := h b start hregion
        have hlast : saturatingAdd start offset.toNat ≤
            saturatingAdd (saturatingAdd start offset.toNat) size.toNat :=
          le_saturatingAdd (saturatingAdd_le _ _) _
        have hfirst : saturatingAdd start offset.toNat = start + offset.toNat := by
          unfold saturatingAdd at hlast hstop ⊢
          omega
        have htable : start + offset.toNat ≤ a.regionEnd b := by omega
        rw [sliceBetween_eq_ok (by omega) hend]
        refine (Reports.ok _).bind fun region hbytes => ?_
        cases hbytes
        have hsize : offset.toNat ≤
            (a.data.slice start (a.regionEnd b - start)).length := by
          rw [Bytes.slice, List.length_take, List.length_drop]
          omega
        rw [sliceBetween_eq_ok hsize (Nat.le_refl _)]
        refine (Reports.ok _).bind fun bytes _ => ?_
        exact (forwardTo_readShaderTable b fun h => h).value?_reports bytes

/-! ## Verification -/

/-- A record that starts in the common region starts in the data, so its end is no sum that is too
large. -/
theorem reports_verifyPlace (hlength : a.data.length ≤ maxLength)
    (hcommon : a.header.common.toNat ≤ a.data.length) (kind : ChunkKind) (e : NamedEntry) :
    Reports (a.verifyPlace kind e) := by
  have hoffset : e.offset.toNat < UInt32.size := e.offset.toNat_lt
  have hsize : e.size.toNat < UInt32.size := e.size.toNat_lt
  have hmax : maxLength + 2 * UInt32.size ≤ maxOffset := by decide
  simp only [verifyPlace]
  rw [if_neg (by omega)]
  split
  · exact .error trivial
  · exact .ok ()

theorem reports_verifyPipeline (h : a.RegionsWithin) {shaders : PerBackend (Except ReadError Nat)}
    (hshaders : ∀ b, Reports (shaders.get b)) (kind : ChunkKind) (name : String) :
    Reports (a.verifyPipeline shaders kind name) := by
  refine (reports_pipeline h kind name).bind fun view _ => ?_
  simp only
  split
  · exact .error trivial
  · split
    · exact .error trivial
    · refine Reports.forM fun b _ => ?_
      split
      · refine (hshaders b).bind fun count _ => ?_
        split
        · exact .error trivial
        · exact .ok ()
      · exact .ok ()

theorem reports_verify (hlength : a.data.length ≤ maxLength) (h : a.RegionsWithin) :
    Reports a.verify := by
  unfold verify
  split
  · exact .error trivial
  · rename_i hcommon
    have hend := h.commonEnd_le
    have hshaders (b : Backend) :
        Reports ((PerBackend.ofFn fun b => (a.shaders b).map List.length).get b) := by
      rw [PerBackend.get_ofFn]
      exact (reports_shaders hlength h b).map _
    refine Reports.forM fun kind _ => Reports.forM fun e _ => ?_
    refine (reports_verifyPlace hlength (by omega) kind e).bind fun _ _ => ?_
    refine (reports_record a kind e).bind fun r _ => ?_
    refine (Reports.forM fun b _ => ?_).bind fun _ _ => ?_
    · exact (reports_deviceData? h b r e.name).bind fun _ _ => .ok ()
    · split
      · exact reports_verifyPipeline h hshaders kind e.name
      · exact .ok ()

end Archive

/-- Reading is safe. Whatever the bytes are, if the regions that the header names start in them:
whenever they are not opened as an archive, or a signature, a render pass, a pipeline or the
shaders of a backend are not read from it, or it is not verified, this is reported. No slice is
taken that does not lie in its bytes, and no sum of offsets is formed that does not fit. -/
theorem reads_safely {data : Bytes} (hlength : data.length ≤ maxLength)
    (hregions : ∀ header cursor, Header.read (.start data) = .ok (header, cursor) →
      ∀ b, header.regions.get b = UInt64.ofNat invalidOffset.toNat ∨
        (header.regions.get b).toNat ≤ data.length)
    (expected : UInt32) :
    Reports (Archive.ofBytesOfVersion data expected) ∧
      ∀ a, Archive.ofBytesOfVersion data expected = .ok a →
        (∀ name, Reports (a.signature name)) ∧
        (∀ name, Reports (a.renderPass name)) ∧
        (∀ kind name, Reports (a.pipeline kind name)) ∧
        (∀ b, Reports (a.shaders b)) ∧
        Reports a.verify := by
  refine ⟨Archive.reports_ofBytesOfVersion data expected, fun a ha => ?_⟩
  obtain ⟨rfl, -, -, cursor, -, -, hheader, -, -⟩ := Archive.ofBytesOfVersion_eq_ok_iff.1 ha
  have hwithin : a.RegionsWithin := by
    intro b start hstart
    simp only [Header.region?] at hstart
    split at hstart
    · cases hstart
    · rename_i hvalid
      cases hstart
      rcases hregions a.header cursor hheader b with hinvalid | hle
      · rw [hinvalid] at hvalid
        exact absurd rfl hvalid
      · exact hle
  exact ⟨Archive.reports_signature hwithin, Archive.reports_renderPass a,
    Archive.reports_pipeline hwithin, Archive.reports_shaders hlength hwithin,
    Archive.reports_verify hlength hwithin⟩

/-- The archive of the sample with its only region moved to the front, where it overlaps all the
rest. -/
def overlapping : Bytes :=
  match build sample none 4096 with
  | .ok image => image.bytes.setU32 (12 + 8 * Backend.vulkan.ordinal) 0
  | .error _ => []

/-- Nothing of it is verified, but it is opened, and what is in it may be asked for. -/
theorem reads_safely_overlapping : overlapping.length ≤ maxLength ∧
    ∃ a, Archive.ofBytesOfVersion overlapping version = .ok a ∧
      (∀ name, Reports (a.signature name)) ∧ (∀ kind name, Reports (a.pipeline kind name)) ∧
      (∀ b, Reports (a.shaders b)) ∧ Reports a.verify ∧
      (∃ common, a.verify = .error (.inconsistent (.commonAfterRegion common 0))) := by
  have hlength : overlapping.length ≤ maxLength := by decide +kernel
  have hwords : (Header.read (.start overlapping)).map (fun p => Backend.all.all fun b =>
      p.1.regions.get b == UInt64.ofNat invalidOffset.toNat ||
        decide ((p.1.regions.get b).toNat ≤ overlapping.length)) = .ok true := by decide +kernel
  have hregions : ∀ header cursor, Header.read (.start overlapping) = .ok (header, cursor) →
      ∀ b, header.regions.get b = UInt64.ofNat invalidOffset.toNat ∨
        (header.regions.get b).toNat ≤ overlapping.length := by
    intro header cursor hheader b
    rw [hheader] at hwords
    have hword := List.all_eq_true.1 (Except.ok.inj hwords) b (Backend.mem_all b)
    rwa [Bool.or_eq_true, beq_iff_eq, decide_eq_true_eq] at hword
  have hverify : (Archive.ofBytesOfVersion overlapping version).map (fun a =>
      match a.verify with
      | .error (.inconsistent (.commonAfterRegion _ 0)) => true
      | _ => false) = .ok true := by decide +kernel
  obtain ⟨a, ha, hrefused⟩ := map_eq_ok_iff.1 hverify
  obtain ⟨-, hreports⟩ := reads_safely hlength hregions version
  obtain ⟨hsignature, -, hpipeline, hshaders, hreported⟩ := hreports a ha
  refine ⟨hlength, a, ha, hsignature, hpipeline, hshaders, hreported, ?_⟩
  split at hrefused
  · rename_i common hcommon
    exact ⟨common, hcommon⟩
  · cases hrefused

end PipelineArchive.Container
