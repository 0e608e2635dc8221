import PipelineArchive.Proofs.Container.Beginning
import PipelineArchive.Proofs.Container.NameLists

/-!
# Archives that lose their end

Nothing in an archive says how long it is, and the last part of it ends where the bytes end. When
an archive has lost bytes at its end, this is noticed only if verification looks at what stood
there. `Built.isPadding` says that it does: an archive that was built and that passes
verification without its end has lost less than what pads the last part, whichever part that is.

One part may escape. The shaders of a backend are verified on behalf of the pipelines, and these
are found by their names. If no pipeline that is found has data on the last backend then nothing
looks at its shaders (`Archive.Unwatched`), and they may be lost. `Built.truncated_iff` says that
there is no other exception. Where the names of pipelines have no zero bytes each of them is found,
and every shader belongs to a pipeline, so there is none at all (`Built.not_unwatched`).
-/

set_option autoImplicit false

namespace PipelineArchive.Container

open Results

/-- The shaders of a backend stand at the end of an archive, and no pipeline that is found under a
name has data on the backend. -/
def Archive.Unwatched (a : Archive) (b : Backend) : Prop :=
  (a.shaderTable? b).isSome = true ∧ a.regionEnd b = a.data.length ∧ ¬a.Uses b

/-- Zeros that are fewer than it takes to reach the next aligned place. -/
def IsPadding (bytes : Bytes) : Prop := ∃ k < alignment, bytes = List.replicate k 0

theorem isPadding_nil : IsPadding [] := ⟨0, by decide, rfl⟩

/-! ## What stands at the end -/

/-- If all that is lost was behind a part at the end then it was padding. -/
theorem isPadding_of_hasAt {data more first part : Bytes} {offset : Nat}
    (hat : Bytes.HasAt (data ++ more) offset (first ++ Bytes.padTo alignment part))
    (hend : offset + (first ++ Bytes.padTo alignment part).length = (data ++ more).length)
    (hle : offset + first.length + part.length ≤ data.length) :
    IsPadding more := by
  obtain ⟨before, after, hwhole, rfl⟩ := hat
  have hnil : after = [] := by
    have hlength := congrArg List.length hwhole
    simp only [List.length_append] at hlength hend
    exact List.eq_nil_of_length_eq_zero (by omega)
  have hmore : more = (List.replicate (Bytes.padding alignment part.length) 0).drop
      (data.length - (before ++ first ++ part).length) := by
    have hdrop := congrArg (List.drop data.length) hwhole
    have hsplit : before ++ (first ++ Bytes.padTo alignment part) ++ after =
        (before ++ first ++ part) ++ List.replicate (Bytes.padding alignment part.length) 0 := by
      rw [hnil, Bytes.padTo]
      simp only [List.append_assoc, List.append_nil]
    have hfront : (before ++ first ++ part).length ≤ data.length := by
      simp only [List.length_append]
      omega
    rwa [List.drop_left, hsplit, List.drop_append, List.drop_eq_nil_of_le hfront,
      List.nil_append] at hdrop
  rw [List.drop_replicate] at hmore
  refine ⟨_, Nat.lt_of_le_of_lt (Nat.sub_le _ _) ?_, hmore⟩
  exact Nat.mod_lt _ (by decide)

theorem exists_last_size {sizes : List Nat} (h : totalSize sizes ≠ 0) :
    ∃ i size, sizes[i]? = some size ∧ size ≠ 0 ∧
      totalSize (sizes.take i) + size = totalSize sizes := by
  induction sizes with
  | nil => exact absurd rfl h
  | cons first rest ih =>
    by_cases hrest : totalSize rest = 0
    · refine ⟨0, first, rfl, ?_, by simp [totalSize, hrest]⟩
      rintro rfl
      exact h (by simp [totalSize, hrest])
    · obtain ⟨i, size, hsize, hne, hlast⟩ := ih hrest
      exact ⟨i + 1, size, hsize, hne, by
        rw [List.take_succ_cons, totalSize, totalSize, Nat.add_assoc, hlast]⟩

theorem exists_ordinal {i : Nat} (h : i < 7) : ∃ b : Backend, b.ordinal = i := by
  have hall : ∀ i < 7, ∃ b ∈ Backend.all, b.ordinal = i := by decide
  obtain ⟨b, -, hb⟩ := hall i h
  exact ⟨b, hb⟩

/-- The last region that is not empty ends with the archive. -/
theorem Layout.Of.exists_last_region {l : Layout} {c : Contents} {records : List Record}
    {builder : Option String} (h : l.Of c records builder) (hsizes : totalSize l.sizes ≠ 0) :
    ∃ b, (l.regions.get b).size ≠ 0 ∧ l.start b + (l.regions.get b).size = l.bytes.length := by
  obtain ⟨i, size, hsize, hne, hlast⟩ := exists_last_size hsizes
  have hi : i < 7 := by
    rw [← l.length_sizes]
    exact (List.getElem?_eq_some_iff.1 hsize).1
  obtain ⟨b, rfl⟩ := exists_ordinal hi
  rw [l.getElem?_sizes] at hsize
  cases hsize
  refine ⟨b, hne, ?_⟩
  rw [h.length_eq, Layout.start]
  omega

namespace Built

variable {c : Contents} {builder : Option String} {rs : List Record} {l : Layout} {a : Archive}

theorem isNamed_of_mem (h : Built c builder rs l a) (hc : c.Resolves) {r : Record}
    (hr : r ∈ rs) : r.kind.isNamed = true := by
  rcases mem_records h.records hr with ⟨name, s, -, rfl⟩ | ⟨name, desc, -, rfl⟩ | ⟨key, p, hp, hr⟩
  · rfl
  · rfl
  · rw [(pipelineRecord_spec hr).1]
    exact isNamed_of_isPipeline (hc.kind hp)

/-- A backend that has a table has shaders, and the table ends with them where the region does. -/
theorem table_end (h : Built c builder rs l a) {b : Backend} {place : UInt32 × UInt32}
    (htable : a.shaderTable? b = some place) :
    a.header.region? b = some (l.start b) ∧
      saturatingAdd (saturatingAdd (l.start b) place.1.toNat) place.2.toNat = a.regionEnd b ∧
      (c.shaders.get b).shaders ≠ [] := by
  rw [h.layout.shaderTable?_eq h.size h.opened, Region.table?] at htable
  split at htable
  · cases htable
  · rename_i hvalid
    cases htable
    have hne : (c.shaders.get b).shaders ≠ [] :=
      List.ne_nil_of_length_pos ((table_ne_invalid_iff (h.layout.regions b)).1 hvalid)
    obtain ⟨hsum, hlt⟩ := table_add_eq_size (h.layout.regions b) hne
    have hend := h.layout.start_add_le b
    have hsize := h.size
    have hbounds := offset_bounds
    refine ⟨?_, ?_, hne⟩
    · rw [h.opened.header, h.layout.region?_eq h.size, if_neg (by omega)]
    · have hfirst : saturatingAdd (l.start b) (l.regions.get b).table.1.toNat =
          l.start b + (l.regions.get b).table.1.toNat := saturatingAdd_eq (by omega)
      rw [h.layout.regionEnd_eq h.size h.opened, hfirst, saturatingAdd_eq (by omega)]
      omega

/-! ## What verification has seen -/

section

variable {cut : Archive} {more : Bytes} (h : Built c builder rs l (cut.extend more))
include h

/-- If shaders at the end are read then all of the end is there. -/
theorem eq_nil_of_shaders {b : Backend} {views : List Archive.ShaderView}
    (hshaders : cut.shaders b = .ok views) (htable : (cut.shaderTable? b).isSome = true)
    (hend : (cut.extend more).regionEnd b = (cut.extend more).data.length) : more = [] := by
  obtain ⟨place, hplace⟩ := Option.isSome_iff_exists.1 htable
  obtain ⟨start, hstart, hlast, hstop⟩ := Archive.le_regionEnd_of_shaders hshaders hplace
  obtain ⟨hregion, htableEnd, -⟩ := h.table_end hplace
  rw [Archive.header_extend, hstart] at hregion
  cases hregion
  rw [htableEnd, hend, Archive.data_extend, List.length_append] at hlast
  exact List.eq_nil_of_length_eq_zero (by omega)

variable (hcut : cut.Verified)
include hcut

/-- The shaders of a region are looked at to the end on behalf of a pipeline. -/
theorem eq_nil_of_uses {b : Backend} (htable : (cut.shaderTable? b).isSome = true)
    (hend : (cut.extend more).regionEnd b = (cut.extend more).data.length)
    (huses : (cut.extend more).Uses b) : more = [] := by
  obtain ⟨kind, name, view, hkind, hview, hdevice⟩ := huses
  rw [← hcut.pipeline_eq more (isNamed_of_isPipeline hkind)] at hview
  obtain ⟨views, hviews⟩ := hcut.shaders ⟨kind, name, view, hkind, hview, hdevice⟩
  exact h.eq_nil_of_shaders hviews htable hend

/-- The shaders of every backend read as before, unless some stand at the end that nothing looks
at. -/
theorem shaders_eq (hreadable : c.Readable) (hwithin : cut.RegionsWithin)
    (hwatched : ∀ b, ¬(cut.extend more).Unwatched b) (b : Backend) :
    cut.shaders b = (cut.extend more).shaders b := by
  obtain ⟨views, hviews, -⟩ := h.exists_shaders hreadable b
  rw [hviews]
  rcases cut.regionEnd_extend_cases more b with hsame | ⟨hend, hlonger⟩
  · -- the region ends in what is left
    exact Archive.shaders_of_extend hviews hsame (hwithin.regionEnd_le b)
  · cases htable : cut.shaderTable? b with
    | none =>
      simp only [Archive.shaders, Archive.shaderTable?_extend, htable] at hviews ⊢
      exact hviews
    | some place =>
      have hsome : (cut.shaderTable? b).isSome = true := by rw [htable]; rfl
      have huses := not_not.1 fun hunused => hwatched b ⟨hsome, hlonger, hunused⟩
      have hnil := h.eq_nil_of_uses hcut hsome hlonger huses
      rw [hnil, Archive.extend_nil] at hviews
      exact hviews

variable (hc : c.Resolves)
include hc

/-- A record is there as far as its last byte. -/
theorem record_end_le (hwithin : cut.RegionsWithin) {i : Nat} {body : Bytes}
    (hbody : l.bodies[i]? = some body) :
    l.commonStart + (packed ((l.bodies.map some).take i)).length + body.length ≤
      cut.data.length := by
  have hlt := (List.getElem?_eq_some_iff.1 hbody).1
  rw [(commonRecords_spec h.layout.bodies).1] at hlt
  have hr := List.getElem?_eq_getElem hlt
  have hnamed := h.isNamed_of_mem hc (List.mem_of_getElem? hr)
  obtain ⟨body', e, hbody', he, -, hoffset, hsize⟩ := h.exists_entry_at hr hnamed
  rw [hbody] at hbody'
  cases hbody'
  -- the record was looked at in what is left, where the common region ends no later than that
  have hend := Archive.le_commonEnd_of_verifyPlace (hcut.place hnamed he)
  have hcommon := h.layout.common_eq h.size h.opened
  rw [Archive.header_extend] at hcommon
  rw [hcommon, hoffset, hsize] at hend
  exact Nat.le_trans hend hwithin.commonEnd_le

/-- A datum is there as far as its last byte. -/
theorem datum_end_le (hreadable : c.Readable) {b : Backend} {i : Nat} {d : Bytes}
    (hd : (column rs b)[i]? = some (some d)) :
    l.start b + (packed ((column rs b).take i)).length + d.length ≤ cut.data.length := by
  obtain ⟨r, hr, hdevice⟩ : ∃ r, rs[i]? = some r ∧ r.device.get b = some d := by
    rw [column, List.getElem?_map, Option.map_eq_some_iff] at hd
    exact hd
  have hmem := List.mem_of_getElem? hr
  have hnamed := h.isNamed_of_mem hc hmem
  obtain ⟨body, e, hbody, he, hentry⟩ := h.exists_entry_at hr hnamed
  obtain ⟨-, header, hrecord, hplaces⟩ := h.layout.record_at h.size h.opened hr hbody hentry
  -- the record that verification has read is this one, so it has the same place for the datum
  obtain ⟨view, hview, hdata⟩ := hcut.record hnamed he
  rw [Archive.record_extend hview more] at hrecord
  cases hrecord
  have hplace := hplaces b
  rw [hdevice] at hplace
  obtain ⟨hoffset, hlength⟩ := placeWords_some hplace
  have hpositive : 0 < d.length := by
    refine List.length_pos_of_ne_nil ?_
    rintro rfl
    exact device_ne_nil hreadable h.records hmem b hdevice
  have hat := (h.layout.hasAt_region b).trans
    ((hasAt_column (h.layout.regions b)).trans (hasAt_packed hd))
  have hle := hat.le_length
  have hsize := h.size
  have hbounds := offset_bounds
  have hvalid : header.offsets.get b ≠ invalidOffset := ne_invalidOffset (by omega)
  obtain ⟨found, hfound⟩ := hdata b
  obtain ⟨start, hstart, hend⟩ := Archive.le_length_of_deviceData? hfound hvalid
  have hregion := h.layout.region?_eq h.size b
  rw [← h.opened.header, Archive.header_extend, hstart] at hregion
  split at hregion
  · cases hregion
  · cases hregion
    have hfirst : saturatingAdd (l.start b) (packed ((column rs b).take i)).length =
        l.start b + (packed ((column rs b).take i)).length := saturatingAdd_eq (by omega)
    simp only [hoffset, hlength] at hend
    rwa [hfirst, saturatingAdd_eq (by omega)] at hend

/-- Where there are no regions the records are looked at to the end. -/
theorem isPadding_of_common (hwithin : cut.RegionsWithin)
    (hregions : totalSize l.sizes = 0) : IsPadding more := by
  have hwhole : cut.data ++ more = l.bytes := h.opened.data
  have hend : l.commonStart + l.common.length = l.bytes.length := by
    rw [h.layout.length_eq, hregions]
    rfl
  rw [← hwhole] at hend
  by_cases hcommon : packed (l.bodies.map some) = []
  · -- without records it was looked at where the common region starts, and that is the end
    have hstart := h.layout.common_eq h.size h.opened
    rw [Archive.header_extend] at hstart
    have hle := Nat.le_trans hcut.common hwithin.commonEnd_le
    rw [hstart] at hle
    rw [Layout.common, hcommon, List.length_nil, List.length_append] at hend
    rw [List.eq_nil_of_length_eq_zero (show more.length = 0 by omega)]
    exact isPadding_nil
  · obtain ⟨i, body, hbody, hlast⟩ := exists_last_packed hcommon
    rw [List.getElem?_map, Option.map_eq_some_iff] at hbody
    obtain ⟨body, hbody, hsome⟩ := hbody
    cases hsome
    have hat := h.layout.hasAt_common
    rw [Layout.common, hlast] at hat hend
    rw [← hwhole] at hat
    exact isPadding_of_hasAt hat hend (h.record_end_le hcut hc hwithin hbody)

/-- The data of a region are looked at to the end. -/
theorem isPadding_of_data (hreadable : c.Readable) {b : Backend}
    (hne : (l.regions.get b).size ≠ 0)
    (hend : l.start b + (l.regions.get b).size = l.bytes.length)
    (hbytes : (l.regions.get b).bytes = packed (column rs b)) :
    IsPadding more := by
  have hwhole : cut.data ++ more = l.bytes := h.opened.data
  rw [Region.size, ← Region.bytes, hbytes] at hne hend
  obtain ⟨i, d, hd, hlast⟩ :=
    exists_last_packed fun hnil => hne (by rw [hnil, List.length_nil])
  have hat := h.layout.hasAt_region b
  rw [hbytes, hlast, ← hwhole] at hat
  rw [hlast, ← hwhole] at hend
  exact isPadding_of_hasAt hat hend (h.datum_end_le hcut hc hreadable hd)

/-- Nothing but padding is lost, unless shaders stand at the end that nothing looks at. -/
theorem isPadding (hreadable : c.Readable) (hwithin : cut.RegionsWithin)
    (hwatched : ∀ b, ¬(cut.extend more).Unwatched b) :
    IsPadding more := by
  by_cases hregions : totalSize l.sizes = 0
  · exact h.isPadding_of_common hcut hc hwithin hregions
  · obtain ⟨b, hne, hend⟩ := h.layout.exists_last_region hregions
    rcases region_spec (h.layout.regions b) with ⟨-, hbytes, -⟩ | ⟨hshaders, -⟩
    · exact h.isPadding_of_data hcut hc hreadable hne hend hbytes
    · have hvalid := (table_ne_invalid_iff (h.layout.regions b)).2
        (List.length_pos_of_ne_nil hshaders)
      have htable : ((cut.extend more).shaderTable? b).isSome = true := by
        rw [h.layout.shaderTable?_eq h.size h.opened, Region.table?, if_neg hvalid]
        rfl
      have hregionEnd : (cut.extend more).regionEnd b = (cut.extend more).data.length := by
        rw [h.layout.regionEnd_eq h.size h.opened, hend, h.opened.data]
      have huses := not_not.1 fun hunused => hwatched b ⟨htable, hregionEnd, hunused⟩
      rw [h.eq_nil_of_uses hcut htable hregionEnd huses]
      exact isPadding_nil

/-- What is lost is padding and all shaders read as before, exactly if nothing is lost at all or
no shaders stand at the end that nothing looks at. -/
theorem truncated_iff (hreadable : c.Readable) (hwithin : cut.RegionsWithin) :
    ((∀ b, cut.shaders b = (cut.extend more).shaders b) ∧ IsPadding more) ↔
      more = [] ∨ ∀ b, ¬(cut.extend more).Unwatched b := by
  constructor
  · rintro ⟨hshaders, -⟩
    refine or_iff_not_imp_left.2 fun hmore b => ?_
    rintro ⟨htable, hend, -⟩
    obtain ⟨views, hviews, -⟩ := h.exists_shaders hreadable b
    rw [← hshaders b] at hviews
    exact hmore (h.eq_nil_of_shaders hviews htable hend)
  · rintro (rfl | hwatched)
    · exact ⟨fun b => congrArg (Archive.shaders · b) cut.extend_nil.symm, isPadding_nil⟩
    · exact ⟨h.shaders_eq hcut hreadable hwithin hwatched,
        h.isPadding hcut hc hreadable hwithin hwatched⟩

end

/-- Where no name of a pipeline has a zero byte, every pipeline is found, and so are the shaders at
the end looked at. -/
theorem not_unwatched (h : Built c builder rs l a) (hc : c.Grounded)
    (hnames : ∀ kind, kind.isPipeline = true → ∀ name ∈ c.names kind, 0 ∉ Bytes.ofText name)
    (b : Backend) : ¬a.Unwatched b := by
  rintro ⟨htable, -, hunused⟩
  obtain ⟨place, hplace⟩ := Option.isSome_iff_exists.1 htable
  obtain ⟨-, -, hshaders⟩ := h.table_end hplace
  -- the first shader belongs to a pipeline, which has a name without zero bytes
  obtain ⟨⟨kind, name⟩, p, d, hp, hd, -⟩ :=
    hc.used b 0 (List.length_pos_of_ne_nil hshaders)
  have hkind : kind.isPipeline = true := hc.resolves.kind hp
  have hnamed := isNamed_of_isPipeline hkind
  have hmem : name ∈ c.names kind := by
    rw [Contents.names_of_isPipeline hkind, Contents.mem_pipelineNames,
      Contents.Grounded.resolved?_eq hp]
    rfl
  obtain ⟨e, he, rfl, hlookup⟩ :=
    ((h.lists_iff hc.resolves hnamed).2 (hnames kind hkind)).found hmem
  -- the entry that is found is that of a pipeline of the same name, which is this one
  obtain ⟨placed, hplaced, hr, hsame, hentry⟩ := h.exists_source hnamed he
  obtain ⟨⟨kind', name'⟩, p', hp', hrecord⟩ := h.exists_pipeline hr (by rw [hsame]; exact hkind)
  obtain ⟨hkind', hname', -⟩ := pipelineRecord_spec hrecord
  rw [hsame] at hkind'
  subst hkind'
  have hmem' : name' ∈ c.names kind := by
    rw [Contents.names_of_isPipeline hkind, Contents.mem_pipelineNames,
      Contents.Grounded.resolved?_eq hp']
    rfl
  have hseen := hentry.1
  rw [hname'] at hseen
  have heq := eq_of_takeWhile (hnames kind hkind name' hmem') hseen
  subst heq
  rw [hp] at hp'
  cases hp'
  obtain ⟨signatures, renderPass, -, -, hview⟩ :=
    h.pipeline_eq hc.readable hplaced hr hrecord hentry hlookup
  refine hunused ⟨kind, e.name, _, hkind, hview, ?_⟩
  rw [pipelineView, PerBackend.get_map, hd]
  rfl

end Built

/-- The beginning of an archive that was built, if it is opened and passes verification, has every
signature, render pass and pipeline of it. What is lost is padding, and the shaders are those of the
archive, exactly if nothing is lost or no shaders stand at the end that nothing looks at. -/
theorem build_truncated {c : Contents} (hresolves : c.Resolves) (hreadable : c.Readable)
    {builder : Option String} {limit : Nat} (hlimit : limit < UInt32.size) {image : Image}
    (hbuild : build c builder limit = .ok image) {full : Archive}
    (hfull : Archive.ofBytes image.bytes = .ok full) {data more : Bytes}
    (hdata : image.bytes = data ++ more) {cut : Archive} (hcut : Archive.ofBytes data = .ok cut)
    (hwithin : cut.RegionsWithin) (hverify : cut.verify = .ok ()) :
    cut.ReadsAlike full ∧
      (((∀ b, cut.shaders b = full.shaders b) ∧ IsPadding more) ↔
        more = [] ∨ ∀ b, ¬full.Unwatched b) := by
  obtain ⟨rs, l, opened, hopened, h⟩ := exists_built hlimit hbuild
  have hextend := Archive.ofBytesOfVersion_append hcut more
  rw [← hdata] at hextend
  cases Except.ok.inj (hfull.symm.trans hextend)
  cases Except.ok.inj (hopened.symm.trans hextend)
  have hverified := Archive.verified_of_verify hverify
  exact ⟨hverified.readsAlike_extend hcut more,
    h.truncated_iff hverified hresolves hreadable hwithin⟩

end PipelineArchive.Container
