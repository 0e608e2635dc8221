import PipelineArchive.Proofs.Archiver.AcceptedNames
import PipelineArchive.Proofs.Container.Truncation

/-!
# Archives of runs that lose their end

`image_truncated` is what a run makes of `Container.build_truncated`: an archive that was written
after any requests, and that has lost bytes at its end, either is refused, or it lacks nothing but
padding, or it ends with shaders that verification does not look at. The last is only possible if a
pipeline was accepted under a name with a zero byte. `cutPipelines` is such a run, of two pipelines
that are read under one name: the shaders of the second one are never looked at.
-/

set_option autoImplicit false

namespace PipelineArchive.Archiver

open Results

/-- Whatever an archiver was asked to add, its archive is too large, or it is opened and passes
verification. What is read from any beginning of it that is opened is read from the whole archive.
If the beginning passes verification as well, with the regions still starting in it, every
signature, render pass and pipeline reads as from the whole archive. What is lost is then padding,
and the shaders are those of the whole archive, exactly if nothing is lost or no shaders stand at
the end that verification does not look at; and there are none of these if no name of a pipeline
that was accepted has a zero byte. -/
theorem image_truncated {σ : Type} (registry : Registry σ) (config : Config) (state : σ)
    (requests : List Request) :
    let answered := answerAll ask (new registry config, state) requests
    let accepted := Request.acceptedNames [] (kept requests answered.1)
    (∃ image full, answered.2.1.image = .ok image ∧
      Container.Archive.ofBytes image.bytes = .ok full ∧ full.verify = .ok () ∧
      (∀ data more cut, image.bytes = data ++ more →
        Container.Archive.ofBytes data = .ok cut → cut.PartOf full ∧
          (cut.RegionsWithin → cut.verify = .ok () →
            cut.ReadsAlike full ∧
            (((∀ b, cut.shaders b = full.shaders b) ∧ Container.IsPadding more) ↔
              more = [] ∨ ∀ b, ¬full.Unwatched b))) ∧
      ((∀ kind, kind.isPipeline = true → ∀ name ∈ accepted kind, 0 ∉ Bytes.ofText name) →
        ∀ b, ¬full.Unwatched b)) ∨
    ∃ size, maxArchiveSize < size ∧ answered.2.1.image = .error (.tooLarge size) := by
  intro answered accepted
  have hgrounded := grounded_answerAll registry config state requests
  have hlimit : maxArchiveSize < UInt32.size := by decide
  rcases Container.build_cases hgrounded.resolves _ hlimit with ⟨image, himage⟩ | hlarge
  · obtain ⟨rs, l, full, hfull, hbuilt⟩ := Container.exists_built hlimit himage
    refine .inl ⟨image, full, himage, hfull,
      hbuilt.verify_eq hgrounded.resolves hgrounded.readable, ?_, fun hnames => ?_⟩
    · intro data more cut hdata hcut
      refine ⟨?_, fun hwithin hverify => Container.build_truncated hgrounded.resolves
        hgrounded.readable hlimit himage hfull hdata hcut hwithin hverify⟩
      rw [hdata] at hfull
      exact Container.Archive.partOf_of_append hfull hcut
    · refine hbuilt.not_unwatched hgrounded fun kind hkind name hname => hnames kind hkind name ?_
      exact (mem_names_of_new registry config state requests kind name).1 hname
  · exact .inr hlarge

/-- A signature, whose archive ends with data and three bytes of padding. -/
def paddedSignature : List Request := [.signature ⟨"S", 0, [], []⟩ (.singleton .vulkan)]

/-- The padding can be cut off, and everything still reads as before. -/
theorem image_truncated_paddedSignature :
    let answered := answerAll ask (new (Registry.empty : Registry Unit) {}, ()) paddedSignature
    ∃ image full cut, answered.2.1.image = .ok image ∧
      Container.Archive.ofBytes image.bytes = .ok full ∧
      image.bytes = image.bytes.take 237 ++ [0, 0, 0] ∧
      Container.Archive.ofBytes (image.bytes.take 237) = .ok cut ∧ cut.RegionsWithin ∧
      cut.verify = .ok () ∧ cut.ReadsAlike full ∧ ∀ b, cut.shaders b = full.shaders b := by
  intro answered
  have hchecked : (answered.2.1.image.map fun image =>
      (Container.Archive.ofBytes (image.bytes.take 237)).map fun cut =>
        (image.bytes == image.bytes.take 237 ++ [0, 0, 0], cut.verify, decide cut.RegionsWithin)) =
      .ok (.ok (true, .ok (), true)) := by decide +kernel
  have hnames : ∀ kind ∈ ChunkKind.all, kind.isPipeline = true →
      Request.acceptedNames [] (kept paddedSignature answered.1) kind = [] := by decide +kernel
  obtain ⟨image, himage, hchecked⟩ := map_eq_ok_iff.1 hchecked
  obtain ⟨cut, hcut, hchecked⟩ := map_eq_ok_iff.1 hchecked
  simp only [Prod.mk.injEq, beq_iff_eq, decide_eq_true_eq] at hchecked
  obtain ⟨hdata, hverify, hwithin⟩ := hchecked
  rcases image_truncated (Registry.empty : Registry Unit) {} () paddedSignature with
    ⟨image', full, himage', hfull, -, hcuts, hwatched⟩ | ⟨size, -, hlarge⟩
  · cases Except.ok.inj (himage.symm.trans himage')
    obtain ⟨halike, hiff⟩ := (hcuts _ _ cut hdata hcut).2 hwithin hverify
    refine ⟨image, full, cut, himage, hfull, hdata, hcut, hwithin, hverify, halike, ?_⟩
    refine (hiff.2 (.inr (hwatched fun kind hkind name hname => ?_))).1
    rw [hnames kind (ChunkKind.mem_all kind) hkind] at hname
    cases hname
  · cases himage.symm.trans hlarge

/-- Two pipelines whose names differ only behind a zero byte, each for a backend of its own. -/
def cutPipelines : List Request :=
  [.pipeline (Session.singleShader "P\x00a" .compute .compute) (.singleton .metalMacos),
    .pipeline (Session.singleShader "P\x00b" .compute .compute) (.singleton .metalIos)]

/-- Both are accepted and the archive passes verification. So it does without its last byte, but
the shaders of the second pipeline can then no longer be read. -/
theorem lost_shaders_cutPipelines :
    let answered := answerAll ask (new Session.metalRegistry {}, ()) cutPipelines
    answered.1 = [.ok (), .ok ()] ∧
    ∃ image full cut last, answered.2.1.image = .ok image ∧
      Container.Archive.ofBytes image.bytes = .ok full ∧ full.verify = .ok () ∧
      image.bytes = image.bytes.dropLast ++ [last] ∧
      Container.Archive.ofBytes image.bytes.dropLast = .ok cut ∧ cut.RegionsWithin ∧
      cut.verify = .ok () ∧ cut.shaders .metalIos ≠ full.shaders .metalIos := by
  intro answered
  have hanswers : answered.1 = [.ok (), .ok ()] := by decide +kernel
  have hchecked : (answered.2.1.image.map fun image => do
      let full ← Container.Archive.ofBytes image.bytes
      let cut ← Container.Archive.ofBytes image.bytes.dropLast
      return (image.bytes == image.bytes.dropLast ++ [0], full.verify.isOk, cut.verify.isOk,
        decide cut.RegionsWithin, cut.shaders .metalIos == full.shaders .metalIos)) =
      .ok (.ok (true, true, true, true, false)) := by decide +kernel
  obtain ⟨image, himage, hchecked⟩ := map_eq_ok_iff.1 hchecked
  obtain ⟨full, hfull, hchecked⟩ := bind_eq_ok_iff.1 hchecked
  obtain ⟨cut, hcut, hchecked⟩ := bind_eq_ok_iff.1 hchecked
  have hchecked := Except.ok.inj hchecked
  simp only [Prod.mk.injEq, beq_iff_eq, decide_eq_true_eq, beq_eq_false_iff_ne] at hchecked
  obtain ⟨hdata, hverified, hverify, hwithin, hne⟩ := hchecked
  obtain ⟨⟨⟩, hverified⟩ := exists_ok_of_isOk hverified
  obtain ⟨⟨⟩, hverify⟩ := exists_ok_of_isOk hverify
  exact ⟨hanswers, image, full, cut, 0, himage, hfull, hverified, hdata, hcut,
    hwithin, hverify, hne⟩

end PipelineArchive.Archiver
