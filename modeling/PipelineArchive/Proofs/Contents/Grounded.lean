import PipelineArchive.Proofs.Container.Sources
import PipelineArchive.Proofs.Contents.Commit
import PipelineArchive.Proofs.Contents.Signatures

/-!
# Contents that can be written and read

Contents are `Grounded` if they are consistent, everything that a pipeline names is archived, and
all data can be read. They stay so if only such pipelines enter them that name what is archived
already or staged with them (`Supports`, `Grounded.commit`). Grounded contents are what the writer
and the reader of an archive ask for (`Grounded.resolves`, `Grounded.readable`).
-/

set_option autoImplicit false

namespace PipelineArchive.Contents

/-- Everything that a staged pipeline names is staged with it or archived, and all staged data can
be read. -/
structure Supports (c : Contents) (s : Staging) : Prop where
  distinct : Staging.Distinct s.signatures
  filled {name : String} {r : SignatureRecord} : s.signatures.lookup name = some r → r.Filled
  filledDefault {name : String} {r : SignatureRecord} :
    s.defaultSignature = some (name, r) → r.Filled
  kind {key : PipelineKey} {p : ArchivedPipeline PatchedPipeline} :
    s.pipeline = some (key, p) → key.1.isPipeline = true
  signature {key : PipelineKey} {p : ArchivedPipeline PatchedPipeline} :
    s.pipeline = some (key, p) → ∀ name ∈ p.signatures,
      (s.signatures.lookup name).isSome ∨ ∃ r, s.defaultSignature = some (name, r)
  renderPass {key : PipelineKey} {p : ArchivedPipeline PatchedPipeline} :
    s.pipeline = some (key, p) → ∀ name, p.renderPass = some name →
      (c.renderPasses.get? name).isSome ∨ ∃ desc, s.renderPass = some (name, desc)
  shader {key : PipelineKey} {p : ArchivedPipeline PatchedPipeline} {b : Backend}
    {d : PatchedPipeline} : s.pipeline = some (key, p) → p.device.get b = some d →
      ∀ shader ∈ d.shaders, Patch.IsRecord shader

/-- Consistent contents in which everything that a pipeline names is archived, and in which all
data can be read. -/
structure Grounded (c : Contents) : Prop extends Consistent c where
  filled : c.Filled
  kind {key : PipelineKey} {p : ArchivedPipeline ResolvedDevice} :
    c.resolved? key = some p → key.1.isPipeline = true
  signature {key : PipelineKey} {p : ArchivedPipeline ResolvedDevice} :
    c.resolved? key = some p → ∀ name ∈ p.signatures, (c.signatures.get? name).isSome
  renderPass {key : PipelineKey} {p : ArchivedPipeline ResolvedDevice} :
    c.resolved? key = some p →
      ∀ name, p.renderPass = some name → (c.renderPasses.get? name).isSome
  record {key : PipelineKey} {p : ArchivedPipeline ResolvedDevice} {b : Backend}
    {d : ResolvedDevice} : c.resolved? key = some p → p.device.get b = some d →
      ∀ shader ∈ d.1, ∃ bytes, shader = some bytes ∧ Patch.IsRecord bytes

theorem resolved?_empty (key : PipelineKey) : empty.resolved? key = none := rfl

theorem grounded_empty : empty.Grounded where
  toConsistent := consistent_empty
  filled name r h := by cases h
  kind h := by cases (resolved?_empty _).symm.trans h
  signature h := by cases (resolved?_empty _).symm.trans h
  renderPass h := by cases (resolved?_empty _).symm.trans h
  record h := by cases (resolved?_empty _).symm.trans h

/-! ## Commits -/

section

variable {c : Contents} {s : Staging}

/-- After a commit the signatures are those that were archived and those that are staged. -/
theorem isSome_signatures_commit_iff (hs : Staging.Distinct s.signatures) {name : String} :
    ((c.commit s).signatures.get? name).isSome ↔ (c.signatures.get? name).isSome ∨
      (s.signatures.lookup name).isSome ∨ ∃ r, s.defaultSignature = some (name, r) := by
  rw [get?_signatures_commit c hs]
  cases s.defaultSignature with
  | none => simp
  | some made =>
    obtain ⟨key, record⟩ := made
    by_cases hname : name = key
    · simp [hname]
    · simp [hname, Ne.symm hname]

/-- After a commit the render passes are those that were archived and the staged one. -/
theorem isSome_renderPasses_commit_iff {name : String} :
    ((c.commit s).renderPasses.get? name).isSome ↔
      (c.renderPasses.get? name).isSome ∨ ∃ desc, s.renderPass = some (name, desc) := by
  rw [get?_renderPasses_commit]
  cases s.renderPass with
  | none => simp
  | some staged =>
    obtain ⟨key, desc⟩ := staged
    by_cases hname : name = key
    · simp [hname]
    · simp [hname, Ne.symm hname]

theorem Filled.commit (hc : c.Filled) (hs : c.Supports s) : (c.commit s).Filled := by
  intro name r hr
  rw [get?_signatures_commit c hs.distinct] at hr
  have hmerged (h : (c.signatures.get? name).merge SignatureRecord.merge
      (s.signatures.lookup name) = some r) : r.Filled := by
    rcases Option.merge_eq_some_iff.1 h with ⟨harchived, -⟩ | ⟨-, hstaged⟩ |
      ⟨archived, staged, harchived, hstaged, rfl⟩
    · exact hc name r harchived
    · exact hs.filled hstaged
    · exact (hc name archived harchived).merge (hs.filled hstaged)
  split at hr
  -- a default is not merged, so only its own data count
  · rename_i key record hdefault
    split at hr
    · cases hr
      exact hs.filledDefault hdefault
    · exact hmerged hr
  · exact hmerged hr

/-- What a commit does to the pipeline of a key: it is the staged one, or it was there before. -/
theorem resolved?_commit_cases (h : c.Consistent) {key : PipelineKey}
    {p : ArchivedPipeline ResolvedDevice} (hp : (c.commit s).resolved? key = some p) :
    (∃ staged, s.pipeline = some (key, staged) ∧ p = staged.staged) ∨
      c.resolved? key = some p := by
  rw [resolved?_commit h] at hp
  split at hp
  · rename_i added staged hpipeline
    split at hp
    · rename_i hkey
      cases hp
      exact .inl ⟨staged, by rw [hpipeline, hkey], rfl⟩
    · exact .inr hp
  · exact .inr hp

/-- Contents stay grounded if they support what enters them. -/
theorem Grounded.commit (h : c.Grounded) (hs : c.Supports s) : (c.commit s).Grounded where
  -- each clause is that of the staged pipeline or that of a pipeline that was there before
  toConsistent := h.toConsistent.commit s
  filled := h.filled.commit hs
  kind hp := by
    rcases resolved?_commit_cases h.toConsistent hp with ⟨staged, hstaged, -⟩ | hold
    · exact hs.kind hstaged
    · exact h.kind hold
  signature hp name hname := by
    rcases resolved?_commit_cases h.toConsistent hp with ⟨staged, hstaged, rfl⟩ | hold
    · exact (isSome_signatures_commit_iff hs.distinct).2 (.inr (hs.signature hstaged name hname))
    · exact (isSome_signatures_commit_iff hs.distinct).2 (.inl (h.signature hold name hname))
  renderPass hp name hname := by
    rcases resolved?_commit_cases h.toConsistent hp with ⟨staged, hstaged, rfl⟩ | hold
    · exact isSome_renderPasses_commit_iff.2 (hs.renderPass hstaged name hname)
    · exact isSome_renderPasses_commit_iff.2 (.inl (h.renderPass hold name hname))
  record {key p b d} hp hd shader hshader := by
    rcases resolved?_commit_cases h.toConsistent hp with ⟨staged, hstaged, rfl⟩ | hold
    · simp only [ArchivedPipeline.staged, ArchivedPipeline.mapDevice, PerBackend.get_ofFn,
        Option.map_eq_some_iff] at hd
      obtain ⟨patched, hpatched, rfl⟩ := hd
      obtain ⟨bytes, hbytes, rfl⟩ := List.mem_map.1 hshader
      exact ⟨bytes, rfl, hs.shader hstaged hpatched bytes hbytes⟩
    · exact h.record hold hd shader hshader

end

/-! ## Writing and reading -/

namespace Grounded

variable {c : Contents}

theorem resolved?_eq {key : PipelineKey} {p : PipelineRecord}
    (hp : c.pipelines.get? key = some p) : c.resolved? key = some (p.resolved c.shaders) := by
  rw [resolved?, hp]
  rfl

theorem resolves (h : c.Grounded) : c.Resolves where
  kind hp := h.kind (resolved?_eq hp)
  signature hp := h.signature (resolved?_eq hp)
  renderPass hp := h.renderPass (resolved?_eq hp)
  shader hp hd index hindex := h.inRange _ _ index ⟨_, _, hp, hd, hindex⟩

/-- Every shader of the stores is one of a pipeline, and so a shader record. -/
theorem readable (h : c.Grounded) : c.Readable where
  data hr := h.filled _ _ hr
  shader b shader hshader := by
    obtain ⟨index, hindex⟩ := List.mem_iff_getElem?.1 hshader
    have hget : (c.shaders.get b).get? index = some shader := hindex
    -- no shader is left over, so each is one that a pipeline was staged with
    obtain ⟨key, p, d, hp, hd, hmem⟩ := h.used b index (ShaderStore.lt_size_of_get? hget)
    have hdevice : (p.resolved c.shaders).device.get b =
        some (d.shaders.map (c.shaders.get b).get?, d.header) := by
      simp [ArchivedPipeline.resolved, ArchivedPipeline.mapDevice, hd]
    obtain ⟨bytes, hbytes, hrecord⟩ := h.record (resolved?_eq hp) hdevice (some shader)
      (List.mem_map.2 ⟨index, hmem, hget⟩)
    cases hbytes
    exact hrecord

end Grounded

end PipelineArchive.Contents
