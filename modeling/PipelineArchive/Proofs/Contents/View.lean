import PipelineArchive.Proofs.Contents.Commit
import PipelineArchive.Proofs.Contents.Signatures
import Mathlib.Data.List.Sort

/-!
# Contents up to the numbering of shaders

The `view` of contents has what is archived under every name, with the shaders of a pipeline in
place of their positions. Consistent contents are known from their view up to the order of the
shaders in the stores (`sameAs_of_view_eq`), and what a commit does to the view can be told from
the view alone (`view_commit`). Stagings can therefore be compared as changes of views: two that
are `Compatible` may be committed in either order (`commit_comm`), and one that another one
`Covers` leaves no trace when that follows (`commit_of_covers`).
-/

set_option autoImplicit false

namespace PipelineArchive

/-- A table is known from the values of its keys. -/
theorem Table.ext_get? {κ α : Type} [DecidableEq κ] [Key κ] {t t' : Table κ α}
    (h : t.get? = t'.get?) : t = t' := by
  have hmem (entry : κ × α) : entry ∈ t.entries ↔ entry ∈ t'.entries := by
    obtain ⟨key, value⟩ := entry
    rw [← get?_eq_some_iff, h, get?_eq_some_iff]
  have hnodup (t : Table κ α) : t.entries.Nodup := List.Nodup.of_map _ t.nodup_keys
  have hperm := (List.perm_ext_iff_of_nodup (hnodup t) (hnodup t')).2 hmem
  -- no two entries stand before one another, so the order of the entries is settled too
  have hentries : t.entries = t'.entries := by
    refine hperm.eq_of_pairwise (fun a b _ _ hab hba => ?_) t.sorted t'.sorted
    have hself := Key.trans hab hba
    rw [Key.irrefl] at hself
    cases hself
  obtain ⟨entries, sorted⟩ := t
  obtain ⟨entries', sorted'⟩ := t'
  cases hentries
  rfl

/-! ## Views -/

/-- What is archived under every name. -/
@[ext]
structure View where
  signature : String → Option SignatureRecord
  renderPass : String → Option Bytes
  pipeline : PipelineKey → Option (ArchivedPipeline ResolvedDevice)

/-- What contents have under every name. -/
def Contents.view (c : Contents) : View := ⟨c.signatures.get?, c.renderPasses.get?, c.resolved?⟩

namespace Staging

variable {κ α : Type} [DecidableEq κ]

/-- The value of an entry that is the one of a key. -/
def entryAt (entry : Option (κ × α)) (key : κ) : Option α :=
  entry.bind fun e => if key = e.1 then some e.2 else none

theorem entryAt_eq_some_iff {entry : Option (κ × α)} {key : κ} {value : α} :
    entryAt entry key = some value ↔ entry = some (key, value) := by
  cases entry with
  | none => exact iff_of_false (by rintro ⟨⟩) (by rintro ⟨⟩)
  | some entry =>
    obtain ⟨other, old⟩ := entry
    by_cases h : key = other
    · simp [entryAt, h]
    · simp [entryAt, h, Ne.symm h]

theorem isSome_entryAt_iff {entry : Option (κ × α)} {key : κ} :
    (entryAt entry key).isSome ↔ entry.map (·.1) = some key := by
  rw [Option.isSome_iff_exists, Option.map_eq_some_iff]
  simp only [entryAt_eq_some_iff, Prod.exists]
  constructor
  · rintro ⟨value, rfl⟩
    exact ⟨key, value, rfl, rfl⟩
  · rintro ⟨_, value, rfl, rfl⟩
    exact ⟨value, rfl⟩

theorem entryAt_eq_none_iff {entry : Option (κ × α)} {key : κ} :
    entryAt entry key = none ↔ entry.map (·.1) ≠ some key := by
  rw [← Option.not_isSome_iff_eq_none, isSome_entryAt_iff]

/-- The signature of a name that is made for the pipeline. -/
def made? (s : Staging) (name : String) : Option SignatureRecord := entryAt s.defaultSignature name

/-- The render pass of a name that is staged. -/
def renderPass? (s : Staging) (name : String) : Option Bytes := entryAt s.renderPass name

/-- The pipeline of a key that is staged. -/
def pipeline? (s : Staging) (key : PipelineKey) : Option (ArchivedPipeline PatchedPipeline) :=
  entryAt s.pipeline key

end Staging

/-- A view after a staging enters. -/
def View.commit (v : View) (s : Staging) : View where
  signature name := (s.made? name).or
    ((v.signature name).merge SignatureRecord.merge (s.signatures.lookup name))
  renderPass name := (v.renderPass name).or (s.renderPass? name)
  pipeline key := ((s.pipeline? key).map (·.staged)).or (v.pipeline key)

/-- A view after what is added, if anything is. -/
def View.add (v : View) : Option Staging → View
  | none => v
  | some staging => v.commit staging

namespace Contents

/-- A commit does to the view what the staging says. -/
theorem view_commit {c : Contents} (h : c.Consistent) {s : Staging}
    (hs : Staging.Distinct s.signatures) : (c.commit s).view = c.view.commit s := by
  ext1
  · funext name
    simp only [view, View.commit, get?_signatures_commit c hs, Staging.made?, Staging.entryAt]
    cases s.defaultSignature with
    | none => rfl
    | some made =>
      simp only [Option.bind_some]
      split <;> rfl
  · funext name
    simp only [view, View.commit, get?_renderPasses_commit, Staging.renderPass?, Staging.entryAt]
    cases s.renderPass with
    | none => exact Option.or_none.symm
    | some pass =>
      simp only [Option.bind_some]
      split
      · rename_i hname
        rw [hname]
      · exact Option.or_none.symm
  · funext key
    simp only [view, View.commit, resolved?_commit h, Staging.pipeline?, Staging.entryAt]
    cases s.pipeline with
    | none => rfl
    | some staged =>
      simp only [Option.bind_some]
      split <;> rfl

/-! ## Contents with one view -/

/-- Contents that differ in the numbering of their shaders alone. -/
structure SameAs (c c' : Contents) : Prop where
  signatures : c.signatures = c'.signatures
  renderPasses : c.renderPasses = c'.renderPasses
  pipelines (key : PipelineKey) : c.resolved? key = c'.resolved? key
  shaders (b : Backend) : (c.shaders.get b).shaders.Perm (c'.shaders.get b).shaders

/-- The stored shaders are those that pipelines have. -/
theorem mem_shaders_iff {c : Contents} (h : c.Consistent) {b : Backend} {shader : Bytes} :
    shader ∈ (c.shaders.get b).shaders ↔ ∃ key p d, c.resolved? key = some p ∧
      p.device.get b = some d ∧ some shader ∈ d.1 := by
  constructor
  · intro hmem
    obtain ⟨index, hindex⟩ := List.mem_iff_getElem?.1 hmem
    have hget : (c.shaders.get b).get? index = some shader := hindex
    obtain ⟨key, p, d, hp, hd, hshader⟩ := h.used b index (ShaderStore.lt_size_of_get? hget)
    refine ⟨key, p.resolved c.shaders, (d.shaders.map (c.shaders.get b).get?, d.header), ?_, ?_,
      List.mem_map.2 ⟨index, hshader, hget⟩⟩
    · rw [resolved?, hp]
      rfl
    · simp [ArchivedPipeline.resolved, ArchivedPipeline.mapDevice, hd]
  · rintro ⟨key, p, d, hp, hd, hshader⟩
    obtain ⟨record, -, rfl⟩ := Option.map_eq_some_iff.1 hp
    simp only [ArchivedPipeline.resolved, ArchivedPipeline.mapDevice, PerBackend.get_ofFn,
      Option.map_eq_some_iff] at hd
    obtain ⟨device, -, rfl⟩ := hd
    obtain ⟨index, -, hget⟩ := List.mem_map.1 hshader
    exact List.mem_of_getElem? hget

/-- Consistent contents with one view differ in the numbering of their shaders alone. -/
theorem sameAs_of_view_eq {c c' : Contents} (h : c.Consistent) (h' : c'.Consistent)
    (hview : c.view = c'.view) : c.SameAs c' where
  signatures := Table.ext_get? (congrArg View.signature hview)
  renderPasses := Table.ext_get? (congrArg View.renderPass hview)
  pipelines key := congrFun (congrArg View.pipeline hview) key
  shaders b := by
    have hresolved : c.resolved? = c'.resolved? := congrArg View.pipeline hview
    refine (List.perm_ext_iff_of_nodup (h.indexed b).nodup (h'.indexed b).nodup).2 fun shader => ?_
    rw [mem_shaders_iff h, mem_shaders_iff h', hresolved]

end Contents

/-! ## Merging -/

namespace SignatureRecord

/-- Records of one description whose data are the same where both have some. -/
structure Agrees (r r' : SignatureRecord) : Prop where
  common : r.common = r'.common
  data {b : Backend} {data data' : Bytes} :
    r.device.get b = some data → r'.device.get b = some data' → data = data'

theorem ext_get {r s : SignatureRecord} (hcommon : r.common = s.common)
    (hdevice : ∀ b, r.device.get b = s.device.get b) : r = s := by
  obtain ⟨common, device⟩ := r
  obtain ⟨common', device'⟩ := s
  obtain rfl : common = common' := hcommon
  exact congrArg (SignatureRecord.mk common) (PerBackend.ext_get hdevice)

theorem merge_comm {r r' : SignatureRecord} (h : r.Agrees r') : r.merge r' = r'.merge r := by
  refine ext_get h.common fun b => ?_
  rw [get_merge, get_merge]
  cases hr : r.device.get b with
  | none => rw [Option.none_or, Option.or_none]
  | some data =>
    cases hr' : r'.device.get b with
    | none => rfl
    | some data' => rw [h.data hr hr']

theorem merge_assoc (a r r' : SignatureRecord) : (a.merge r).merge r' = a.merge (r.merge r') :=
  ext_get rfl fun b => by simp only [get_merge, Option.or_assoc]

end SignatureRecord

/-- Merging what two records agree on into one that may be there already. -/
theorem merge_right_comm {v r r' : Option SignatureRecord}
    (h : ∀ x x', r = some x → r' = some x' → x.Agrees x') :
    (v.merge SignatureRecord.merge r).merge SignatureRecord.merge r' =
      (v.merge SignatureRecord.merge r').merge SignatureRecord.merge r := by
  cases r with
  | none => simp only [Option.merge_none_right]
  | some x =>
    cases r' with
    | none => simp only [Option.merge_none_right]
    | some x' =>
      have hcomm := SignatureRecord.merge_comm (h x x' rfl rfl)
      cases v with
      | none => exact congrArg some hcomm
      | some a =>
        change some ((a.merge x).merge x') = some ((a.merge x').merge x)
        rw [SignatureRecord.merge_assoc, hcomm, ← SignatureRecord.merge_assoc]

/-! ## Stagings as changes of views -/

namespace Staging

/-- Stagings that may be committed in either order. -/
structure Compatible (s t : Staging) : Prop where
  signature {name : String} {r r' : SignatureRecord} :
    s.signatures.lookup name = some r → t.signatures.lookup name = some r' → r.Agrees r'
  made (name : String) : (s.made? name).isSome →
    t.made? name = none ∧ t.signatures.lookup name = none
  given (name : String) : (t.made? name).isSome →
    s.made? name = none ∧ s.signatures.lookup name = none
  renderPass {name : String} {desc desc' : Bytes} :
    s.renderPass? name = some desc → t.renderPass? name = some desc' → desc = desc'
  pipeline (key : PipelineKey) : (s.pipeline? key).isSome → t.pipeline? key = none

/-- A staging has everything that another one has, or something else in its place. -/
structure Covers (t s : Staging) : Prop where
  signature {name : String} {r : SignatureRecord} : s.signatures.lookup name = some r →
    ∃ r', t.signatures.lookup name = some r' ∧ r.merge r' = r'
  made {name : String} : t.made? name = none → s.made? name = none
  renderPass {name : String} {desc : Bytes} :
    s.renderPass? name = some desc → t.renderPass? name = some desc
  pipeline {key : PipelineKey} : t.pipeline? key = none → s.pipeline? key = none

end Staging

namespace View

open Staging

variable {s t : Staging}

/-- Stagings that are compatible may be committed in either order. -/
theorem commit_comm (h : s.Compatible t) (v : View) :
    (v.commit s).commit t = (v.commit t).commit s := by
  ext1
  · funext name
    simp only [commit]
    cases hs : s.made? name with
    | some r =>
      obtain ⟨hmade, hgiven⟩ := h.made name (by rw [hs]; rfl)
      simp [hmade, hgiven]
    | none =>
      cases ht : t.made? name with
      | some r =>
        obtain ⟨-, hgiven⟩ := h.given name (by rw [ht]; rfl)
        simp [hgiven]
      | none =>
        simp only [Option.none_or]
        exact merge_right_comm fun _ _ hr hr' => h.signature hr hr'
  · funext name
    simp only [commit, Option.or_assoc]
    cases hs : s.renderPass? name with
    | none => rw [Option.none_or, Option.or_none]
    | some desc =>
      cases ht : t.renderPass? name with
      | none => rfl
      | some desc' => rw [h.renderPass hs ht]
  · funext key
    simp only [commit]
    cases hs : s.pipeline? key with
    | none => simp
    | some p => simp [h.pipeline key (by rw [hs]; rfl)]

/-- A staging leaves no trace if one that covers it follows. -/
theorem commit_of_covers (h : t.Covers s) (v : View) : (v.commit s).commit t = v.commit t := by
  ext1
  · funext name
    simp only [commit]
    cases ht : t.made? name with
    -- a signature that is made takes the place of whatever was there
    | some r => rfl
    | none =>
      rw [h.made ht, Option.none_or, Option.none_or, Option.none_or]
      cases hs : s.signatures.lookup name with
      | none => rw [Option.merge_none_right]
      | some r =>
        obtain ⟨r', hr', hmerge⟩ := h.signature hs
        rw [hr']
        cases v.signature name with
        | none => exact congrArg some hmerge
        | some a =>
          change some ((a.merge r).merge r') = some (a.merge r')
          rw [SignatureRecord.merge_assoc, hmerge]
  · funext name
    simp only [commit, Option.or_assoc]
    cases hs : s.renderPass? name with
    | none => rfl
    | some desc => rw [h.renderPass hs, Option.some_or]
  · funext key
    simp only [commit]
    cases ht : t.pipeline? key with
    | some p => rfl
    | none => rw [h.pipeline ht]; rfl

end View

end PipelineArchive
