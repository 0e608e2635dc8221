import PipelineArchive.Contents.Basic
import Mathlib.Data.List.Nodup

/-!
# The signatures and render passes after a commit

A commit merges the signatures that are staged under their names with those archived, and puts a
default signature in the place of any other of its name. `get?_signatures_commit` says what is
archived of every name, and `get?_renderPasses_commit` the same of render passes. A merge keeps
the description and loses no datum, so a record only grows by it (`GrowsTo`).
-/

set_option autoImplicit false

namespace PipelineArchive

/-- A record has the description of another one, and data wherever that has some. -/
structure SignatureRecord.GrowsTo (r grown : SignatureRecord) : Prop where
  common : grown.common = r.common
  device {b : Backend} : (r.device.get b).isSome → (grown.device.get b).isSome

namespace SignatureRecord

theorem GrowsTo.refl (r : SignatureRecord) : r.GrowsTo r := ⟨rfl, id⟩

theorem get_merge (r other : SignatureRecord) (b : Backend) :
    (r.merge other).device.get b = (r.device.get b).or (other.device.get b) :=
  PerBackend.get_ofFn _ b

theorem growsTo_merge (r other : SignatureRecord) : r.GrowsTo (r.merge other) := by
  refine ⟨rfl, ?_⟩
  intro b h
  rw [get_merge, Option.isSome_or, h, Bool.true_or]

/-- No datum of the record is without bytes. -/
def Filled (r : SignatureRecord) : Prop := ∀ b, r.device.get b ≠ some []

theorem Filled.merge {r other : SignatureRecord} (h : r.Filled) (hother : other.Filled) :
    (r.merge other).Filled := by
  intro b hdata
  rw [get_merge] at hdata
  cases hr : r.device.get b with
  | none =>
    rw [hr, Option.none_or] at hdata
    exact hother b hdata
  | some data =>
    rw [hr, Option.some_or] at hdata
    exact h b (hr.trans hdata)

end SignatureRecord

/-- No archived signature has a datum without bytes. -/
def Contents.Filled (c : Contents) : Prop :=
  ∀ name r, c.signatures.get? name = some r → r.Filled

namespace Staging

/-! ## Staging signatures -/

theorem lookup_addTo (name : String) (record : SignatureRecord)
    (staged : List (String × SignatureRecord)) (other : String) :
    (addTo name record staged).lookup other =
      if other = name then (staged.lookup name).merge SignatureRecord.merge (some record)
      else staged.lookup other := by
  induction staged with
  | nil =>
    by_cases h : other = name
    · simp [addTo, h]
    · have hbeq : (other == name) = false := by simpa using h
      simp [addTo, h, List.lookup_cons, hbeq]
  | cons first rest ih =>
    obtain ⟨key, value⟩ := first
    by_cases hkey : key = name
    · subst hkey
      by_cases h : other = key
      · simp [addTo, h]
      · have hbeq : (other == key) = false := by simpa using h
        simp [addTo, h, List.lookup_cons, hbeq]
    -- the entry stays where it is, and the record goes into the rest
    · have hname : (name == key) = false := by simpa using Ne.symm hkey
      rw [addTo, if_neg hkey, List.lookup_cons, List.lookup_cons, List.lookup_cons, hname, ih]
      by_cases h : other = key
      · have hother : other ≠ name := fun heq => hkey (h.symm.trans heq)
        simp [h, hkey]
      · have hbeq : (other == key) = false := by simpa using h
        rw [hbeq]

/-- Every name is staged once. -/
def Distinct (staged : List (String × SignatureRecord)) : Prop := (staged.map (·.1)).Nodup

theorem map_fst_addTo (name : String) (record : SignatureRecord)
    (staged : List (String × SignatureRecord)) :
    (addTo name record staged).map (·.1) =
      if name ∈ staged.map (·.1) then staged.map (·.1) else staged.map (·.1) ++ [name] := by
  induction staged with
  | nil => simp [addTo]
  | cons first rest ih =>
    obtain ⟨key, value⟩ := first
    by_cases hkey : key = name
    · simp [addTo, hkey]
    · have hne : name ≠ key := Ne.symm hkey
      rw [addTo, if_neg hkey, List.map_cons, ih]
      simp only [List.map_cons, List.mem_cons, hne, false_or]
      split <;> rfl

theorem Distinct.addTo {staged : List (String × SignatureRecord)} (h : Distinct staged)
    (name : String) (record : SignatureRecord) : Distinct (addTo name record staged) := by
  rw [Distinct, map_fst_addTo]
  split
  · exact h
  · rename_i hnew
    refine List.nodup_append.2 ⟨h, List.nodup_singleton name, ?_⟩
    intro other hother key hkey
    rw [List.mem_singleton.1 hkey]
    rintro rfl
    exact hnew hother

theorem lookup_eq_none {staged : List (String × SignatureRecord)} {name : String}
    (h : name ∉ staged.map (·.1)) : staged.lookup name = none := by
  rw [List.lookup_eq_none_iff]
  intro entry hentry
  rw [bne_iff_ne]
  rintro rfl
  exact h (List.mem_map_of_mem hentry)

end Staging

namespace Contents

/-! ## Committing -/

theorem signatures_addPipeline (c : Contents) (key : PipelineKey)
    (p : ArchivedPipeline PatchedPipeline) :
    (c.addPipeline key p).signatures = c.signatures := by
  unfold addPipeline
  cases c.pipelines.get? key <;> rfl

theorem renderPasses_addPipeline (c : Contents) (key : PipelineKey)
    (p : ArchivedPipeline PatchedPipeline) :
    (c.addPipeline key p).renderPasses = c.renderPasses := by
  unfold addPipeline
  cases c.pipelines.get? key <;> rfl

theorem get?_signatures_addSignature (c : Contents) (name : String) (record : SignatureRecord)
    (other : String) : (c.addSignature name record).signatures.get? other =
      if other = name then (c.signatures.get? name).merge SignatureRecord.merge (some record)
      else c.signatures.get? other := by
  simp only [addSignature, Table.get?_insert]
  cases c.signatures.get? name <;> rfl

theorem get?_signatures_addSignatures (c : Contents) {staged : List (String × SignatureRecord)}
    (h : Staging.Distinct staged) (name : String) :
    (c.addSignatures staged).signatures.get? name =
      (c.signatures.get? name).merge SignatureRecord.merge (staged.lookup name) := by
  induction staged generalizing c with
  | nil => simp [addSignatures]
  | cons first rest ih =>
    obtain ⟨key, value⟩ := first
    obtain ⟨hnew, hrest⟩ := List.nodup_cons.1 h
    have hstep : c.addSignatures ((key, value) :: rest) =
        (c.addSignature key value).addSignatures rest := rfl
    rw [hstep, ih (c.addSignature key value) hrest, get?_signatures_addSignature,
      List.lookup_cons]
    -- the name of the first signature is not staged again
    by_cases hkey : name = key
    · subst hkey
      simp [Staging.lookup_eq_none hnew]
    · have hbeq : (name == key) = false := by simpa using hkey
      simp [hkey, hbeq]

theorem renderPasses_addSignatures (c : Contents) (staged : List (String × SignatureRecord)) :
    (c.addSignatures staged).renderPasses = c.renderPasses := by
  induction staged generalizing c with
  | nil => rfl
  | cons first rest ih => exact ih (c.addSignature first.1 first.2)

theorem signatures_addRenderPass (c : Contents) (name : String) (desc : Bytes) :
    (c.addRenderPass name desc).signatures = c.signatures := by
  unfold addRenderPass
  cases c.renderPasses.get? name <;> rfl

theorem get?_renderPasses_addRenderPass (c : Contents) (name : String) (desc : Bytes)
    (other : String) : (c.addRenderPass name desc).renderPasses.get? other =
      if other = name then (c.renderPasses.get? name).or (some desc)
      else c.renderPasses.get? other := by
  unfold addRenderPass
  cases hname : c.renderPasses.get? name with
  | some archived =>
    by_cases h : other = name
    · simp [h, hname]
    · simp [h]
  | none => simp

/-- The signature of a name after a commit: a default one, or what is archived merged with what is
staged. -/
theorem get?_signatures_commit (c : Contents) {s : Staging} (h : Staging.Distinct s.signatures)
    (name : String) : (c.commit s).signatures.get? name =
      match s.defaultSignature with
      | some (key, record) =>
          if name = key then some record
          else (c.signatures.get? name).merge SignatureRecord.merge (s.signatures.lookup name)
      | none =>
          (c.signatures.get? name).merge SignatureRecord.merge (s.signatures.lookup name) := by
  have hadded := c.get?_signatures_addSignatures h name
  unfold commit
  -- neither the render pass nor the pipeline touches the signatures
  cases s.pipeline <;> cases s.renderPass <;> cases s.defaultSignature <;>
    simp [signatures_addPipeline, signatures_addRenderPass, replaceSignature, hadded]

/-- The render pass of a name after a commit: the one archived, or else the one staged. -/
theorem get?_renderPasses_commit (c : Contents) (s : Staging) (name : String) :
    (c.commit s).renderPasses.get? name =
      match s.renderPass with
      | some (key, desc) =>
          if name = key then (c.renderPasses.get? key).or (some desc)
          else c.renderPasses.get? name
      | none => c.renderPasses.get? name := by
  have hadded := c.renderPasses_addSignatures s.signatures
  unfold commit
  cases s.pipeline <;> cases s.renderPass <;> cases s.defaultSignature <;>
    simp [renderPasses_addPipeline, get?_renderPasses_addRenderPass, replaceSignature, hadded]

end Contents

end PipelineArchive
