import PipelineArchive.Contents.Basic
import PipelineArchive.Proofs.Contents.Interning

/-!
# Committing what an item adds

A commit interns the shaders of a pipeline, and if the pipeline takes the place of another one
it drops the shaders that are left over and renumbers the references of every pipeline. No
reference may come to lead elsewhere by that.

Contents are `Sound` if the stores find each shader where it stands and every reference leads
to a shader, and `Consistent` if also every shader is referred to. `ArchivedPipeline.resolved`
has the shaders themselves in place of the references.

- `resolved_releaseShaders`, `consistent_releaseShaders`: releasing shaders leaves every
  pipeline with the shaders it had, and leaves no shader over.
- `Consistent.commit`: a commit keeps contents consistent.
- `commits_resolve`: after any commits the contents are consistent, and one more commit puts
  its pipeline in with the shaders it was staged with and leaves all others with theirs.
-/

set_option autoImplicit false

namespace PipelineArchive

/-- A pipeline with its data on each backend replaced. -/
def ArchivedPipeline.mapDevice {δ ε : Type} (f : Backend → δ → ε) (p : ArchivedPipeline δ) :
    ArchivedPipeline ε :=
  { p with device := .ofFn fun b => (p.device.get b).map (f b) }

/-- What a pipeline is on one backend with the shaders in place of their positions: no shader
where a position has none, and the header. -/
abbrev ResolvedDevice : Type := List (Option Bytes) × Bytes

/-- A pipeline with the shaders that its positions have in the stores. -/
def ArchivedPipeline.resolved (stores : PerBackend ShaderStore) (p : PipelineRecord) :
    ArchivedPipeline ResolvedDevice :=
  p.mapDevice fun b d => (d.shaders.map (stores.get b).get?, d.header)

/-- A staged pipeline with its shaders. -/
def ArchivedPipeline.staged (p : ArchivedPipeline PatchedPipeline) :
    ArchivedPipeline ResolvedDevice :=
  p.mapDevice fun _ d => (d.shaders.map some, d.header)

namespace Contents

/-- The archived pipeline of a key with its shaders. -/
def resolved? (c : Contents) (key : PipelineKey) : Option (ArchivedPipeline ResolvedDevice) :=
  (c.pipelines.get? key).map (·.resolved c.shaders)

/-- A pipeline refers to the shader at a position of a backend. -/
def RefersTo (c : Contents) (key : PipelineKey) (b : Backend) (index : Nat) : Prop :=
  ∃ p d, c.pipelines.get? key = some p ∧ p.device.get b = some d ∧ index ∈ d.shaders

/-- Every store finds its shaders where they stand, and every reference leads to one. -/
structure Sound (c : Contents) : Prop where
  indexed (b : Backend) : (c.shaders.get b).Indexed
  inRange (key : PipelineKey) (b : Backend) (index : Nat) :
    c.RefersTo key b index → index < (c.shaders.get b).size

/-- Sound contents in which every shader is referred to. -/
structure Consistent (c : Contents) : Prop extends Sound c where
  used (b : Backend) (index : Nat) :
    index < (c.shaders.get b).size → ∃ key, c.RefersTo key b index

theorem consistent_empty : empty.Consistent where
  indexed b := by
    simp only [empty, PerBackend.get_replicate]
    exact ShaderStore.indexed_empty
  inRange key b index := by
    rintro ⟨p, d, hp, -⟩
    simp [empty] at hp
  used b index h := by simp [empty, ShaderStore.empty, ShaderStore.size] at h

/-- What is said of stores and pipelines holds of contents that share both. -/
theorem Consistent.congr {c c' : Contents} (h : c.Consistent) (hs : c'.shaders = c.shaders)
    (hp : c'.pipelines = c.pipelines) : c'.Consistent := by
  obtain ⟨⟨hindexed, hrange⟩, hused⟩ := h
  simp only [RefersTo] at hrange hused
  constructor
  · constructor
    · simpa only [hs] using hindexed
    · simpa only [hs, hp, RefersTo] using hrange
  · simpa only [hs, hp, RefersTo] using hused

theorem resolved?_congr {c c' : Contents} (hs : c'.shaders = c.shaders)
    (hp : c'.pipelines = c.pipelines) (key : PipelineKey) : c'.resolved? key = c.resolved? key := by
  rw [resolved?, resolved?, hs, hp]

/-! ## Releasing shaders -/

theorem isReferenced_iff (c : Contents) (b : Backend) (index : Nat) :
    c.isReferenced b index = true ↔ ∃ key, c.RefersTo key b index := by
  simp only [isReferenced, Table.values, List.any_map, List.any_eq_true, Function.comp,
    Option.any_eq_true, List.contains_iff_mem, RefersTo, Table.get?_eq_some_iff]
  constructor
  · rintro ⟨⟨key, p⟩, hmem, d, hd, hindex⟩
    exact ⟨key, p, d, hmem, hd, hindex⟩
  · rintro ⟨key, p, d, hmem, hd, hindex⟩
    exact ⟨⟨key, p⟩, hmem, d, hd, hindex⟩

/-- What releasing does to the store of one backend: it stays indexed, every position that is
referred to moves to a place of its shader, and every place is that of such a position. -/
theorem releasedStore_spec {c : Contents} (h : c.Sound) (b : Backend) :
    (c.releasedStore b).2.Indexed ∧
      (∀ key index, c.RefersTo key b index → (c.releasedStore b).2.get?
        ((c.releasedStore b).1.follow index) = (c.shaders.get b).get? index) ∧
      ∀ place, place < (c.releasedStore b).2.size → ∃ key index, c.RefersTo key b index ∧
        (c.releasedStore b).1.follow index = place := by
  -- if every shader is referred to, the store is left as it is
  by_cases hall : (List.range (c.shaders.get b).size).all (c.isReferenced b) = true
  · have hreleased : c.releasedStore b = ([], c.shaders.get b) := if_pos hall
    rw [hreleased]
    refine ⟨h.indexed b, fun key index _ => rfl, ?_⟩
    intro place hplace
    have hkept := List.all_eq_true.1 hall place (List.mem_range.2 hplace)
    obtain ⟨key, hkey⟩ := (c.isReferenced_iff b place).1 hkept
    exact ⟨key, place, hkey, rfl⟩
  · have hreleased : c.releasedStore b = (c.shaders.get b).compact (c.isReferenced b) := if_neg hall
    rw [hreleased]
    refine ⟨ShaderStore.indexed_compact _ _, ?_, ?_⟩
    · intro key index hkey
      have hget : (c.shaders.get b).get? index = some _ :=
        List.getElem?_eq_getElem (h.inRange key b index hkey)
      rw [hget]
      exact ShaderStore.get?_follow_compact hget ((c.isReferenced_iff b index).2 ⟨key, hkey⟩)
    · intro place hplace
      obtain ⟨index, -, hkept, hfollow⟩ := ShaderStore.exists_follow_compact hplace
      obtain ⟨key, hkey⟩ := (c.isReferenced_iff b index).1 hkept
      exact ⟨key, index, hkey, hfollow⟩

theorem get_shaders_releaseShaders (c : Contents) (b : Backend) :
    c.releaseShaders.shaders.get b = (c.releasedStore b).2 := by
  simp [releaseShaders]

theorem get?_pipelines_releaseShaders (c : Contents) (key : PipelineKey) :
    c.releaseShaders.pipelines.get? key =
      (c.pipelines.get? key).map fun p =>
        p.mapDevice fun b d => d.moved (c.releasedStore b).1 := by
  simp only [releaseShaders, Table.get?_mapValues]
  rfl

/-- After a release a pipeline refers to where its positions have moved. -/
theorem refersTo_releaseShaders_iff (c : Contents) (key : PipelineKey) (b : Backend)
    (place : Nat) : c.releaseShaders.RefersTo key b place ↔
      ∃ index, c.RefersTo key b index ∧ (c.releasedStore b).1.follow index = place := by
  simp only [RefersTo, get?_pipelines_releaseShaders, Option.map_eq_some_iff]
  constructor
  -- each new position is an old one that was moved
  · rintro ⟨-, d, ⟨p, hp, rfl⟩, hd, hplace⟩
    simp only [ArchivedPipeline.mapDevice, PerBackend.get_ofFn, Option.map_eq_some_iff] at hd
    obtain ⟨d, hd, rfl⟩ := hd
    obtain ⟨index, hindex, hfollow⟩ := List.mem_map.1 hplace
    exact ⟨index, ⟨p, d, hp, hd, hindex⟩, hfollow⟩
  · rintro ⟨index, ⟨p, d, hp, hd, hindex⟩, hfollow⟩
    refine ⟨_, d.moved (c.releasedStore b).1, ⟨p, hp, rfl⟩, ?_, ?_⟩
    · simp [ArchivedPipeline.mapDevice, hd]
    · exact List.mem_map.2 ⟨index, hindex, hfollow⟩

/-- Releasing shaders leaves none over. -/
theorem consistent_releaseShaders {c : Contents} (h : c.Sound) : c.releaseShaders.Consistent where
  indexed b := by
    rw [get_shaders_releaseShaders]
    exact (releasedStore_spec h b).1
  inRange key b place hplace := by
    rw [get_shaders_releaseShaders]
    obtain ⟨index, hindex, rfl⟩ := (c.refersTo_releaseShaders_iff key b place).1 hplace
    have hget := (releasedStore_spec h b).2.1 key index hindex
    rw [← ShaderStore.get?_isSome_iff, hget, ShaderStore.get?_isSome_iff]
    exact h.inRange key b index hindex
  used b place hplace := by
    rw [get_shaders_releaseShaders] at hplace
    obtain ⟨key, index, hindex, hfollow⟩ := (releasedStore_spec h b).2.2 place hplace
    exact ⟨key, (c.refersTo_releaseShaders_iff key b place).2 ⟨index, hindex, hfollow⟩⟩

/-- Releasing shaders leaves every pipeline with the shaders it had. -/
theorem resolved_releaseShaders {c : Contents} (h : c.Sound) (key : PipelineKey) :
    c.releaseShaders.resolved? key = c.resolved? key := by
  rw [resolved?, resolved?, get?_pipelines_releaseShaders]
  cases hp : c.pipelines.get? key with
  | none => rfl
  | some p =>
    simp only [Option.map_some, Option.some.injEq, ArchivedPipeline.resolved,
      ArchivedPipeline.mapDevice, ArchivedPipeline.mk.injEq, true_and]
    apply PerBackend.ext_get
    intro b
    simp only [PerBackend.get_ofFn, get_shaders_releaseShaders]
    cases hd : p.device.get b with
    | none => rfl
    | some d =>
      simp only [Option.map_some, DevicePipeline.moved, List.map_map, Option.some.injEq,
        Prod.mk.injEq, and_true]
      apply List.map_congr_left
      intro index hindex
      -- a position that a pipeline has is referred to, so it moves to a place of its shader
      exact (releasedStore_spec h b).2.1 key index ⟨p, d, hp, hd, hindex⟩

/-! ## A pipeline -/

/-- Contents whose stores have the shaders of a pipeline, which is put in its place. -/
def withPipeline (c : Contents) (key : PipelineKey) (p : ArchivedPipeline PatchedPipeline) :
    Contents :=
  { c with
    shaders := (internShaders c.shaders p).2
    pipelines := c.pipelines.insert key (internShaders c.shaders p).1 }

theorem addPipeline_eq (c : Contents) (key : PipelineKey) (p : ArchivedPipeline PatchedPipeline) :
    c.addPipeline key p =
      if (c.pipelines.get? key).isSome then (c.withPipeline key p).releaseShaders
      else c.withPipeline key p := by
  unfold addPipeline
  cases h : c.pipelines.get? key <;> rfl

/-- What interning the shaders of a pipeline does to the store of one backend. -/
theorem internShaders_spec (stores : PerBackend ShaderStore) (p : ArchivedPipeline PatchedPipeline)
    (b : Backend) (h : (stores.get b).Indexed) :
    let store := (internShaders stores p).2.get b
    let device := (internShaders stores p).1.device.get b
    store.Indexed ∧ (stores.get b).shaders <+: store.shaders ∧
      (device.map fun d => (d.shaders.map store.get?, d.header)) =
        (p.device.get b).map (fun d => (d.shaders.map some, d.header)) ∧
      ∀ index, index < store.size →
        index < (stores.get b).size ∨ ∃ d, device = some d ∧ index ∈ d.shaders := by
  simp only [internShaders, PerBackend.get_ofFn]
  cases p.device.get b with
  | none => exact ⟨h, List.prefix_rfl, rfl, fun index hindex => Or.inl hindex⟩
  | some d =>
    refine ⟨h.internAll d.shaders, ShaderStore.prefix_internAll _ _, ?_, ?_⟩
    · simp only [Option.map_some]
      rw [h.get?_internAll]
    · intro index hindex
      rcases ShaderStore.lt_size_internAll hindex with hlt | hmem
      · exact Or.inl hlt
      · exact Or.inr ⟨_, rfl, hmem⟩

/-- The pipeline that was put in has the shaders it was staged with. -/
theorem resolved?_withPipeline_self {c : Contents} (h : c.Sound) (key : PipelineKey)
    (p : ArchivedPipeline PatchedPipeline) :
    (c.withPipeline key p).resolved? key = some p.staged := by
  simp only [resolved?, withPipeline, Table.get?_insert, if_true, Option.map_some,
    Option.some.injEq, ArchivedPipeline.resolved, ArchivedPipeline.staged,
    ArchivedPipeline.mapDevice, ArchivedPipeline.mk.injEq]
  refine ⟨rfl, rfl, rfl, rfl, rfl, PerBackend.ext_get ?_⟩
  intro b
  simp only [PerBackend.get_ofFn]
  exact (internShaders_spec c.shaders p b (h.indexed b)).2.2.1

/-- The other pipelines keep their shaders, since no shader moves. -/
theorem resolved?_withPipeline_of_ne {c : Contents} (h : c.Sound) {key other : PipelineKey}
    (hne : other ≠ key) (p : ArchivedPipeline PatchedPipeline) :
    (c.withPipeline key p).resolved? other = c.resolved? other := by
  simp only [resolved?, withPipeline, Table.get?_insert, if_neg hne]
  cases hq : c.pipelines.get? other with
  | none => rfl
  | some q =>
    simp only [Option.map_some, Option.some.injEq, ArchivedPipeline.resolved,
      ArchivedPipeline.mapDevice, ArchivedPipeline.mk.injEq, true_and]
    apply PerBackend.ext_get
    intro b
    simp only [PerBackend.get_ofFn]
    cases hd : q.device.get b with
    | none => rfl
    | some d =>
      simp only [Option.map_some, Option.some.injEq, Prod.mk.injEq, and_true]
      apply List.map_congr_left
      intro index hindex
      -- interning only appends, so a position in range has the shader it had
      have hget := List.getElem?_eq_getElem (h.inRange other b index ⟨q, d, hq, hd, hindex⟩)
      have hprefix := (internShaders_spec c.shaders p b (h.indexed b)).2.1
      rw [ShaderStore.get?_of_prefix hprefix hget, ShaderStore.get?, hget]

theorem Sound.withPipeline {c : Contents} (h : c.Sound) (key : PipelineKey)
    (p : ArchivedPipeline PatchedPipeline) : (c.withPipeline key p).Sound where
  indexed b := (internShaders_spec c.shaders p b (h.indexed b)).1
  inRange other b index := by
    rintro ⟨q, d, hq, hd, hindex⟩
    obtain ⟨-, hprefix, hresolved, -⟩ := internShaders_spec c.shaders p b (h.indexed b)
    simp only [Contents.withPipeline, Table.get?_insert] at hq ⊢
    by_cases hkey : other = key
    · rw [if_pos hkey] at hq
      injection hq with hq
      subst hq
      simp only [hd, Option.map_some] at hresolved
      -- every position of the new pipeline resolves, so each lies in the store
      cases hp : p.device.get b with
      | none => simp [hp] at hresolved
      | some patched =>
        simp only [hp, Option.map_some, Option.some.injEq, Prod.mk.injEq] at hresolved
        have hmem := List.mem_map_of_mem
          (f := ((internShaders c.shaders p).2.get b).get?) hindex
        rw [hresolved.1] at hmem
        obtain ⟨shader, -, hshader⟩ := List.mem_map.1 hmem
        exact ShaderStore.lt_size_of_get? hshader.symm
    · rw [if_neg hkey] at hq
      have hlt := h.inRange other b index ⟨q, d, hq, hd, hindex⟩
      exact Nat.lt_of_lt_of_le hlt hprefix.length_le

/-- A pipeline of a new key uses the shaders that it adds. -/
theorem Consistent.withPipeline {c : Contents} (h : c.Consistent) {key : PipelineKey}
    (hnew : c.pipelines.get? key = none) (p : ArchivedPipeline PatchedPipeline) :
    (c.withPipeline key p).Consistent where
  toSound := h.toSound.withPipeline key p
  used b index hindex := by
    obtain ⟨-, -, -, hplaces⟩ := internShaders_spec c.shaders p b (h.indexed b)
    rcases hplaces index hindex with hlt | ⟨d, hd, hmem⟩
    -- an old shader is used by a pipeline that is still there, since the key is a new one
    · obtain ⟨other, q, d, hq, hd, hmem⟩ := h.used b index hlt
      have hne : other ≠ key := by
        rintro rfl
        rw [hnew] at hq
        cases hq
      refine ⟨other, q, d, ?_, hd, hmem⟩
      simp only [Contents.withPipeline, Table.get?_insert, if_neg hne]
      exact hq
    · refine ⟨key, _, d, ?_, hd, hmem⟩
      simp only [Contents.withPipeline, Table.get?_insert, if_true]

theorem Consistent.addPipeline {c : Contents} (h : c.Consistent) (key : PipelineKey)
    (p : ArchivedPipeline PatchedPipeline) : (c.addPipeline key p).Consistent := by
  rw [addPipeline_eq]
  split
  -- the pipeline that is replaced may leave shaders over, so they are not all used before release
  · exact consistent_releaseShaders (h.toSound.withPipeline key p)
  · rename_i hnew
    exact h.withPipeline (by simpa using hnew) p

theorem resolved?_addPipeline {c : Contents} (h : c.Sound) (key : PipelineKey)
    (p : ArchivedPipeline PatchedPipeline) (other : PipelineKey) :
    (c.addPipeline key p).resolved? other =
      if other = key then some p.staged else c.resolved? other := by
  have hwith : (c.withPipeline key p).resolved? other =
      if other = key then some p.staged else c.resolved? other := by
    split
    · rename_i heq
      rw [heq]
      exact resolved?_withPipeline_self h key p
    · rename_i hne
      exact resolved?_withPipeline_of_ne h hne p
  rw [addPipeline_eq]
  split
  · rw [resolved_releaseShaders (h.withPipeline key p), hwith]
  · exact hwith

/-! ## Commits -/

theorem addRenderPass_frame (c : Contents) (name : String) (desc : Bytes) :
    (c.addRenderPass name desc).shaders = c.shaders ∧
      (c.addRenderPass name desc).pipelines = c.pipelines := by
  unfold addRenderPass
  split <;> exact ⟨rfl, rfl⟩

theorem addSignatures_frame (c : Contents) (signatures : List (String × SignatureRecord)) :
    (c.addSignatures signatures).shaders = c.shaders ∧
      (c.addSignatures signatures).pipelines = c.pipelines := by
  induction signatures generalizing c with
  | nil => exact ⟨rfl, rfl⟩
  | cons signature rest ih => exact ih (c.addSignature signature.1 signature.2)

/-- A commit adds its pipeline to contents with the stores and pipelines of the old ones. -/
theorem commit_eq (c : Contents) (s : Staging) :
    ∃ c' : Contents, c'.shaders = c.shaders ∧ c'.pipelines = c.pipelines ∧
      c.commit s = match s.pipeline with
        | some (key, p) => c'.addPipeline key p
        | none => c' := by
  unfold commit
  obtain ⟨hs, hp⟩ := addSignatures_frame c s.signatures
  cases s.defaultSignature with
  | none =>
    cases s.renderPass with
    | none => exact ⟨_, hs, hp, rfl⟩
    | some renderPass =>
      obtain ⟨hs', hp'⟩ :=
        addRenderPass_frame (c.addSignatures s.signatures) renderPass.1 renderPass.2
      exact ⟨_, hs'.trans hs, hp'.trans hp, rfl⟩
  | some signature =>
    cases s.renderPass with
    | none => exact ⟨replaceSignature _ signature.1 signature.2, hs, hp, rfl⟩
    | some renderPass =>
      obtain ⟨hs', hp'⟩ := addRenderPass_frame
        ((c.addSignatures s.signatures).replaceSignature signature.1 signature.2)
        renderPass.1 renderPass.2
      exact ⟨_, hs'.trans hs, hp'.trans hp, rfl⟩

/-- A commit keeps contents consistent. -/
theorem Consistent.commit {c : Contents} (h : c.Consistent) (s : Staging) :
    (c.commit s).Consistent := by
  obtain ⟨c', hs, hp, heq⟩ := c.commit_eq s
  have h' := h.congr hs hp
  rw [heq]
  split
  · exact h'.addPipeline _ _
  · exact h'

/-- What a commit does to the pipeline of every key. -/
theorem resolved?_commit {c : Contents} (h : c.Consistent) (s : Staging) (key : PipelineKey) :
    (c.commit s).resolved? key =
      match s.pipeline with
      | some (added, p) => if key = added then some p.staged else c.resolved? key
      | none => c.resolved? key := by
  obtain ⟨c', hs, hp, heq⟩ := c.commit_eq s
  rw [heq]
  split
  · rw [resolved?_addPipeline (h.congr hs hp).toSound, resolved?_congr hs hp]
  · rw [resolved?_congr hs hp]

/-- The contents after some commits into a new archive. -/
def ofStagings (stagings : List Staging) : Contents := stagings.foldl commit empty

theorem consistent_ofStagings (stagings : List Staging) : (ofStagings stagings).Consistent := by
  -- the run starts anywhere, so that the induction goes through
  have hrun : ∀ c : Contents, c.Consistent → (stagings.foldl commit c).Consistent := by
    induction stagings with
    | nil => exact fun c h => h
    | cons s rest ih => exact fun c h => ih (c.commit s) (h.commit s)
  exact hrun empty consistent_empty

/-- After any commits every store has each shader once and finds it where it stands, every
reference of a pipeline leads to a shader, and every shader is referred to. One more commit puts
its pipeline in with exactly the shaders and headers it was staged with, and leaves every other
pipeline with exactly the shaders and headers it had. -/
theorem commits_resolve (stagings : List Staging) :
    let c := ofStagings stagings
    (∀ b, (c.shaders.get b).shaders.Nodup ∧
      ∀ shader index, (c.shaders.get b).position? shader = some index ↔
        (c.shaders.get b).shaders[index]? = some shader) ∧
    (∀ key b index, c.RefersTo key b index → index < (c.shaders.get b).shaders.length) ∧
    (∀ b index, index < (c.shaders.get b).shaders.length → ∃ key, c.RefersTo key b index) ∧
    ∀ s : Staging,
      (∀ key p, s.pipeline = some (key, p) → (c.commit s).resolved? key = some p.staged) ∧
      ∀ other, (∀ p, s.pipeline ≠ some (other, p)) →
        (c.commit s).resolved? other = c.resolved? other := by
  have h := consistent_ofStagings stagings
  refine ⟨fun b => ⟨(h.indexed b).nodup, h.indexed b⟩, h.inRange, h.used, fun s => ⟨?_, ?_⟩⟩
  · intro key p hpipeline
    rw [resolved?_commit h, hpipeline]
    exact if_pos rfl
  · intro other hother
    rw [resolved?_commit h]
    cases hpipeline : s.pipeline with
    | none => rfl
    | some added =>
      obtain ⟨key, p⟩ := added
      have hne : other ≠ key := fun heq => hother p (by rw [hpipeline, heq])
      exact if_neg hne

end Contents

end PipelineArchive
