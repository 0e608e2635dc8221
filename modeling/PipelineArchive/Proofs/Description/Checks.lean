import PipelineArchive.Description.Pipeline
import PipelineArchive.Proofs.Results

/-!
# Descriptions that pass their checks

What a check of a description asks for, said without the check: of a subpass (`Subpass.IsGrounded`),
a render pass (`RenderPass.IsGrounded`), the groups of a ray tracing pipeline
(`RayTracing.HasGroups`), the slots of a graphics pipeline (`GraphicsShaders.HasStages`) and a whole
pipeline (`Pipeline.IsWellFormed`). Each list of references is named there for itself, while the
checks go through all of them in one row. A description is refused exactly if it is not of this
form (`RenderPass.check_eq_ok_iff`, `RayTracing.checkGroups_eq_ok_iff`,
`Pipeline.check_eq_ok_iff_isWellFormed`), so that no reference of a pipeline that passes leads
nowhere.
-/

set_option autoImplicit false

namespace PipelineArchive

open Results

/-! ## Refusals -/

section

variable {ε α : Type} {c : Prop} [Decidable c] {e : ε}

/-- A computation that refuses a condition and goes on succeeds if the condition fails and what
follows succeeds. -/
theorem refuse_bind_eq_ok_iff {next : Unit → Except ε α} {result : α} :
    (if c then (do next (← throw e)) else next ()) = .ok result ↔ ¬c ∧ next () = .ok result := by
  by_cases hc : c
  · rw [if_pos hc]
    exact iff_of_false nofun fun h => h.1 hc
  · rw [if_neg hc]
    exact (and_iff_right hc).symm

/-- A check is passed before what follows it succeeds. -/
theorem check_bind_eq_ok_iff {check : Except ε Unit} {next : Unit → Except ε α} {result : α} :
    (check >>= next) = .ok result ↔ check = .ok () ∧ next () = .ok result :=
  bind_eq_ok_iff.trans ⟨fun ⟨_, hcheck, hnext⟩ => ⟨hcheck, hnext⟩, fun h => ⟨(), h⟩⟩

/-- A computation that does nothing but refuse a condition succeeds if the condition fails. -/
theorem refuse_eq_ok_iff : (if c then throw e else pure () : Except ε Unit) = .ok () ↔ ¬c := by
  by_cases hc : c
  · rw [if_pos hc]
    exact iff_of_false nofun fun h => h hc
  · rw [if_neg hc]
    exact iff_of_true rfl hc

end

/-! ## Render passes -/

/-- Every attachment that a subpass names is declared. -/
structure Subpass.IsGrounded (declared : Nat) (s : Subpass) : Prop where
  inputs : ∀ r ∈ s.inputs, r.index.toNat < declared
  renderTargets : ∀ r ∈ s.renderTargets, r.index.toNat < declared
  resolves : ∀ r ∈ s.resolves, r.index.toNat < declared
  depthStencil : ∀ r ∈ s.depthStencil, r.index.toNat < declared
  preserved : ∀ index ∈ s.preserved, index.toNat < declared

theorem Subpass.isGrounded_iff {declared : Nat} {s : Subpass} :
    s.IsGrounded declared ↔ ∀ index ∈ s.attachmentIndices, index.toNat < declared := by
  simp only [attachmentIndices, List.mem_append, List.mem_map, Option.mem_toList]
  constructor
  · rintro h index (⟨r, ((hr | hr) | hr) | hr, rfl⟩ | hindex)
    · exact h.inputs r hr
    · exact h.renderTargets r hr
    · exact h.resolves r hr
    · exact h.depthStencil r hr
    · exact h.preserved index hindex
  · intro h
    exact {
      inputs := fun r hr => h _ (.inl ⟨r, .inl (.inl (.inl hr)), rfl⟩)
      renderTargets := fun r hr => h _ (.inl ⟨r, .inl (.inl (.inr hr)), rfl⟩)
      resolves := fun r hr => h _ (.inl ⟨r, .inl (.inr hr), rfl⟩)
      depthStencil := fun r hr => h _ (.inl ⟨r, .inr hr, rfl⟩)
      preserved := fun index hindex => h index (.inr hindex) }

namespace RenderPass

/-- A subpass that a dependency may name: one of the pass, or the work outside of it. -/
def HasSubpass (pass : RenderPass) (index : UInt32) : Prop :=
  index = externalSubpass ∨ index.toNat < pass.subpasses.length

/-- The pass has a name, and its references lead to attachments and subpasses. -/
structure IsGrounded (pass : RenderPass) : Prop where
  name : pass.name ≠ ""
  subpasses : ∀ s ∈ pass.subpasses, s.IsGrounded pass.attachments.length
  dependencies : ∀ d ∈ pass.dependencies,
    pass.HasSubpass d.srcSubpass ∧ pass.HasSubpass d.dstSubpass

theorem knowsSubpass_iff {pass : RenderPass} {index : UInt32} :
    pass.knowsSubpass index = true ↔ pass.HasSubpass index := by
  simp only [knowsSubpass, Bool.or_eq_true, beq_iff_eq, decide_eq_true_eq, HasSubpass]

/-- No subpass names an undeclared attachment exactly if all of its indices are below the number of
those that are declared. -/
theorem danglingReference?_eq_none_iff {declared start : Nat} {subpasses : List Subpass} :
    danglingReference? declared start subpasses = none ↔
      ∀ subpass ∈ subpasses, subpass.IsGrounded declared := by
  induction subpasses generalizing start with
  | nil => simp [danglingReference?]
  | cons subpass rest ih =>
    rw [danglingReference?, List.forall_mem_cons, Subpass.isGrounded_iff]
    cases hfind : subpass.attachmentIndices.find? fun index => declared ≤ index.toNat with
    | some index =>
      apply iff_of_false nofun
      rintro ⟨hfirst, -⟩
      have hdangling : declared ≤ index.toNat := by simpa using List.find?_some hfind
      have hdeclared := hfirst index (List.mem_of_find?_eq_some hfind)
      omega
    | none =>
      have hfirst : ∀ index ∈ subpass.attachmentIndices, index.toNat < declared := by
        simpa using hfind
      exact ih.trans (and_iff_right hfirst).symm

theorem any_unknownSubpass_iff {pass : RenderPass} :
    (¬(pass.dependencies.any fun d =>
        !(pass.knowsSubpass d.srcSubpass && pass.knowsSubpass d.dstSubpass)) = true) ↔
      ∀ d ∈ pass.dependencies, pass.HasSubpass d.srcSubpass ∧ pass.HasSubpass d.dstSubpass := by
  simp only [List.any_eq_true, Bool.not_eq_true', not_exists, not_and, Bool.not_eq_false,
    Bool.and_eq_true, knowsSubpass_iff]

/-- A render pass is refused unless it has subpasses and all of its references lead somewhere. -/
theorem check_eq_ok_iff {pass : RenderPass} :
    pass.check = .ok () ↔ pass.subpasses ≠ [] ∧ pass.IsGrounded := by
  have hsubpasses : ¬pass.subpasses.isEmpty = true ↔ pass.subpasses ≠ [] := by
    rw [List.isEmpty_iff]
  -- the checks come one after another, and none of them may throw
  unfold check
  rw [refuse_bind_eq_ok_iff, refuse_bind_eq_ok_iff, String.isEmpty_iff, hsubpasses]
  dsimp only
  cases hdangling : danglingReference? pass.attachments.length 0 pass.subpasses with
  | some found =>
    refine iff_of_false (fun h => ?_) fun h => ?_
    · cases h.2.2
    · rw [danglingReference?_eq_none_iff.2 h.2.subpasses] at hdangling
      cases hdangling
  | none =>
    have hgrounded := danglingReference?_eq_none_iff.1 hdangling
    simp only [refuse_eq_ok_iff, any_unknownSubpass_iff]
    exact ⟨fun ⟨hname, hne, hdependencies⟩ => ⟨hne, hname, hgrounded, hdependencies⟩,
      fun ⟨hne, h⟩ => ⟨h.name, hne, h.dependencies⟩⟩

end RenderPass

/-! ## Shader groups -/

namespace RayTracing

/-- An index leads to a shader whose stage the role allows. -/
def HasShader (r : RayTracing) (roles : List ShaderStage) (index : UInt32) : Prop :=
  ∃ shader, r.shaders[index.toNat]? = some shader ∧ shader.stage ∈ roles

/-- Every group leads to shaders of the stages that its roles allow, and one group generates
rays. -/
structure HasGroups (r : RayTracing) : Prop where
  general : ∀ g ∈ r.general, r.HasShader [.rayGen, .rayMiss, .callable] g.shader
  closestHit : ∀ g ∈ r.triangleHit, r.HasShader [.rayClosestHit] g.closestHit
  anyHit : ∀ g ∈ r.triangleHit, ∀ index ∈ g.anyHit, r.HasShader [.rayAnyHit] index
  intersection : ∀ g ∈ r.proceduralHit, r.HasShader [.rayIntersection] g.intersection
  proceduralClosestHit : ∀ g ∈ r.proceduralHit, ∀ index ∈ g.closestHit,
    r.HasShader [.rayClosestHit] index
  proceduralAnyHit : ∀ g ∈ r.proceduralHit, ∀ index ∈ g.anyHit, r.HasShader [.rayAnyHit] index
  generates : ∃ g ∈ r.general, r.HasShader [.rayGen] g.shader

variable {r : RayTracing} {pipeline : String}

theorem checkRole_eq_ok_iff {group : String} {roles : List ShaderStage} {index : UInt32} :
    r.checkRole pipeline group roles index = .ok () ↔ r.HasShader roles index := by
  unfold checkRole HasShader
  cases r.shaders[index.toNat]? with
  | none => exact iff_of_false nofun nofun
  | some shader =>
    simp only [Option.some.injEq, exists_eq_left', List.contains_iff_mem]
    by_cases hrole : shader.stage ∈ roles
    · exact iff_of_true (if_pos hrole) hrole
    · rw [if_neg hrole]
      exact iff_of_false nofun hrole

/-- The references of a ray tracing pipeline are those of its groups, one after another. -/
theorem forall_references_iff {P : List ShaderStage → UInt32 → Prop} :
    (∀ reference ∈ r.references, P reference.2.1 reference.2.2) ↔
      (∀ g ∈ r.general, P [.rayGen, .rayMiss, .callable] g.shader) ∧
      (∀ g ∈ r.triangleHit, P [.rayClosestHit] g.closestHit ∧
        ∀ index ∈ g.anyHit, P [.rayAnyHit] index) ∧
      ∀ g ∈ r.proceduralHit, P [.rayIntersection] g.intersection ∧
        (∀ index ∈ g.closestHit, P [.rayClosestHit] index) ∧
        ∀ index ∈ g.anyHit, P [.rayAnyHit] index := by
  simp only [references, List.forall_mem_append, List.forall_mem_map, List.forall_mem_flatMap,
    List.forall_mem_cons, Option.mem_toList, Option.mem_def, List.cons_append, and_assoc]

theorem any_generates_iff :
    (r.general.any fun g =>
        (r.shaders[g.shader.toNat]?).any fun shader => shader.stage == .rayGen) = true ↔
      ∃ g ∈ r.general, r.HasShader [.rayGen] g.shader := by
  simp only [List.any_eq_true, Option.any_eq_true, beq_iff_eq, HasShader, List.mem_singleton]

/-- Groups are refused unless all of their references lead to shaders of the right stages, and one
of them generates rays. -/
theorem checkGroups_eq_ok_iff : r.checkGroups pipeline = .ok () ↔ r.HasGroups := by
  unfold checkGroups
  rw [check_bind_eq_ok_iff, forM_eq_ok_iff]
  simp only [checkRole_eq_ok_iff, refuse_eq_ok_iff, Bool.not_eq_true', Bool.not_eq_false,
    any_generates_iff, forall_references_iff]
  constructor
  · rintro ⟨⟨hgeneral, htriangle, hprocedural⟩, hgenerates⟩
    exact {
      general := hgeneral
      closestHit := fun g hg => (htriangle g hg).1
      anyHit := fun g hg => (htriangle g hg).2
      intersection := fun g hg => (hprocedural g hg).1
      proceduralClosestHit := fun g hg => (hprocedural g hg).2.1
      proceduralAnyHit := fun g hg => (hprocedural g hg).2.2
      generates := hgenerates }
  · intro h
    exact ⟨⟨h.general, fun g hg => ⟨h.closestHit g hg, h.anyHit g hg⟩,
      fun g hg => ⟨h.intersection g hg, h.proceduralClosestHit g hg, h.proceduralAnyHit g hg⟩⟩,
      h.generates⟩

end RayTracing

/-! ## Pipelines -/

/-- Every shader of a graphics pipeline stands in the slot of its stage, and there is one with
which a draw starts. -/
structure GraphicsShaders.HasStages (s : GraphicsShaders) : Prop where
  vertex : ∀ shader ∈ s.vertex, shader.stage = .vertex
  pixel : ∀ shader ∈ s.pixel, shader.stage = .pixel
  geometry : ∀ shader ∈ s.geometry, shader.stage = .geometry
  hull : ∀ shader ∈ s.hull, shader.stage = .hull
  domain : ∀ shader ∈ s.domain, shader.stage = .domain
  amplification : ∀ shader ∈ s.amplification, shader.stage = .amplification
  mesh : ∀ shader ∈ s.mesh, shader.stage = .mesh
  starts : s.vertex ≠ none ∨ s.mesh ≠ none

/-- What a pipeline of each kind asks of its shaders and references. -/
def PipelineKind.IsWellFormed : PipelineKind → Prop
  | .graphics state pass? shaders => shaders.HasStages ∧
      ∀ pass ∈ pass?, pass.IsGrounded ∧ state.subpassIndex.toNat < pass.subpasses.length
  | .compute shader => shader.stage = .compute
  | .rayTracing r => (∀ shader ∈ r.shaders, shader.stage.isRayTracing) ∧ r.HasGroups
  | .tile shader _ _ => shader.stage = .tile

/-- A pipeline that has its names, loaded shaders with entry points, and references of its kind
that lead somewhere. -/
structure Pipeline.IsWellFormed (p : Pipeline) : Prop where
  name : p.name ≠ ""
  kind : p.kind.IsWellFormed
  loaded : ∀ shader ∈ p.shaders, shader.source.isFile = false
  entryPoints : ∀ shader ∈ p.shaders, shader.entryPoint ≠ ""
  signatures : ∀ signature ∈ p.common.signatures, signature.name ≠ ""

theorem GraphicsShaders.forall_filled_iff {s : GraphicsShaders} {P : ShaderStage × Shader → Prop} :
    (∀ slot ∈ s.filled, P slot) ↔
      ∀ slot ∈ s.slots, ∀ shader ∈ slot.2, P (slot.1, shader) := by
  simp only [filled, List.mem_filterMap, Option.map_eq_some_iff]
  constructor
  · intro h slot hslot shader hshader
    exact h _ ⟨slot, hslot, shader, hshader, rfl⟩
  · rintro h _ ⟨slot, hslot, shader, hshader, rfl⟩
    exact h slot hslot shader hshader

namespace Pipeline

variable {pipeline : String}

theorem checkStage_eq_ok_iff {slot : ShaderStage} {shader : Shader} :
    checkStage pipeline slot shader = .ok () ↔ shader.stage = slot := by
  unfold checkStage
  by_cases hstage : shader.stage = slot
  · exact iff_of_true (if_pos hstage) hstage
  · rw [if_neg hstage]
    exact iff_of_false nofun hstage

theorem checkShader_eq_ok_iff {shader : Shader} :
    checkShader pipeline shader = .ok () ↔
      shader.source.isFile = false ∧ shader.entryPoint ≠ "" := by
  unfold checkShader
  rw [refuse_bind_eq_ok_iff, refuse_eq_ok_iff, String.isEmpty_iff, Bool.not_eq_true]

theorem hasStages_iff {s : GraphicsShaders} :
    s.HasStages ↔ (∀ slot ∈ s.filled, slot.2.stage = slot.1) ∧
      ¬(s.vertex.isNone && s.mesh.isNone) = true := by
  have hstarts : ¬(s.vertex.isNone && s.mesh.isNone) = true ↔ s.vertex ≠ none ∨ s.mesh ≠ none := by
    rw [Bool.and_eq_true, Option.isNone_iff_eq_none, Option.isNone_iff_eq_none, not_and_or]
  rw [hstarts, GraphicsShaders.forall_filled_iff]
  simp only [GraphicsShaders.slots, List.forall_mem_cons, List.not_mem_nil, false_implies,
    implies_true, and_true]
  constructor
  · intro h
    exact ⟨⟨h.vertex, h.pixel, h.geometry, h.hull, h.domain, h.amplification, h.mesh⟩, h.starts⟩
  · rintro ⟨⟨hvertex, hpixel, hgeometry, hhull, hdomain, hamplification, hmesh⟩, hstarts⟩
    exact ⟨hvertex, hpixel, hgeometry, hhull, hdomain, hamplification, hmesh, hstarts⟩

/-- Graphics pipelines are refused unless their shaders stand in their slots and their subpass is
one of a pass that is not refused. -/
theorem checkKind_graphics_eq_ok_iff {state : GraphicsState} {pass? : Option RenderPass}
    {shaders : GraphicsShaders} :
    checkKind pipeline (.graphics state pass? shaders) = .ok () ↔ shaders.HasStages ∧
      ∀ pass ∈ pass?, pass.check = .ok () ∧ state.subpassIndex.toNat < pass.subpasses.length := by
  simp only [checkKind]
  rw [check_bind_eq_ok_iff, forM_eq_ok_iff, refuse_bind_eq_ok_iff, hasStages_iff, and_assoc]
  simp only [checkStage_eq_ok_iff]
  refine and_congr_right fun _ => and_congr_right fun _ => ?_
  cases pass? with
  | none => exact iff_of_true rfl nofun
  | some pass =>
    simp only [check_bind_eq_ok_iff, mapError_eq_ok_iff, refuse_eq_ok_iff, Nat.not_le,
      Option.mem_some, forall_eq']

theorem checkKind_eq_ok_iff {kind : PipelineKind} :
    checkKind pipeline kind = .ok () ↔ kind.IsWellFormed := by
  cases kind with
  | graphics state pass? shaders =>
    rw [checkKind_graphics_eq_ok_iff]
    refine and_congr_right fun _ => forall₂_congr fun pass _ => ?_
    rw [RenderPass.check_eq_ok_iff]
    constructor
    · rintro ⟨⟨-, hgrounded⟩, hindex⟩
      exact ⟨hgrounded, hindex⟩
    · rintro ⟨hgrounded, hindex⟩
      -- the subpass that the pipeline runs in is one
      refine ⟨⟨fun hnone => ?_, hgrounded⟩, hindex⟩
      rw [hnone] at hindex
      exact Nat.not_lt_zero _ hindex
  | compute shader => exact checkStage_eq_ok_iff
  | tile shader formats samples => exact checkStage_eq_ok_iff
  | rayTracing r =>
    simp only [checkKind, PipelineKind.IsWellFormed]
    cases hforeign : r.shaders.find? fun shader => !shader.stage.isRayTracing with
    | some shader =>
      refine iff_of_false (fun h => ?_) fun h => ?_
      · cases h
      · have hstage := List.find?_some hforeign
        rw [h.1 shader (List.mem_of_find?_eq_some hforeign)] at hstage
        cases hstage
    | none =>
      have hstages : ∀ shader ∈ r.shaders, shader.stage.isRayTracing = true := by
        simpa using hforeign
      exact RayTracing.checkGroups_eq_ok_iff.trans (and_iff_right hstages).symm

/-- The checks of a pipeline, one after another. -/
theorem check_steps_iff {p : Pipeline} :
    p.check = .ok () ↔ p.name ≠ "" ∧ checkKind p.name p.kind = .ok () ∧
      (∀ shader ∈ p.shaders, checkShader p.name shader = .ok ()) ∧
      ∀ signature ∈ p.common.signatures, signature.name ≠ "" := by
  unfold check
  rw [refuse_bind_eq_ok_iff, check_bind_eq_ok_iff, check_bind_eq_ok_iff, forM_eq_ok_iff,
    String.isEmpty_iff]
  refine and_congr_right fun _ => and_congr_right fun _ => and_congr_right fun _ => ?_
  cases hnameless : p.common.signatures.findIdx? fun s => s.name.isEmpty with
  | some index =>
    obtain ⟨hindex, hempty, -⟩ := List.findIdx?_eq_some_iff_getElem.1 hnameless
    refine iff_of_false (fun h => ?_) fun h => ?_
    · cases h
    · exact h _ (List.getElem_mem hindex) (String.isEmpty_iff.1 hempty)
  | none =>
    refine iff_of_true rfl fun signature hsignature hname => ?_
    have hnamed := List.findIdx?_eq_none_iff.1 hnameless signature hsignature
    rw [String.isEmpty_iff.2 hname] at hnamed
    cases hnamed

/-- A description is refused exactly if it is not well formed. -/
theorem check_eq_ok_iff_isWellFormed (p : Pipeline) : p.check = .ok () ↔ p.IsWellFormed := by
  rw [check_steps_iff, checkKind_eq_ok_iff]
  simp only [checkShader_eq_ok_iff]
  constructor
  · rintro ⟨hname, hkind, hshaders, hsignatures⟩
    exact ⟨hname, hkind, fun s hs => (hshaders s hs).1, fun s hs => (hshaders s hs).2, hsignatures⟩
  · intro h
    exact ⟨h.name, h.kind, fun s hs => ⟨h.loaded s hs, h.entryPoints s hs⟩, h.signatures⟩

end Pipeline

end PipelineArchive
