import PipelineArchive.Archiver
import PipelineArchive.Proofs.Description.Checks
import PipelineArchive.Proofs.Encoding.Descriptions
import PipelineArchive.Proofs.Results

/-!
# Sources of pipelines

What the caller gave for a pipeline is told by its source, up to the names of its shaders, which
are for messages alone (`source_eq_iff`). The encoding of a shader does not say whether its source
is a text or the path of one, so this is asked of pipelines that were checked, whose shaders are
all loaded. Nor does the source of a graphics pipeline say in which slot a shader stands, but the
stage of a checked shader does (`filled_eq_map`). The checks by name, which compare bytes, are
therefore exact (`content_checks_exact`).
-/

set_option autoImplicit false

namespace PipelineArchive

open Results

/-! ## Shaders -/

theorem InputLanguage.tag_injective {l m : InputLanguage} (h : l.tag = m.tag) : l = m := by
  cases l <;> cases m <;> first | rfl | cases h

namespace ShaderSource

instance : Bounded ShaderSource where
  isBounded
    | hlsl text | glsl text | glslVerbatim text => isBounded text
    | spirv words => isBounded words
    | file _ path => isBounded path

/-- Sources that are loaded are told apart by their encodings. -/
theorem append_inj {a b : ShaderSource} {r s : Bytes} (ha : isBounded a) (hb : isBounded b)
    (haFile : a.isFile = false) (hbFile : b.isFile = false)
    (h : encode a ++ r = encode b ++ s) : a = b ∧ r = s := by
  change (Bytes.ofU32 a.language.tag ++ _) ++ r = (Bytes.ofU32 b.language.tag ++ _) ++ s at h
  rw [List.append_assoc, List.append_assoc] at h
  obtain ⟨htag, h⟩ := Bytes.ofU32_append_inj h
  have hlanguage : a.language = b.language := InputLanguage.tag_injective htag
  cases a with
  | hlsl text =>
    cases b <;> cases hlanguage <;> try cases hbFile
    obtain ⟨rfl, hrest⟩ := SelfDelimiting.split (α := String) ha hb h
    exact ⟨rfl, hrest⟩
  | glsl text =>
    cases b <;> cases hlanguage <;> try cases hbFile
    obtain ⟨rfl, hrest⟩ := SelfDelimiting.split (α := String) ha hb h
    exact ⟨rfl, hrest⟩
  | glslVerbatim text =>
    cases b <;> cases hlanguage <;> try cases hbFile
    obtain ⟨rfl, hrest⟩ := SelfDelimiting.split (α := String) ha hb h
    exact ⟨rfl, hrest⟩
  | spirv words =>
    cases b <;> cases hlanguage <;> try cases hbFile
    obtain ⟨rfl, hrest⟩ := SelfDelimiting.split (α := List UInt32) ha hb h
    exact ⟨rfl, hrest⟩
  | file language path => cases haFile

end ShaderSource

namespace Shader

/-- A shader without its debug name. -/
def anonymous (s : Shader) : Shader := { s with name := "" }

/-- The name of a shader is not encoded, and may be of any length. -/
instance : Bounded Shader :=
  ⟨fun s => isBounded s.entryPoint && isBounded s.source && isBounded s.macros⟩

theorem isBounded_iff {s : Shader} :
    isBounded s ↔ (isBounded s.entryPoint ∧ isBounded s.source) ∧ isBounded s.macros := by
  change (_ && _ && _) = true ↔ _
  rw [Bool.and_eq_true, Bool.and_eq_true]

theorem encode_anonymous (s : Shader) : encode s.anonymous = encode s := rfl

/-- A loaded shader is told by its encoding up to its name. -/
theorem append_inj {a b : Shader} {r s : Bytes}
    (ha : isBounded a ∧ a.source.isFile = false) (hb : isBounded b ∧ b.source.isFile = false)
    (h : encode a ++ r = encode b ++ s) : a.anonymous = b.anonymous ∧ r = s := by
  obtain ⟨ha, haFile⟩ := ha
  obtain ⟨hb, hbFile⟩ := hb
  obtain ⟨⟨haEntry, haSource⟩, haMacros⟩ := isBounded_iff.1 ha
  obtain ⟨⟨hbEntry, hbSource⟩, hbMacros⟩ := isBounded_iff.1 hb
  change (encode a.stage ++ encode a.entryPoint ++ encode a.source ++ encode a.macros) ++ r =
    (encode b.stage ++ encode b.entryPoint ++ encode b.source ++ encode b.macros) ++ s at h
  simp only [List.append_assoc] at h
  obtain ⟨hstage, h⟩ := SelfDelimiting.split rfl rfl h
  obtain ⟨hentry, h⟩ := SelfDelimiting.split haEntry hbEntry h
  obtain ⟨hsource, h⟩ := ShaderSource.append_inj haSource hbSource haFile hbFile h
  obtain ⟨hmacros, hrest⟩ := SelfDelimiting.split haMacros hbMacros h
  refine ⟨?_, hrest⟩
  rw [anonymous, anonymous, hstage, hentry, hsource, hmacros]

end Shader

/-! ## The slots of graphics pipelines -/

namespace GraphicsShaders

theorem mem_filled {s : GraphicsShaders} {stage : ShaderStage} {shader : Shader} :
    (stage, shader) ∈ s.filled ↔ (stage, some shader) ∈ s.slots := by
  simp only [filled, List.mem_filterMap, Prod.exists, Option.map_eq_some_iff, Prod.mk.injEq]
  constructor
  · rintro ⟨_, _, hslot, _, rfl, rfl, rfl⟩
    exact hslot
  · intro hslot
    exact ⟨stage, some shader, hslot, shader, rfl, rfl, rfl⟩

/-- The shaders in the slots are known from the filled ones. -/
theorem eq_of_filled_eq {s t : GraphicsShaders} (h : s.filled = t.filled) : s = t := by
  have hslot (stage : ShaderStage) (shader : Shader) :
      (stage, some shader) ∈ s.slots ↔ (stage, some shader) ∈ t.slots := by
    rw [← mem_filled, ← mem_filled, h]
  have hvertex : s.vertex = t.vertex :=
    Option.ext fun x => by simpa [slots, eq_comm] using hslot .vertex x
  have hpixel : s.pixel = t.pixel :=
    Option.ext fun x => by simpa [slots, eq_comm] using hslot .pixel x
  have hgeometry : s.geometry = t.geometry :=
    Option.ext fun x => by simpa [slots, eq_comm] using hslot .geometry x
  have hhull : s.hull = t.hull :=
    Option.ext fun x => by simpa [slots, eq_comm] using hslot .hull x
  have hdomain : s.domain = t.domain :=
    Option.ext fun x => by simpa [slots, eq_comm] using hslot .domain x
  have hamplification : s.amplification = t.amplification :=
    Option.ext fun x => by simpa [slots, eq_comm] using hslot .amplification x
  have hmesh : s.mesh = t.mesh :=
    Option.ext fun x => by simpa [slots, eq_comm] using hslot .mesh x
  cases s
  cases t
  cases hvertex
  cases hpixel
  cases hgeometry
  cases hhull
  cases hdomain
  cases hamplification
  cases hmesh
  rfl

/-- The shaders without their debug names. -/
def anonymous (s : GraphicsShaders) : GraphicsShaders :=
  Id.run (s.mapShaders fun shader => pure shader.anonymous)

/-- The same slots are filled. -/
theorem filled_anonymous (s : GraphicsShaders) :
    s.anonymous.filled = s.filled.map fun slot => (slot.1, slot.2.anonymous) := by
  have hmap (x : Option Shader) :
      Id.run (x.mapM fun shader => pure shader.anonymous) = x.map Shader.anonymous := by
    cases x <;> rfl
  have hslots :
      s.anonymous.slots = s.slots.map fun slot => (slot.1, slot.2.map Shader.anonymous) := by
    simp [anonymous, mapShaders, slots, hmap]
  rw [filled, hslots, filled, List.filterMap_map, List.map_filterMap]
  refine List.filterMap_congr fun slot _ => ?_
  obtain ⟨stage, x⟩ := slot
  cases x <;> rfl

end GraphicsShaders

/-! ## Pipelines -/

/-- A kind of pipeline without the debug names of its shaders. -/
def PipelineKind.anonymous (k : PipelineKind) : PipelineKind :=
  Id.run (k.mapShaders fun shader => pure shader.anonymous)

theorem PipelineKind.anonymous_graphics (state : GraphicsState) (pass : Option RenderPass)
    (shaders : GraphicsShaders) :
    (graphics state pass shaders).anonymous = graphics state pass shaders.anonymous := rfl

theorem PipelineKind.anonymous_compute (shader : Shader) :
    (compute shader).anonymous = compute shader.anonymous := rfl

theorem PipelineKind.anonymous_rayTracing (r : RayTracing) :
    (rayTracing r).anonymous =
      rayTracing { r with shaders := r.shaders.map Shader.anonymous } := by
  simp [anonymous, mapShaders]

theorem PipelineKind.anonymous_tile (shader : Shader) (formats : List TextureFormat)
    (samples : UInt8) :
    (tile shader formats samples).anonymous = tile shader.anonymous formats samples := rfl

/-- The fields of a ray tracing pipeline that are encoded, its shaders apart. -/
def RayTracing.fields (r : RayTracing) : List GeneralGroup × List TriangleHitGroup ×
    List ProceduralHitGroup × UInt8 × UInt32 :=
  (r.general, r.triangleHit, r.proceduralHit, r.recursionDepth, r.recordSize.toUInt32)

theorem RayTracing.eq_of_fields_eq {r s : RayTracing} (h : r.fields = s.fields)
    (hshaders : r.shaders.map Shader.anonymous = s.shaders.map Shader.anonymous) :
    { r with shaders := r.shaders.map Shader.anonymous } =
      { s with shaders := s.shaders.map Shader.anonymous } := by
  obtain ⟨_, _, _, _, _, size⟩ := r
  obtain ⟨_, _, _, _, _, size'⟩ := s
  simp only [fields, Prod.mk.injEq, UInt16.toUInt32_inj] at h
  obtain ⟨rfl, rfl, rfl, rfl, rfl⟩ := h
  rw [hshaders]

/-- The kind of a pipeline is bounded with what it has apart from its shaders. -/
instance : Bounded PipelineKind where
  isBounded
    | .graphics state pass _ => isBounded state && isBounded pass
    | .compute _ => true
    | .rayTracing r => isBounded r.fields
    | .tile _ formats _ => isBounded formats

theorem PipelineKind.isBounded_graphics {state : GraphicsState} {pass : Option RenderPass}
    {shaders : GraphicsShaders} :
    isBounded (PipelineKind.graphics state pass shaders) ↔ isBounded state ∧ isBounded pass :=
  Bool.and_eq_true_iff

namespace Pipeline

/-- A pipeline without the debug names of its shaders. -/
def anonymous (p : Pipeline) : Pipeline := { p with kind := p.kind.anonymous }

instance : Bounded Pipeline where
  isBounded p := isBounded p.name && isBounded p.common.layout && isBounded p.common.signatures
    && isBounded p.kind && isBounded p.shaders

variable {p q : Pipeline}

theorem isBounded_iff : isBounded p ↔ (((isBounded p.name ∧ isBounded p.common.layout) ∧
    isBounded p.common.signatures) ∧ isBounded p.kind) ∧ isBounded p.shaders := by
  change (_ && _ && _ && _ && _) = true ↔ _
  simp only [Bool.and_eq_true]

/-- The shaders of a checked pipeline are loaded, and each stands in the slot of its stage. -/
theorem check_spec (h : p.check = .ok ()) :
    (∀ shader ∈ p.shaders, shader.source.isFile = false) ∧
      ∀ state pass shaders, p.kind = .graphics state pass shaders →
        ∀ slot ∈ shaders.filled, slot.2.stage = slot.1 := by
  obtain ⟨-, hkind, hshaders, -⟩ := check_steps_iff.1 h
  constructor
  · intro shader hshader
    exact (checkShader_eq_ok_iff.1 (hshaders shader hshader)).1
  · intro state pass shaders hgraphics
    rw [hgraphics, checkKind_graphics_eq_ok_iff] at hkind
    exact (hasStages_iff.1 hkind.1).1

/-- What follows the kind in the source of a pipeline. -/
def encodeRest (p : Pipeline) : Bytes :=
  Encode.list p.shaders ++ (encode p.common.signatures ++ encode p.renderPass?)

/-- A pipeline has the encoding of its parts one after another. -/
theorem source_eq (p : Pipeline) :
    p.source = encode p.chunk ++ (encode p.name ++ (encode p.common.layout ++
      (encodeKind p.kind ++ p.encodeRest))) := by
  simp only [encodeRest, ← List.append_assoc]
  rfl

theorem encodeKind_rayTracing (r : RayTracing) : encodeKind (.rayTracing r) = encode r.fields := by
  simp only [RayTracing.fields, encode_mk, ← List.append_assoc]
  rfl

/-- The shaders of a checked graphics pipeline tell their slots. -/
theorem filled_eq_map {state : GraphicsState} {pass : Option RenderPass}
    {shaders : GraphicsShaders} (hcheck : p.check = .ok ())
    (hkind : p.kind = .graphics state pass shaders) :
    shaders.anonymous.filled =
      (p.shaders.map Shader.anonymous).map fun shader => (shader.stage, shader) := by
  have hshaders : p.shaders = shaders.filled.map (·.2) := by rw [Pipeline.shaders, hkind]
  rw [GraphicsShaders.filled_anonymous, hshaders, List.map_map, List.map_map]
  refine List.map_congr_left fun slot hslot => ?_
  have hstage := (check_spec hcheck).2 state pass shaders hkind slot hslot
  exact Prod.ext hstage.symm rfl

theorem isBounded_renderPass? (h : isBounded p.kind) : isBounded p.renderPass? := by
  unfold renderPass?
  split
  · rename_i hkind
    rw [hkind, PipelineKind.isBounded_graphics] at h
    exact h.2
  · rfl

section

variable (hp : p.check = .ok ()) (hq : q.check = .ok ()) (hpBounded : isBounded p)
  (hqBounded : isBounded q)

include hp hq hpBounded hqBounded

/-- What follows the kind of a pipeline is told up to the names of the shaders. -/
theorem append_inj_rest
    (h : p.encodeRest = q.encodeRest) :
    p.shaders.map Shader.anonymous = q.shaders.map Shader.anonymous ∧
      p.common.signatures = q.common.signatures ∧ p.renderPass? = q.renderPass? := by
  obtain ⟨⟨⟨-, hpSignatures⟩, hpKind⟩, hpShaders⟩ := isBounded_iff.1 hpBounded
  obtain ⟨⟨⟨-, hqSignatures⟩, hqKind⟩, hqShaders⟩ := isBounded_iff.1 hqBounded
  obtain ⟨hpLength, hpShaders⟩ := isBounded_list.1 hpShaders
  obtain ⟨hqLength, hqShaders⟩ := isBounded_list.1 hqShaders
  obtain ⟨hshaders, h⟩ := Encode.list_append_inj Shader.append_inj
    (fun s hs => ⟨hpShaders s hs, (check_spec hp).1 s hs⟩)
    (fun s hs => ⟨hqShaders s hs, (check_spec hq).1 s hs⟩) hpLength hqLength h
  obtain ⟨hsignatures, h⟩ := SelfDelimiting.split hpSignatures hqSignatures h
  exact ⟨hshaders, hsignatures, SelfDelimiting.encode_inj (isBounded_renderPass? hpKind)
    (isBounded_renderPass? hqKind) h⟩

theorem append_inj_graphics {state state' : GraphicsState} {pass pass' : Option RenderPass}
    {stages stages' : GraphicsShaders} (hpKind : p.kind = .graphics state pass stages)
    (hqKind : q.kind = .graphics state' pass' stages')
    (h : encodeKind p.kind ++ p.encodeRest = encodeKind q.kind ++ q.encodeRest) :
    p.kind.anonymous = q.kind.anonymous ∧ p.common.signatures = q.common.signatures := by
  obtain ⟨⟨-, hpFields⟩, -⟩ := isBounded_iff.1 hpBounded
  obtain ⟨⟨-, hqFields⟩, -⟩ := isBounded_iff.1 hqBounded
  rw [hpKind, PipelineKind.isBounded_graphics] at hpFields
  rw [hqKind, PipelineKind.isBounded_graphics] at hqFields
  rw [hpKind, hqKind] at h ⊢
  simp only [encodeKind, List.append_assoc] at h
  obtain ⟨hstate, h⟩ := SelfDelimiting.split hpFields.1 hqFields.1 h
  obtain ⟨-, h⟩ := SelfDelimiting.split (α := StageSet) rfl rfl h
  obtain ⟨hshaders, hsignatures, hpass⟩ := append_inj_rest hp hq hpBounded hqBounded h
  have hslots : stages.anonymous = stages'.anonymous := by
    apply GraphicsShaders.eq_of_filled_eq
    rw [filled_eq_map hp hpKind, filled_eq_map hq hqKind, hshaders]
  rw [renderPass?, renderPass?, hpKind, hqKind] at hpass
  rw [PipelineKind.anonymous_graphics, PipelineKind.anonymous_graphics, hslots, hstate]
  exact ⟨congrArg (PipelineKind.graphics state' · _) hpass, hsignatures⟩

theorem append_inj_rayTracing {r r' : RayTracing} (hpKind : p.kind = .rayTracing r)
    (hqKind : q.kind = .rayTracing r')
    (h : encodeKind p.kind ++ p.encodeRest = encodeKind q.kind ++ q.encodeRest) :
    p.kind.anonymous = q.kind.anonymous ∧ p.common.signatures = q.common.signatures := by
  obtain ⟨⟨-, hpFields⟩, -⟩ := isBounded_iff.1 hpBounded
  obtain ⟨⟨-, hqFields⟩, -⟩ := isBounded_iff.1 hqBounded
  rw [hpKind] at hpFields
  rw [hqKind] at hqFields
  rw [hpKind, hqKind] at h ⊢
  rw [encodeKind_rayTracing, encodeKind_rayTracing] at h
  obtain ⟨hfields, h⟩ := SelfDelimiting.split (α := List GeneralGroup × _) hpFields hqFields h
  obtain ⟨hshaders, hsignatures, -⟩ := append_inj_rest hp hq hpBounded hqBounded h
  rw [shaders, shaders, hpKind, hqKind] at hshaders
  rw [PipelineKind.anonymous_rayTracing, PipelineKind.anonymous_rayTracing,
    RayTracing.eq_of_fields_eq hfields hshaders]
  exact ⟨rfl, hsignatures⟩

theorem append_inj_tile {shader shader' : Shader} {formats formats' : List TextureFormat}
    {samples samples' : UInt8} (hpKind : p.kind = .tile shader formats samples)
    (hqKind : q.kind = .tile shader' formats' samples')
    (h : encodeKind p.kind ++ p.encodeRest = encodeKind q.kind ++ q.encodeRest) :
    p.kind.anonymous = q.kind.anonymous ∧ p.common.signatures = q.common.signatures := by
  obtain ⟨⟨-, hpFields⟩, -⟩ := isBounded_iff.1 hpBounded
  obtain ⟨⟨-, hqFields⟩, -⟩ := isBounded_iff.1 hqBounded
  rw [hpKind] at hpFields
  rw [hqKind] at hqFields
  rw [hpKind, hqKind] at h ⊢
  simp only [encodeKind, List.append_assoc] at h
  obtain ⟨hformats, h⟩ := SelfDelimiting.split (α := List TextureFormat) hpFields hqFields h
  obtain ⟨hsamples, h⟩ := SelfDelimiting.split (α := UInt8) rfl rfl h
  obtain ⟨hshaders, hsignatures, -⟩ := append_inj_rest hp hq hpBounded hqBounded h
  rw [shaders, shaders, hpKind, hqKind] at hshaders
  rw [PipelineKind.anonymous_tile, PipelineKind.anonymous_tile, hformats, hsamples,
    (List.cons_eq_cons.1 hshaders).1]
  exact ⟨rfl, hsignatures⟩

/-- Pipelines in one chunk are told apart by what they have of their kind and by their shaders. -/
theorem append_inj_kind (hchunk : p.chunk = q.chunk)
    (h : encodeKind p.kind ++ p.encodeRest = encodeKind q.kind ++ q.encodeRest) :
    p.kind.anonymous = q.kind.anonymous ∧ p.common.signatures = q.common.signatures := by
  cases hpKind : p.kind with
  | graphics =>
    cases hqKind : q.kind with
    | graphics =>
      rw [← hpKind, ← hqKind]
      exact append_inj_graphics hp hq hpBounded hqBounded hpKind hqKind h
    | _ => simp [chunk, hpKind, hqKind] at hchunk
  | compute shader =>
    cases hqKind : q.kind with
    | compute shader' =>
      rw [hpKind, hqKind] at h
      obtain ⟨hshaders, hsignatures, -⟩ := append_inj_rest hp hq hpBounded hqBounded h
      rw [shaders, shaders, hpKind, hqKind] at hshaders
      rw [PipelineKind.anonymous_compute, PipelineKind.anonymous_compute,
        (List.cons_eq_cons.1 hshaders).1]
      exact ⟨rfl, hsignatures⟩
    | _ => simp [chunk, hpKind, hqKind] at hchunk
  | rayTracing =>
    cases hqKind : q.kind with
    | rayTracing =>
      rw [← hpKind, ← hqKind]
      exact append_inj_rayTracing hp hq hpBounded hqBounded hpKind hqKind h
    | _ => simp [chunk, hpKind, hqKind] at hchunk
  | tile =>
    cases hqKind : q.kind with
    | tile =>
      rw [← hpKind, ← hqKind]
      exact append_inj_tile hp hq hpBounded hqBounded hpKind hqKind h
    | _ => simp [chunk, hpKind, hqKind] at hchunk

end

theorem chunk_anonymous (p : Pipeline) : p.anonymous.chunk = p.chunk := by
  unfold chunk anonymous
  cases p.kind <;> rfl

theorem renderPass?_anonymous (p : Pipeline) : p.anonymous.renderPass? = p.renderPass? := by
  unfold renderPass? anonymous
  cases p.kind <;> rfl

theorem shaders_anonymous (p : Pipeline) :
    p.anonymous.shaders = p.shaders.map Shader.anonymous := by
  unfold shaders anonymous
  cases p.kind with
  | graphics state pass shaders =>
    simp [PipelineKind.anonymous_graphics, GraphicsShaders.filled_anonymous]
  | compute shader => rfl
  | rayTracing r => simp [PipelineKind.anonymous_rayTracing]
  | tile shader formats samples => rfl

theorem encodeKind_anonymous (k : PipelineKind) : encodeKind k.anonymous = encodeKind k := by
  cases k with
  | graphics state pass shaders =>
    simp [PipelineKind.anonymous_graphics, encodeKind, GraphicsShaders.filled_anonymous,
      Function.comp_def]
  | compute shader => rfl
  | rayTracing r =>
    rw [PipelineKind.anonymous_rayTracing]
    rfl
  | tile shader formats samples => rfl

/-- The debug names of the shaders are not part of the source. -/
theorem source_anonymous (p : Pipeline) : p.anonymous.source = p.source := by
  have hshaders : Encode.list (p.shaders.map Shader.anonymous) = Encode.list p.shaders := by
    simp [Encode.list, List.flatMap_map, Shader.encode_anonymous]
  have hrest : p.anonymous.encodeRest = p.encodeRest := by
    rw [encodeRest, encodeRest, renderPass?_anonymous, shaders_anonymous, hshaders]
    rfl
  rw [source_eq, source_eq, chunk_anonymous, hrest]
  exact congrArg (fun kind => encode p.chunk ++ (encode p.name ++ (encode p.common.layout ++
    (kind ++ p.encodeRest)))) (encodeKind_anonymous p.kind)

/-- Checked pipelines have one source exactly if they differ in debug names of shaders alone. -/
theorem source_eq_iff (hp : p.check = .ok ()) (hq : q.check = .ok ()) (hpBounded : isBounded p)
    (hqBounded : isBounded q) : p.source = q.source ↔ p.anonymous = q.anonymous := by
  constructor
  · intro h
    rw [source_eq, source_eq] at h
    obtain ⟨⟨⟨⟨hpName, hpLayout⟩, -⟩, -⟩, -⟩ := isBounded_iff.1 hpBounded
    obtain ⟨⟨⟨⟨hqName, hqLayout⟩, -⟩, -⟩, -⟩ := isBounded_iff.1 hqBounded
    obtain ⟨hchunk, h⟩ := SelfDelimiting.split (α := ChunkKind) rfl rfl h
    obtain ⟨hname, h⟩ := SelfDelimiting.split hpName hqName h
    obtain ⟨hlayout, h⟩ := SelfDelimiting.split hpLayout hqLayout h
    obtain ⟨hkind, hsignatures⟩ := append_inj_kind hp hq hpBounded hqBounded hchunk h
    obtain ⟨⟨name, layout, signatures⟩, kind⟩ := p
    obtain ⟨⟨name', layout', signatures'⟩, kind'⟩ := q
    cases hname
    cases hlayout
    cases hsignatures
    exact congrArg (Pipeline.mk _) hkind
  · intro h
    rw [← source_anonymous p, h, source_anonymous]

end Pipeline

/-! ## Checks by name -/

namespace Archiver

variable {c : Contents}

theorem pendingBackends_eq_duplicateName {p : Pipeline} {backends : BackendSet}
    {archived : PipelineRecord} (h : c.pipeline? p.chunk p.name = some archived) :
    pendingBackends c p backends = .error (.duplicateName p.chunk p.name) ↔
      archived.source ≠ p.source := by
  simp only [pendingBackends, h]
  split
  · rename_i hsource
    exact iff_of_true rfl hsource
  · rename_i hsource
    refine iff_of_false ?_ hsource
    split <;> simp

theorem checkSignature_eq_duplicateName {name : String} {common : Bytes} {record : SignatureRecord}
    (h : c.signature? name = some record) :
    c.checkSignature name common = .error (.duplicateName .signatures name) ↔
      record.common ≠ common := by
  change c.signatures.get? name = some record at h
  simp only [Contents.checkSignature, h]
  split
  · rename_i hcommon
    exact iff_of_false (by rintro ⟨⟩) (not_not.2 hcommon)
  · rename_i hcommon
    exact iff_of_true rfl hcommon

theorem checkRenderPass_eq_duplicateName {name : String} {desc archived : Bytes}
    (h : c.renderPasses.get? name = some archived) :
    c.checkRenderPass name desc = .error (.duplicateName .renderPasses name) ↔
      archived ≠ desc := by
  simp only [Contents.checkRenderPass, h]
  split
  · rename_i hdesc
    exact iff_of_false (by rintro ⟨⟩) (not_not.2 hdesc)
  · rename_i hdesc
    exact iff_of_true rfl hdesc

/-- Items of one name are compared by their bytes, and these are the same only for the same
description; the debug names of shaders are no part of it. An item is therefore refused exactly
if another description is archived under its name. -/
theorem content_checks_exact :
    (∀ p q : Pipeline, p.check = .ok () → q.check = .ok () → isBounded p → isBounded q →
      (p.source = q.source ↔ p.anonymous = q.anonymous) ∧
      ∀ (c : Contents) (archived : PipelineRecord) (backends : BackendSet),
        c.pipeline? p.chunk p.name = some archived → archived.source = q.source →
        (pendingBackends c p backends = .error (.duplicateName p.chunk p.name) ↔
          p.anonymous ≠ q.anonymous)) ∧
    (∀ s t : Signature, isBounded s → isBounded t →
      (encode s = encode t → s = t) ∧
      ∀ (c : Contents) (record : SignatureRecord),
        c.signature? s.name = some record → record.common = encode t →
        (c.checkSignature s.name (encode s) = .error (.duplicateName .signatures s.name) ↔
          s ≠ t)) ∧
    (∀ a b : RenderPass, isBounded a → isBounded b →
      (encode a = encode b → a = b) ∧
      ∀ (c : Contents), c.renderPasses.get? a.name = some (encode b) →
        (c.checkRenderPass a.name (encode a) = .error (.duplicateName .renderPasses a.name) ↔
          a ≠ b)) := by
  refine ⟨?pipelines, ?signatures, ?renderPasses⟩
  case pipelines =>
    intro p q hp hq hpBounded hqBounded
    have hsource := Pipeline.source_eq_iff hp hq hpBounded hqBounded
    refine ⟨hsource, fun c archived backends harchived hq => ?_⟩
    rw [pendingBackends_eq_duplicateName harchived, hq, ne_comm]
    exact not_congr hsource
  case signatures =>
    intro s t hs ht
    have hinj : encode s = encode t ↔ s = t := ⟨SelfDelimiting.encode_inj hs ht, congrArg encode⟩
    refine ⟨hinj.1, fun c record hrecord hcommon => ?_⟩
    rw [checkSignature_eq_duplicateName hrecord, hcommon, ne_comm]
    exact not_congr hinj
  case renderPasses =>
    intro a b ha hb
    have hinj : encode a = encode b ↔ a = b := ⟨SelfDelimiting.encode_inj ha hb, congrArg encode⟩
    refine ⟨hinj.1, fun c hpass => ?_⟩
    rw [checkRenderPass_eq_duplicateName hpass, ne_comm]
    exact not_congr hinj

/-- A compute pipeline whose shader has the given debug name. -/
def namedShaderPipeline (name : String) : Pipeline where
  common := { name := "P", layout := {}, signatures := [] }
  kind := .compute {
    name
    stage := .compute
    entryPoint := "main"
    source := .hlsl ""
    macros := [] }

/-- Two pipelines that differ in a debug name alone have one source. -/
theorem source_namedShaderPipeline :
    (namedShaderPipeline "a").check = .ok () ∧ (namedShaderPipeline "b").check = .ok () ∧
      isBounded (namedShaderPipeline "a") ∧ isBounded (namedShaderPipeline "b") ∧
      (namedShaderPipeline "a").source = (namedShaderPipeline "b").source := by
  refine ⟨by decide, by decide, by decide, by decide, ?_⟩
  exact (content_checks_exact.1 (namedShaderPipeline "a") (namedShaderPipeline "b") (by decide)
    (by decide) (by decide) (by decide)).1.2 rfl

end Archiver

end PipelineArchive
