import PipelineArchive.Config
import PipelineArchive.Description.FlagText
import PipelineArchive.Description.Pipeline
import PipelineArchive.Reflection

/-!
# The notation of descriptions

How every description is written in a document: the names of the members of enumerations, and
the fields of records with their defaults.
-/

set_option autoImplicit false

namespace PipelineArchive

open FromDocument

/-! ## Enumerations -/

instance : FromDocument Backend where
  read? := named? [("d3_d11", .d3d11), ("d3_d12", .d3d12), ("gl", .gl), ("gles", .gles),
    ("vulkan", .vulkan), ("metal_macos", .metalMacos), ("metal_ios", .metalIos)]

instance : FromDocument ShaderStage where
  read? := named? [("vertex", .vertex), ("pixel", .pixel), ("geometry", .geometry),
    ("hull", .hull), ("domain", .domain), ("compute", .compute),
    ("amplification", .amplification), ("mesh", .mesh), ("ray_gen", .rayGen),
    ("ray_miss", .rayMiss), ("ray_closest_hit", .rayClosestHit), ("ray_any_hit", .rayAnyHit),
    ("ray_intersection", .rayIntersection), ("callable", .callable), ("tile", .tile)]

instance : FromDocument InputLanguage where
  read? := named? [("hlsl", .hlsl), ("glsl", .glsl), ("glsl_verbatim", .glslVerbatim),
    ("spirv", .spirv)]

instance : FromDocument ResourceType where
  read? := named? [("constant_buffer", .constantBuffer), ("texture_srv", .textureSrv),
    ("buffer_srv", .bufferSrv), ("texture_uav", .textureUav), ("buffer_uav", .bufferUav),
    ("sampler", .sampler), ("input_attachment", .inputAttachment),
    ("accel_struct", .accelStruct)]

instance : FromDocument VariableType where
  read? := named? [("static", .static), ("mutable", .mutable), ("dynamic", .dynamic)]

instance : FromDocument FilterType where
  read? := named? [("point", .point), ("linear", .linear), ("anisotropic", .anisotropic),
    ("comparison_point", .comparisonPoint), ("comparison_linear", .comparisonLinear)]

instance : FromDocument AddressMode where
  read? := named? [("wrap", .wrap), ("mirror", .mirror), ("clamp", .clamp), ("border", .border)]

instance : FromDocument ComparisonFunc where
  read? := named? [("never", .never), ("less", .less), ("equal", .equal),
    ("less_equal", .lessEqual), ("greater", .greater), ("not_equal", .notEqual),
    ("greater_equal", .greaterEqual), ("always", .always)]

instance : FromDocument TextureFormat where
  read? := named? [("unknown", .unknown), ("rgba8_unorm", .rgba8Unorm),
    ("rgba8_unorm_srgb", .rgba8UnormSrgb), ("bgra8_unorm", .bgra8Unorm),
    ("bgra8_unorm_srgb", .bgra8UnormSrgb), ("rgb10_a2_unorm", .rgb10A2Unorm),
    ("r11_g11_b10_float", .r11G11B10Float), ("r8_unorm", .r8Unorm), ("rg8_unorm", .rg8Unorm),
    ("r16_float", .r16Float), ("rg16_float", .rg16Float), ("rgba16_float", .rgba16Float),
    ("r32_float", .r32Float), ("rg32_float", .rg32Float), ("rgba32_float", .rgba32Float),
    ("r32_uint", .r32Uint), ("d16_unorm", .d16Unorm), ("d24_unorm_s8_uint", .d24UnormS8Uint),
    ("d32_float", .d32Float), ("d32_float_s8_x24_uint", .d32FloatS8X24Uint)]

instance : FromDocument LoadOp where
  read? := named? [("load", .load), ("clear", .clear), ("discard", .discard)]

instance : FromDocument StoreOp where
  read? := named? [("store", .store), ("discard", .discard)]

instance : FromDocument ResourceState where
  read? := named? [("undefined", .undefined), ("render_target", .renderTarget),
    ("depth_write", .depthWrite), ("depth_read", .depthRead),
    ("shader_resource", .shaderResource), ("input_attachment", .inputAttachment),
    ("resolve_dest", .resolveDest), ("copy_source", .copySource), ("present", .present)]

instance : FromDocument BlendFactor where
  read? := named? [("zero", .zero), ("one", .one), ("src_color", .srcColor),
    ("inv_src_color", .invSrcColor), ("src_alpha", .srcAlpha), ("inv_src_alpha", .invSrcAlpha),
    ("dest_alpha", .destAlpha), ("inv_dest_alpha", .invDestAlpha), ("dest_color", .destColor),
    ("inv_dest_color", .invDestColor), ("src_alpha_sat", .srcAlphaSat),
    ("blend_factor", .blendFactor), ("inv_blend_factor", .invBlendFactor)]

instance : FromDocument BlendOperation where
  read? := named? [("add", .add), ("subtract", .subtract), ("rev_subtract", .revSubtract),
    ("min", .min), ("max", .max)]

instance : FromDocument FillMode where
  read? := named? [("wireframe", .wireframe), ("solid", .solid)]

instance : FromDocument CullMode where
  read? := named? [("none", .none), ("front", .front), ("back", .back)]

instance : FromDocument PrimitiveTopology where
  read? := named? [("point_list", .pointList), ("line_list", .lineList),
    ("line_strip", .lineStrip), ("triangle_list", .triangleList),
    ("triangle_strip", .triangleStrip), ("patch_list", .patchList)]

instance : FromDocument ValueType where
  read? := named? [("int8", .int8), ("int16", .int16), ("int32", .int32), ("uint8", .uint8),
    ("uint16", .uint16), ("uint32", .uint32), ("float16", .float16), ("float32", .float32)]

instance : FromDocument InputFrequency where
  read? := named? [("per_vertex", .perVertex), ("per_instance", .perInstance)]

/-! ## Resources and samplers -/

instance : FromDocument Resource where
  read? d := do
    let f ← fields? ["name", "shader_stages", "array_size", "resource_type", "var_type"] d
    return {
      name := ← required f "name"
      stages := ← required f "shader_stages"
      arraySize := ← optional f "array_size" 1
      resourceType := ← required f "resource_type"
      varType := ← optional f "var_type" .static }

instance : FromDocument BorderColor where
  read? d := do
    match ← items? d with
    | [r, g, b, a] => return ⟨← read? r, ← read? g, ← read? b, ← read? a⟩
    | _ => failure

instance : FromDocument SamplerDesc where
  read? d := do
    let f ← fields? ["min_filter", "mag_filter", "mip_filter", "address_u", "address_v",
      "address_w", "mip_lod_bias", "max_anisotropy", "comparison_func", "border_color",
      "min_lod", "max_lod"] d
    let base : SamplerDesc := {}
    return {
      minFilter := ← optional f "min_filter" base.minFilter
      magFilter := ← optional f "mag_filter" base.magFilter
      mipFilter := ← optional f "mip_filter" base.mipFilter
      addressU := ← optional f "address_u" base.addressU
      addressV := ← optional f "address_v" base.addressV
      addressW := ← optional f "address_w" base.addressW
      mipLodBias := ← optional f "mip_lod_bias" base.mipLodBias
      maxAnisotropy := ← optional f "max_anisotropy" base.maxAnisotropy
      comparison := ← optional f "comparison_func" base.comparison
      borderColor := ← optional f "border_color" base.borderColor
      minLod := ← optional f "min_lod" base.minLod
      maxLod := ← optional f "max_lod" base.maxLod }

instance : FromDocument ImmutableSampler where
  read? d := do
    let f ← fields? ["shader_stages", "sampler_or_texture_name", "desc"] d
    return {
      stages := ← required f "shader_stages"
      name := ← required f "sampler_or_texture_name"
      desc := ← optional f "desc" {} }

/-- The names of the fields of a signature. -/
def Signature.fieldNames : List String :=
  ["name", "binding_index", "resources", "immutable_samplers"]

/-- The signature that fields describe. -/
def Signature.ofFields? (f : Fields) : Reading Signature := do
  return {
    name := ← required f "name"
    bindingIndex := ← optional f "binding_index" 0
    resources := ← optional f "resources" []
    immutableSamplers := ← optional f "immutable_samplers" [] }

instance : FromDocument Signature where
  read? d := do Signature.ofFields? (← fields? Signature.fieldNames d)

/-! ## Graphics state -/

instance : FromDocument TargetBlend where
  read? d := do
    let f ← fields? ["blend_enable", "src_blend", "dest_blend", "blend_op", "src_blend_alpha",
      "dest_blend_alpha", "blend_op_alpha", "render_target_write_mask"] d
    let base : TargetBlend := {}
    return {
      enable := ← optional f "blend_enable" base.enable
      src := ← optional f "src_blend" base.src
      dest := ← optional f "dest_blend" base.dest
      operation := ← optional f "blend_op" base.operation
      srcAlpha := ← optional f "src_blend_alpha" base.srcAlpha
      destAlpha := ← optional f "dest_blend_alpha" base.destAlpha
      operationAlpha := ← optional f "blend_op_alpha" base.operationAlpha
      writeMask := ← optional f "render_target_write_mask" base.writeMask }

instance : FromDocument BlendState where
  read? d := do
    let f ← fields? ["alpha_to_coverage_enable", "independent_blend_enable", "render_targets"] d
    return {
      alphaToCoverage := ← optional f "alpha_to_coverage_enable" false
      independent := ← optional f "independent_blend_enable" false
      targets := ← optional f "render_targets" [] }

instance : FromDocument RasterizerState where
  read? d := do
    let f ← fields? ["fill_mode", "cull_mode", "front_counter_clockwise", "depth_clip_enable",
      "scissor_enable", "depth_bias", "slope_scaled_depth_bias"] d
    let base : RasterizerState := {}
    return {
      fillMode := ← optional f "fill_mode" base.fillMode
      cullMode := ← optional f "cull_mode" base.cullMode
      frontCounterClockwise := ← optional f "front_counter_clockwise" base.frontCounterClockwise
      depthClip := ← optional f "depth_clip_enable" base.depthClip
      scissor := ← optional f "scissor_enable" base.scissor
      depthBias := ← optional f "depth_bias" base.depthBias
      slopeScaledDepthBias := ← optional f "slope_scaled_depth_bias" base.slopeScaledDepthBias }

instance : FromDocument DepthStencilState where
  read? d := do
    let f ← fields? ["depth_enable", "depth_write_enable", "depth_func", "stencil_enable",
      "stencil_read_mask", "stencil_write_mask"] d
    let base : DepthStencilState := {}
    return {
      depthEnable := ← optional f "depth_enable" base.depthEnable
      depthWrite := ← optional f "depth_write_enable" base.depthWrite
      depthFunc := ← optional f "depth_func" base.depthFunc
      stencilEnable := ← optional f "stencil_enable" base.stencilEnable
      stencilReadMask := ← optional f "stencil_read_mask" base.stencilReadMask
      stencilWriteMask := ← optional f "stencil_write_mask" base.stencilWriteMask }

instance : FromDocument LayoutElement where
  read? d := do
    let f ← fields? ["input_index", "buffer_slot", "num_components", "value_type",
      "is_normalized", "relative_offset", "stride", "frequency", "instance_data_step_rate",
      "hlsl_semantic"] d
    return {
      inputIndex := ← required f "input_index"
      bufferSlot := ← optional f "buffer_slot" 0
      componentCount := ← required f "num_components"
      valueType := ← optional f "value_type" .float32
      isNormalized := ← optional f "is_normalized" false
      relativeOffset := ← optional f "relative_offset" none
      stride := ← optional f "stride" none
      frequency := ← optional f "frequency" .perVertex
      instanceStepRate := ← optional f "instance_data_step_rate" 0
      semantic := ← optional f "hlsl_semantic" "ATTRIB" }

/-- The elements of an input layout, which is a record around their list. -/
def inputLayout? (f : Fields) : Reading (List LayoutElement) :=
  match f.lookup "input_layout" with
  | none => return []
  | some d => do optional (← fields? ["elements"] d) "elements" []

instance : FromDocument SampleDesc where
  read? d := do
    let f ← fields? ["count", "quality"] d
    return { count := ← required f "count", quality := ← optional f "quality" 0 }

instance : FromDocument GraphicsState where
  read? d := do
    let f ← fields? ["blend_desc", "sample_mask", "rasterizer_desc", "depth_stencil_desc",
      "input_layout", "primitive_topology", "num_viewports", "subpass_index", "rtv_formats",
      "dsv_format", "sample_desc"] d
    let base : GraphicsState := {}
    return {
      blend := ← optional f "blend_desc" base.blend
      sampleMask := ← optional f "sample_mask" base.sampleMask
      rasterizer := ← optional f "rasterizer_desc" base.rasterizer
      depthStencil := ← optional f "depth_stencil_desc" base.depthStencil
      inputLayout := ← inputLayout? f
      topology := ← optional f "primitive_topology" base.topology
      viewportCount := ← optional f "num_viewports" base.viewportCount
      subpassIndex := ← optional f "subpass_index" base.subpassIndex
      targetFormats := ← optional f "rtv_formats" base.targetFormats
      depthFormat := ← optional f "dsv_format" base.depthFormat
      samples := ← optional f "sample_desc" base.samples }

/-! ## Render passes -/

instance : FromDocument Attachment where
  read? d := do
    let f ← fields? ["format", "sample_count", "load_op", "store_op", "stencil_load_op",
      "stencil_store_op", "initial_state", "final_state"] d
    return {
      format := ← required f "format"
      sampleCount := ← optional f "sample_count" 1
      loadOp := ← optional f "load_op" .load
      storeOp := ← optional f "store_op" .store
      stencilLoadOp := ← optional f "stencil_load_op" .load
      stencilStoreOp := ← optional f "stencil_store_op" .store
      initialState := ← optional f "initial_state" .undefined
      finalState := ← optional f "final_state" .undefined }

instance : FromDocument AttachmentReference where
  read? d := do
    let f ← fields? ["attachment_index", "state"] d
    return { index := ← required f "attachment_index", state := ← required f "state" }

instance : FromDocument Subpass where
  read? d := do
    let f ← fields? ["input_attachments", "render_target_attachments", "resolve_attachments",
      "depth_stencil_attachment", "preserve_attachments"] d
    return {
      inputs := ← optional f "input_attachments" []
      renderTargets := ← optional f "render_target_attachments" []
      resolves := ← optional f "resolve_attachments" []
      depthStencil := ← optional f "depth_stencil_attachment" none
      preserved := ← optional f "preserve_attachments" [] }

instance : FromDocument SubpassDependency where
  read? d := do
    let f ← fields? ["src_subpass", "dst_subpass", "src_stage_mask", "dst_stage_mask",
      "src_access_mask", "dst_access_mask"] d
    return {
      srcSubpass := ← required f "src_subpass"
      dstSubpass := ← required f "dst_subpass"
      srcStageMask := ← optional f "src_stage_mask" 0
      dstStageMask := ← optional f "dst_stage_mask" 0
      srcAccessMask := ← optional f "src_access_mask" 0
      dstAccessMask := ← optional f "dst_access_mask" 0 }

instance : FromDocument RenderPass where
  read? d := do
    let f ← fields? ["name", "attachments", "subpasses", "dependencies"] d
    return {
      name := ← required f "name"
      attachments := ← optional f "attachments" []
      subpasses := ← optional f "subpasses" []
      dependencies := ← optional f "dependencies" [] }

/-! ## Shaders -/

/-- The fields of a file reference, which is a map; in a held document it may be a list with its
fields in front. -/
def fileFields? (d : Document) : Reading Fields := do
  let names := ["language", "path"]
  match d, ← read with
  | .map entries, _ => fieldsOfMap? names entries
  | .list items, .held => return names.zip items
  | _, _ => failure

/-- The path and language of a file reference. -/
def fileSource? (d : Document) : Reading ShaderSource := do
  let f ← fileFields? d
  return .file (← required f "language") (← required f "path")

/-- How the sources of each kind are read. -/
def sourceKinds : List (String × (Document → Reading ShaderSource)) :=
  [("hlsl", fun d => .hlsl <$> read? d), ("glsl", fun d => .glsl <$> read? d),
    ("glsl_verbatim", fun d => .glslVerbatim <$> read? d),
    ("spirv", fun d => .spirv <$> read? d), ("file", fileSource?)]

instance : FromDocument ShaderSource where
  read?
    | .map [(kind, d)] => do (← member? sourceKinds kind) d
    | _ => failure

instance : FromDocument ShaderMacro where
  read? d := do
    let f ← fields? ["name", "definition"] d
    return { name := ← required f "name", definition := ← optional f "definition" "" }

instance : FromDocument Shader where
  read? d := do
    let f ← fields? ["name", "stage", "entry_point", "source", "macros"] d
    return {
      name := ← required f "name"
      stage := ← required f "stage"
      entryPoint := ← optional f "entry_point" "main"
      source := ← required f "source"
      macros := ← optional f "macros" [] }

/-! ## Pipelines -/

instance : FromDocument VariableOverride where
  read? d := do
    let f ← fields? ["shader_stages", "name", "var_type"] d
    return {
      stages := ← required f "shader_stages"
      name := ← required f "name"
      varType := ← required f "var_type" }

instance : FromDocument ResourceLayout where
  read? d := do
    let f ← fields? ["default_variable_type", "variables", "immutable_samplers"] d
    return {
      defaultType := ← optional f "default_variable_type" .static
      overrides := ← optional f "variables" []
      immutableSamplers := ← optional f "immutable_samplers" [] }

instance : FromDocument GeneralGroup where
  read? d := do
    let f ← fields? ["name", "shader"] d
    return { name := ← required f "name", shader := ← required f "shader" }

instance : FromDocument TriangleHitGroup where
  read? d := do
    let f ← fields? ["name", "closest_hit_shader", "any_hit_shader"] d
    return {
      name := ← required f "name"
      closestHit := ← required f "closest_hit_shader"
      anyHit := ← optional f "any_hit_shader" none }

instance : FromDocument ProceduralHitGroup where
  read? d := do
    let f ← fields? ["name", "intersection_shader", "closest_hit_shader", "any_hit_shader"] d
    return {
      name := ← required f "name"
      intersection := ← required f "intersection_shader"
      closestHit := ← optional f "closest_hit_shader" none
      anyHit := ← optional f "any_hit_shader" none }

/-- How the pipelines of one kind are read: the names of the fields that only they have, and the
part that these describe. -/
structure KindSchema where
  fieldNames : List String
  ofFields? : Fields → Reading PipelineKind

namespace KindSchema

/-- Pipelines of graphics state and shaders by stage. -/
def graphics : KindSchema where
  fieldNames := ["graphics", "render_pass", "vertex_shader", "pixel_shader", "geometry_shader",
    "hull_shader", "domain_shader", "amplification_shader", "mesh_shader"]
  ofFields? f := do
    let shaders : GraphicsShaders := {
      vertex := ← optional f "vertex_shader" none
      pixel := ← optional f "pixel_shader" none
      geometry := ← optional f "geometry_shader" none
      hull := ← optional f "hull_shader" none
      domain := ← optional f "domain_shader" none
      amplification := ← optional f "amplification_shader" none
      mesh := ← optional f "mesh_shader" none }
    return .graphics (← optional f "graphics" {}) (← optional f "render_pass" none) shaders

/-- Pipelines of one compute shader. -/
def compute : KindSchema where
  fieldNames := ["compute_shader"]
  ofFields? f := do return .compute (← required f "compute_shader")

/-- Pipelines of ray tracing shaders in groups. -/
def rayTracing : KindSchema where
  fieldNames := ["shaders", "general_shaders", "triangle_hit_shaders", "procedural_hit_shaders",
    "max_recursion_depth", "shader_record_size"]
  ofFields? f := do
    return .rayTracing {
      shaders := ← required f "shaders"
      general := ← optional f "general_shaders" []
      triangleHit := ← optional f "triangle_hit_shaders" []
      proceduralHit := ← optional f "procedural_hit_shaders" []
      recursionDepth := ← optional f "max_recursion_depth" 1
      recordSize := ← optional f "shader_record_size" 0 }

/-- Pipelines of one tile shader. -/
def tile : KindSchema where
  fieldNames := ["tile_shader", "rtv_formats", "sample_count"]
  ofFields? f := do
    return .tile (← required f "tile_shader") (← optional f "rtv_formats" [])
      (← optional f "sample_count" 1)

/-- The kinds of pipelines by name. -/
def all : List (String × KindSchema) :=
  [("graphics", graphics), ("compute", compute), ("ray_tracing", rayTracing), ("tile", tile)]

end KindSchema

/-- The pipeline of a kind that held fields describe. -/
def Pipeline.ofFields? (kind : KindSchema) (fields : Fields) : Reading Pipeline := do
  let common := ["name", "resource_layout", "resource_signatures"]
  let f ← known? (common ++ kind.fieldNames) fields
  return {
    common := {
      name := ← required f "name"
      layout := ← optional f "resource_layout" {}
      signatures := ← optional f "resource_signatures" [] }
    kind := ← kind.ofFields? f }

/-- The kind of pipeline that the field `type` names. -/
def KindSchema.ofTag? (fields : Fields) : Reading KindSchema := do
  tag? KindSchema.all (← (← known? ["type"] fields).lookup "type")

instance : FromDocument Pipeline where
  read? d := do
    let (tag, fields) ← sharedFields? ["type"] d
    let kind ← KindSchema.ofTag? tag
    (Pipeline.ofFields? kind fields).ofHeld

/-! ## Configuration -/

instance : FromDocument MetalVersion where
  read? d := do
    match ← items? d with
    | [major, minor] => return ⟨← read? major, ← read? minor⟩
    | _ => failure

instance : FromDocument Config where
  read? d := do
    let f ← fields? ["d3d12_use_dxil", "gl_version", "gles_version", "msl_version",
      "write_debug_info"] d
    let base : Config := {}
    return {
      useDxil := ← optional f "d3d12_use_dxil" base.useDxil
      glVersion := ← optional f "gl_version" base.glVersion
      glesVersion := ← optional f "gles_version" base.glesVersion
      mslVersion := ← optional f "msl_version" base.mslVersion
      writeDebugInfo := ← optional f "write_debug_info" base.writeDebugInfo }

end PipelineArchive
