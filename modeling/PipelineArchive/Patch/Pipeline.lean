import PipelineArchive.Patch.Direct3d
import PipelineArchive.Patch.Metal
import PipelineArchive.Patch.OpenGl
import PipelineArchive.Patch.Vulkan

/-!
# Patching pipelines

The compiled shaders of a pipeline become shader records whose code agrees with the layout of
the pipeline, and a header that tells a device about that layout.
-/

set_option autoImplicit false

namespace PipelineArchive

/-- What a pipeline is on one backend: the records of its shaders, in pipeline order, and its
header. -/
structure PatchedPipeline where
  shaders : List Bytes
  header : Bytes
  deriving DecidableEq, Repr

namespace Patch

/-- An archived shader: stage, entry point, source language, native code. -/
def shaderRecord (stage : ShaderStage) (entryPoint : String) (language : InputLanguage)
    (code : Bytes) : Bytes :=
  encode stage ++ encode entryPoint ++ encode language.tag ++ Encode.sized code

/-- Some shader is archived as these bytes. -/
def IsRecord (bytes : Bytes) : Prop :=
  ∃ stage entryPoint language code, bytes = shaderRecord stage entryPoint language code

/-- The code of a shader, with the bindings of a layout. -/
def patchShader (backend : Backend) (layout : PipelineLayout) (shader : CompiledShader) :
    Except ArchiveError Bytes :=
  match backend with
  | .d3d11 | .d3d12 => Direct3d.patchShader backend shader
  | .gl | .gles => OpenGl.patchShader backend layout shader
  | .vulkan => Vulkan.patchShader layout shader
  | .metalMacos | .metalIos => Metal.patchShader backend layout shader

/-- The header of a pipeline. -/
def deviceHeader (backend : Backend) (layout : PipelineLayout) (shaders : List CompiledShader) :
    Except ArchiveError Bytes :=
  match backend with
  | .d3d11 => Direct3d.registerMap .d3d11 layout shaders
  | .d3d12 => Direct3d.header12 layout shaders
  | .gl | .gles => .ok (OpenGl.header layout)
  | .vulkan => .ok (Vulkan.header layout)
  | .metalMacos | .metalIos => .ok (Metal.header layout)

/-- The record of a shader, with the bindings of a layout. -/
def recordOf (backend : Backend) (layout : PipelineLayout) (shader : CompiledShader) :
    Except ArchiveError Bytes :=
  (patchShader backend layout shader).map fun code =>
    shaderRecord shader.reflection.stage shader.entryPoint shader.language code

/-- The shaders and header of a pipeline. -/
def patchPipeline (backend : Backend) (layout : PipelineLayout) (shaders : List CompiledShader) :
    Except ArchiveError PatchedPipeline := do
  let records ← shaders.mapM (recordOf backend layout)
  let header ← deviceHeader backend layout shaders
  return ⟨records, header⟩

/-- The data of a signature on one backend. -/
def signatureData (backend : Backend) (signature : Signature) : Except ArchiveError Bytes :=
  (SignatureLayout.standalone backend signature).map encode

end Patch

end PipelineArchive
