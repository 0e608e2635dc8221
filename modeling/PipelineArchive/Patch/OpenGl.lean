import PipelineArchive.Patch.Binding
import PipelineArchive.Patch.Declaration

/-!
# OpenGL

The units of a layout are written into the declarations of the GLSL text. The header lists
every binding that has a range.
-/

set_option autoImplicit false

namespace PipelineArchive.Patch.OpenGl

/-- The GLSL text of a shader with the units of a layout. -/
def patchShader (backend : Backend) (layout : PipelineLayout) (shader : CompiledShader) :
    Except ArchiveError Bytes := do
  let places ← resolveAll backend layout shader
  let units := (places.filter fun (r, _) => (GlRange.of? r.resourceType).isSome).map
    fun (r, binding) => (r.name, binding.binding)
  let text ← (Utf8.decode? shader.code).mapError fun e => .patching backend (.badGlsl e)
  let patched := assignBindings (fun name => lastValue? name units) text.toList
  return Bytes.ofText (String.ofList patched)

/-- The name, range, unit and array size of every binding that has a range. -/
def header (layout : PipelineLayout) : Bytes :=
  let bindings := layout.bindings.filterMap fun b =>
    (GlRange.of? b.resourceType).map fun range => (b, range)
  Encode.count bindings.length ++ bindings.flatMap fun (b, range) =>
    encode b.name ++ Bytes.ofU32 (UInt32.ofNat range.ordinal) ++ encode b.binding
      ++ encode b.arraySize

end PipelineArchive.Patch.OpenGl
