import PipelineArchive.Patch.Binding
import PipelineArchive.Spirv.Interface

/-!
# Vulkan

The sets and bindings of a layout are written over the decorations of the SPIR-V module. The
header lists the bindings of all descriptor sets.
-/

set_option autoImplicit false

namespace PipelineArchive.Patch.Vulkan

/-- The module of a shader with the sets and bindings of a layout. -/
def patchShader (layout : PipelineLayout) (shader : CompiledShader) :
    Except ArchiveError Bytes := do
  let places ← resolveAll .vulkan layout shader
  let targets := places.map fun (r, b) => (r.name, (b.set, b.binding))
  let patched := do
    let module ← Spirv.Module.ofBytes shader.code
    (module.remapBindings shader.reflection.stage fun r => lastValue? r.name targets).module?
  return (← patched.mapError fun e => .patching .vulkan (.spirv e)).toBytes

/-- The number of descriptor sets, and the place, type, array size and stages of every
binding. -/
def header (layout : PipelineLayout) : Bytes :=
  let bindings := layout.bindings
  Bytes.ofU32 (layout.signatures.foldl (fun count s => count + s.setCount) 0)
    ++ Encode.count bindings.length ++ bindings.flatMap fun b =>
      encode b.set ++ encode b.binding ++ encode b.resourceType ++ encode b.arraySize
        ++ encode b.stages ++ encode b.isImmutable

end PipelineArchive.Patch.Vulkan
