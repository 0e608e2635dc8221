import PipelineArchive.Backend
import PipelineArchive.Description.Pipeline
import PipelineArchive.Layout.Range
import PipelineArchive.Spirv.Module

/-!
# Reasons for refusing an item

What can go wrong when an item is added to an archive or the archive is written. Every cause
keeps the values that its text speaks about; `ArchiveError.message` is the only place where
the texts are made.
-/

set_option autoImplicit false

namespace PipelineArchive

/-- Why shaders disagree about a resource of one name. -/
inductive ResourceConflict where
  | types (first second : ResourceType) (stage : ShaderStage)
  | arraySizes (first second : UInt32) (stage : ShaderStage)
  deriving DecidableEq, Repr

/-- The text of a conflict. -/
def ResourceConflict.message : ResourceConflict → String
  | .types first second stage =>
      s!"declared as {first.display} and as {second.display} in the {stage.display} shader"
  | .arraySizes first second stage =>
      s!"array size {first.toNat} and {second.toNat} in the {stage.display} shader"

/-- Why signatures do not fit the resources of a shader, or each other. -/
inductive SignatureMismatch where
  | sharedIndex (first second : String) (index : UInt8)
  | undeclared (stage : ShaderStage)
  | declaredTwice (first second : String)
  | otherType (signature : String) (declared used : ResourceType) (stage : ShaderStage)
  | tooFewElements (signature : String) (declared used : UInt32) (stage : ShaderStage)
  | invisible (signature : String) (stage : ShaderStage)
  deriving DecidableEq, Repr

/-- The text of a mismatch. -/
def SignatureMismatch.message : SignatureMismatch → String
  | .sharedIndex first second index =>
      s!"signatures '{first}' and '{second}' both use binding index {index.toNat}"
  | .undeclared stage => s!"the {stage.display} shader uses it, but no signature declares it"
  | .declaredTwice first second => s!"declared by both '{first}' and '{second}'"
  | .otherType signature declared used stage =>
      s!"signature '{signature}' declares a {declared.display}, the {stage.display} shader uses a {used.display}"
  | .tooFewElements signature declared used stage =>
      s!"signature '{signature}' declares {declared.toNat} elements, the {stage.display} shader uses {used.toNat}"
  | .invisible signature stage =>
      s!"signature '{signature}' does not make it visible to the {stage.display} stage"

/-- Why bindings cannot be written for a backend. -/
inductive PatchFault where
  | slotLimit (resource signature : String) (range : DescriptorRange) (slot : Nat)
      (stage : ShaderStage) (limit : Nat)
  | argumentLimit (resource signature : String) (limit : Nat) (argument : MetalArgument)
  | notInLayout (resourceType : ResourceType) (resource : String) (stage : ShaderStage)
  | notBytecode (stage : ShaderStage) (entryPoint : String)
  | badGlsl (error : Utf8.Error)
  | badMetal (error : Utf8.Error)
  | spirv (error : Spirv.Error)
  deriving DecidableEq, Repr

/-- The text of a fault. -/
def PatchFault.message : PatchFault → String
  | .slotLimit resource signature range slot stage limit =>
      s!"resource '{resource}' of signature '{signature}' needs {range.display} slot {slot} in the {stage.display} stage, the limit is {limit}"
  | .argumentLimit resource signature limit argument =>
      s!"resource '{resource}' of signature '{signature}' exceeds the {limit} {argument.display} argument slots"
  | .notInLayout resourceType resource stage =>
      s!"{resourceType.display} '{resource}' of the {stage.display} shader is not in the pipeline layout"
  | .notBytecode stage entryPoint =>
      s!"{stage.display} shader '{entryPoint}' is not a DXBC container"
  | .badGlsl error => s!"GLSL is not valid UTF-8: {error.message}"
  | .badMetal error => s!"MSL is not valid UTF-8: {error.message}"
  | .spirv error => error.message

/-- A fact about the contents of an archive that does not hold. -/
inductive Inconsistency where
  | missingSignature (pipeline signature : String)
  | missingRenderPass (pipeline pass : String)
  | missingShader (pipeline : String) (backend : Backend) (index : UInt32) (count : Nat)
  | wideOffset (value : Nat)
  | sizeMismatch (predicted written : Nat)
  deriving DecidableEq, Repr

/-- The text of an inconsistency. -/
def Inconsistency.message : Inconsistency → String
  | .missingSignature pipeline signature =>
      s!"pipeline '{pipeline}' uses signature '{signature}', which is not archived"
  | .missingRenderPass pipeline pass =>
      s!"pipeline '{pipeline}' uses render pass '{pass}', which is not archived"
  | .missingShader pipeline backend index count =>
      s!"pipeline '{pipeline}' uses {backend.display} shader {index.toNat}, but there are only {count}"
  | .wideOffset value => s!"offset {value} passed the size check but does not fit in 32 bits"
  | .sizeMismatch predicted written =>
      s!"archive layout predicted {predicted} bytes, but {written} were written"

/-- Why an item is not archived, or an archive not written. -/
inductive ArchiveError where
  | duplicateName (kind : ChunkKind) (name : String)
  | unsupportedInput (backend : Backend) (language : InputLanguage)
  | compilation (backend : Backend) (stage : ShaderStage) (message : String)
  | unmappedSemantic (shader semantic : String)
  | reflectionConflict (resource : String) (conflict : ResourceConflict)
  | bindingMismatch (resource : String) (mismatch : SignatureMismatch)
  | patching (backend : Backend) (fault : PatchFault)
  | tooLarge (size : Nat)
  | description (fault : DescriptionFault)
  | inconsistent (fact : Inconsistency)
  deriving DecidableEq, Repr

/-- The text of an error. -/
def ArchiveError.message : ArchiveError → String
  | .duplicateName kind name =>
      s!"{kind.display} '{name}' is already in the archive with different content"
  | .unsupportedInput backend language =>
      s!"no transcoder is registered for {language.display} input on {backend.display}"
  | .compilation backend stage message =>
      s!"failed to compile {stage.display} shader for {backend.display}: {message}"
  | .unmappedSemantic shader semantic =>
      s!"unable to map semantic '{semantic}' of shader '{shader}' to an input location: semantics must have 'ATTRIBx' format"
  | .reflectionConflict resource conflict =>
      s!"resource '{resource}' is declared inconsistently across shader stages: {conflict.message}"
  | .bindingMismatch resource mismatch =>
      s!"resource '{resource}' does not match the pipeline resource signatures: {mismatch.message}"
  | .patching backend fault =>
      s!"failed to patch shaders for {backend.display}: {fault.message}"
  | .tooLarge size => s!"archive size {size} exceeds the 4 GiB limit of 32-bit offsets"
  | .description fault => s!"invalid description: {fault.message}"
  | .inconsistent fact => s!"internal invariant violated: {fact.message}"

end PipelineArchive
