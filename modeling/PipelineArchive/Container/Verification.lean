import PipelineArchive.Container.Archive

/-!
# Verifying archives

`Archive.verify` follows every reference of an archive: records must lie in the common region,
their data in the regions of the backends, and the positions that pipelines hold must be those
of archived signatures, render passes and shaders.
-/

set_option autoImplicit false

namespace PipelineArchive.Container.Archive

/-- The first position that is not below a count. -/
def firstOutside (indices : List UInt32) (count : Nat) : Option UInt32 :=
  indices.find? fun index => count ≤ index.toNat

/-- Where the common region ends: at the least start of a region, or at the end. -/
def commonEnd (a : Archive) : Nat :=
  ((Backend.all.filterMap a.header.region?).min?).getD a.data.length

/-- Refuses a record that does not lie in the common region. -/
def verifyPlace (a : Archive) (kind : ChunkKind) (entry : NamedEntry) : Except ReadError Unit :=
  let common := a.header.common.toNat
  let start := common + entry.offset.toNat
  let stop := start + entry.size.toNat
  if maxOffset < stop then .error (.wideSum stop)
  else if a.commonEnd < stop ∨ entry.size.toNat < DataHeader.size then
    .error (.outOfBounds (.record kind entry.name) start stop (.common common a.commonEnd))
  else .ok ()

/-- Refuses a pipeline with a position that leads nowhere; `shaders` gives the number of
shaders of each backend, or the error that reading them ends with. -/
def verifyPipeline (a : Archive) (shaders : PerBackend (Except ReadError Nat)) (kind : ChunkKind)
    (name : String) : Except ReadError Unit := do
  let pipeline ← a.pipeline kind name
  let signatures := (a.entries .signatures).length
  if let some index := firstOutside pipeline.signatures signatures then
    throw (.inconsistent (.signatureOutOfRange kind name index signatures))
  let renderPasses := (a.entries .renderPasses).length
  if let some index := firstOutside pipeline.renderPass.toList renderPasses then
    throw (.inconsistent (.renderPassOutOfRange kind name index renderPasses))
  Backend.all.forM fun b => do
    if let some device := pipeline.device.get b then
      let count ← shaders.get b
      if let some index := firstOutside device.shaders count then
        throw (.inconsistent (.shaderOutOfRange kind name b index count))

/-- Refuses an entry that leads to a bad record. -/
def verifyEntry (a : Archive) (shaders : PerBackend (Except ReadError Nat)) (kind : ChunkKind)
    (entry : NamedEntry) : Except ReadError Unit := do
  a.verifyPlace kind entry
  let record ← a.record kind entry
  Backend.all.forM fun b => do
    let _ ← a.deviceData? b record entry.name
  if kind.isPipeline then a.verifyPipeline shaders kind entry.name

/-- Refuses an archive with a reference that leads nowhere. -/
def verify (a : Archive) : Except ReadError Unit := do
  if a.commonEnd < a.header.common.toNat then
    throw (.inconsistent (.commonAfterRegion a.header.common.toNat a.commonEnd))
  let shaders := PerBackend.ofFn fun b => (a.shaders b).map List.length
  (ChunkKind.all.filter ChunkKind.isNamed).forM fun kind =>
    (a.entries kind).forM (a.verifyEntry shaders kind)

end PipelineArchive.Container.Archive
