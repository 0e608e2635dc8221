import PipelineArchive.Archiver
import PipelineArchive.Backend
import PipelineArchive.Bytes
import PipelineArchive.Chunk
import PipelineArchive.CommandLine
import PipelineArchive.Compiled
import PipelineArchive.Config
import PipelineArchive.Container.Archive
import PipelineArchive.Container.Format
import PipelineArchive.Container.Image
import PipelineArchive.Container.ReadError
import PipelineArchive.Container.Verification
import PipelineArchive.Contents.Basic
import PipelineArchive.Contents.Cache
import PipelineArchive.Contents.ShaderStore
import PipelineArchive.Contents.Table
import PipelineArchive.Decoding
import PipelineArchive.Description.FlagText
import PipelineArchive.Description.Graphics
import PipelineArchive.Description.Pipeline
import PipelineArchive.Description.RenderPass
import PipelineArchive.Description.Resource
import PipelineArchive.Description.Schema
import PipelineArchive.Description.Shader
import PipelineArchive.Description.Stage
import PipelineArchive.Directory
import PipelineArchive.Document.Basic
import PipelineArchive.Document.Content
import PipelineArchive.Document.Json
import PipelineArchive.Document.Json.Numeral
import PipelineArchive.Document.Json.Token
import PipelineArchive.Document.Number
import PipelineArchive.Document.Schema
import PipelineArchive.Document.Yaml
import PipelineArchive.Encoding
import PipelineArchive.Error
import PipelineArchive.Glsl.Basic
import PipelineArchive.Glsl.Declarations
import PipelineArchive.Glsl.Emission
import PipelineArchive.Glsl.Names
import PipelineArchive.Glsl.Token
import PipelineArchive.Hash
import PipelineArchive.Inspection
import PipelineArchive.Layout.Matching
import PipelineArchive.Layout.Pipeline
import PipelineArchive.Layout.Range
import PipelineArchive.Layout.Signature
import PipelineArchive.Layout.Synthesis
import PipelineArchive.Main
import PipelineArchive.Manifest
import PipelineArchive.Patch.Binding
import PipelineArchive.Patch.Declaration
import PipelineArchive.Patch.Direct3d
import PipelineArchive.Patch.Metal
import PipelineArchive.Patch.OpenGl
import PipelineArchive.Patch.Pipeline
import PipelineArchive.Patch.Vulkan
import PipelineArchive.Path
import PipelineArchive.Proofs.Archiver.AcceptedNames
import PipelineArchive.Proofs.Archiver.Caching
import PipelineArchive.Proofs.Archiver.Described
import PipelineArchive.Proofs.Archiver.Extension
import PipelineArchive.Proofs.Archiver.KeptSignatures
import PipelineArchive.Proofs.Archiver.Orders
import PipelineArchive.Proofs.Archiver.Origins
import PipelineArchive.Proofs.Archiver.PipelineReads
import PipelineArchive.Proofs.Archiver.Refusals
import PipelineArchive.Proofs.Archiver.Runs
import PipelineArchive.Proofs.Archiver.Staging
import PipelineArchive.Proofs.Archiver.Truncated
import PipelineArchive.Proofs.Container.Answers
import PipelineArchive.Proofs.Container.Beginning
import PipelineArchive.Proofs.Container.Built
import PipelineArchive.Proofs.Container.Chunks
import PipelineArchive.Proofs.Container.Formats
import PipelineArchive.Proofs.Container.Forward
import PipelineArchive.Proofs.Container.Layout
import PipelineArchive.Proofs.Container.NameLists
import PipelineArchive.Proofs.Container.Names
import PipelineArchive.Proofs.Container.Opening
import PipelineArchive.Proofs.Container.Output
import PipelineArchive.Proofs.Container.Packing
import PipelineArchive.Proofs.Container.ReadBack
import PipelineArchive.Proofs.Container.Reading
import PipelineArchive.Proofs.Container.Records
import PipelineArchive.Proofs.Container.Regions
import PipelineArchive.Proofs.Container.Resemblance
import PipelineArchive.Proofs.Container.Safety
import PipelineArchive.Proofs.Container.ShaderTables
import PipelineArchive.Proofs.Container.Soundness
import PipelineArchive.Proofs.Container.Sources
import PipelineArchive.Proofs.Container.Truncation
import PipelineArchive.Proofs.Container.Verified
import PipelineArchive.Proofs.Contents.Commit
import PipelineArchive.Proofs.Contents.Grounded
import PipelineArchive.Proofs.Contents.Interning
import PipelineArchive.Proofs.Contents.Signatures
import PipelineArchive.Proofs.Decoding
import PipelineArchive.Proofs.Decoding.Consumption
import PipelineArchive.Proofs.Decoding.Fields
import PipelineArchive.Proofs.Description.Checks
import PipelineArchive.Proofs.Description.Stages
import PipelineArchive.Proofs.Encoding.Descriptions
import PipelineArchive.Proofs.Encoding.Readable
import PipelineArchive.Proofs.Encoding.Sources
import PipelineArchive.Proofs.Glsl.Directives
import PipelineArchive.Proofs.Layout.BindingOrder
import PipelineArchive.Proofs.Layout.DescriptorSets
import PipelineArchive.Proofs.Layout.Merging
import PipelineArchive.Proofs.Layout.Placing
import PipelineArchive.Proofs.Layout.Slots
import PipelineArchive.Proofs.Layout.StageSlots
import PipelineArchive.Proofs.Layout.Standalone
import PipelineArchive.Proofs.Layout.Synthesis
import PipelineArchive.Proofs.Layout.Tiling
import PipelineArchive.Proofs.Layout.Visibility
import PipelineArchive.Proofs.Manifest.Loading
import PipelineArchive.Proofs.Parts
import PipelineArchive.Proofs.Patch.ArgumentSlots
import PipelineArchive.Proofs.Patch.Arguments
import PipelineArchive.Proofs.Patch.Declarations
import PipelineArchive.Proofs.Patch.Places
import PipelineArchive.Proofs.Patch.Reading
import PipelineArchive.Proofs.Patch.Rebinding
import PipelineArchive.Proofs.Patch.RootSignatures
import PipelineArchive.Proofs.Patch.TableLimits
import PipelineArchive.Proofs.Patch.Vulkan
import PipelineArchive.Proofs.Results
import PipelineArchive.Proofs.Spirv.Arrays
import PipelineArchive.Proofs.Spirv.Grammar
import PipelineArchive.Proofs.Spirv.Literals
import PipelineArchive.Proofs.Spirv.Locations
import PipelineArchive.Proofs.Spirv.Remapping
import PipelineArchive.Proofs.Text.Splitting
import PipelineArchive.Proofs.Transcoder.Versions
import PipelineArchive.Proofs.Transcoder.VertexInputs
import PipelineArchive.Reflection
import PipelineArchive.Spirv.Declarations
import PipelineArchive.Spirv.Interface
import PipelineArchive.Spirv.Module
import PipelineArchive.Stream
import PipelineArchive.Text.Blank
import PipelineArchive.Text.DigitTable
import PipelineArchive.Text.Hex
import PipelineArchive.Text.PrintTable
import PipelineArchive.Text.Quoted
import PipelineArchive.Text.Utf8
import PipelineArchive.Text.WordTable
import PipelineArchive.Transcoder.Basic
import PipelineArchive.Transcoder.Compile
import PipelineArchive.Transcoder.Scripted
import PipelineArchive.Transcoder.Standard
