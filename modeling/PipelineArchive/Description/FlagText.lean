import PipelineArchive.Backend
import PipelineArchive.Description.Stage
import PipelineArchive.Document.Schema
import PipelineArchive.Text.Blank

/-!
# Sets written as flags

A set is written as the names of its members in upper case with bars between them. A part
may also be `0x` followed by the hexadecimal digits of a mask, whose bits are all kept. Blanks
around parts do not count, and the blank text is the empty set.
-/

set_option autoImplicit false

namespace PipelineArchive

namespace FlagText

/-- The bits of one part of a flag text. -/
def part? (names : List (String × UInt32)) (part : List Char) : Option UInt32 :=
  match part with
  | '0' :: 'x' :: digits =>
      let digits := match digits with
        | '+' :: rest => rest
        | _ => digits
      (Document.digits? 16 digits).bind fun n =>
        if n < UInt32.size then some (UInt32.ofNat n) else none
  | _ => names.lookup (String.ofList part)

/-- The bits of a flag text. -/
def parse? (names : List (String × UInt32)) (text : String) : Option UInt32 :=
  let cs := text.toList
  if (Text.trim cs).isEmpty then some 0
  else
    ((Text.splitOn '|' cs).mapM fun part => part? names (Text.trim part)).map fun bits =>
      bits.foldl (· ||| ·) 0

/-- The flags of backends. -/
def backendNames : List (String × UInt32) :=
  [("D3D11", .d3d11), ("D3D12", .d3d12), ("GL", .gl), ("GLES", .gles), ("VULKAN", .vulkan),
    ("METAL_MACOS", .metalMacos), ("METAL_IOS", .metalIos)].map
      fun (name, b) => (name, (BackendSet.singleton b).bits)

/-- The flags of shader stages. -/
def stageNames : List (String × UInt32) :=
  [("VERTEX", .vertex), ("PIXEL", .pixel), ("GEOMETRY", .geometry), ("HULL", .hull),
    ("DOMAIN", .domain), ("COMPUTE", .compute), ("AMPLIFICATION", .amplification),
    ("MESH", .mesh), ("RAY_GEN", .rayGen), ("RAY_MISS", .rayMiss),
    ("RAY_CLOSEST_HIT", .rayClosestHit), ("RAY_ANY_HIT", .rayAnyHit),
    ("RAY_INTERSECTION", .rayIntersection), ("CALLABLE", .callable), ("TILE", .tile)].map
      fun (name, s) => (name, (StageSet.singleton s).bits)

end FlagText

instance : FromDocument BackendSet where
  read? d := do return ⟨← FlagText.parse? FlagText.backendNames (← FromDocument.read? d)⟩

instance : FromDocument StageSet where
  read? d := do return ⟨← FlagText.parse? FlagText.stageNames (← FromDocument.read? d)⟩

end PipelineArchive
