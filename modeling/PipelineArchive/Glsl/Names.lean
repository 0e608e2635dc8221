/-!
# Names known to GLSL

Words that may stand before an opening parenthesis without being declared by the text: the
keywords of statements, the types, whose names build values, and the functions of the
language.
-/

set_option autoImplicit false

namespace PipelineArchive.Glsl

/-- Keywords that a parenthesis may follow. -/
def callableKeywords : List String :=
  ["if", "for", "while", "switch", "return", "layout", "case"]

/-- Types whose names build values. -/
def valueTypes : List String :=
  ["float", "double", "int", "uint", "bool", "vec2", "vec3", "vec4", "dvec2", "dvec3", "dvec4",
    "ivec2", "ivec3", "ivec4", "uvec2", "uvec3", "uvec4", "bvec2", "bvec3", "bvec4", "mat2",
    "mat3", "mat4", "mat2x2", "mat2x3", "mat2x4", "mat3x2", "mat3x3", "mat3x4", "mat4x2",
    "mat4x3", "mat4x4", "dmat2", "dmat3", "dmat4"]

/-- Types of textures together with a sampler. -/
def samplerTypes : List String :=
  ["1D", "2D", "3D", "Cube", "1DArray", "2DArray", "CubeArray", "2DMS", "2DMSArray", "1DShadow",
    "2DShadow", "CubeShadow", "2DArrayShadow", "CubeArrayShadow", "Buffer"].flatMap
      fun shape => ["", "i", "u"].map fun kind => kind ++ "sampler" ++ shape

/-- Functions of the language. -/
def functions : List String :=
  ["radians", "degrees", "sin", "cos", "tan", "asin", "acos", "atan", "sinh", "cosh", "tanh",
    "asinh", "acosh", "atanh", "pow", "exp", "log", "exp2", "log2", "sqrt", "inversesqrt",
    "abs", "sign", "floor", "trunc", "round", "roundEven", "ceil", "fract", "mod", "modf",
    "min", "max", "clamp", "mix", "step", "smoothstep", "isnan", "isinf", "floatBitsToInt",
    "floatBitsToUint", "intBitsToFloat", "uintBitsToFloat", "fma", "frexp", "ldexp",
    "packUnorm2x16", "packSnorm2x16", "packUnorm4x8", "packSnorm4x8", "unpackUnorm2x16",
    "unpackSnorm2x16", "unpackUnorm4x8", "unpackSnorm4x8", "packHalf2x16", "unpackHalf2x16",
    "length", "distance", "dot", "cross", "normalize", "faceforward", "reflect", "refract",
    "matrixCompMult", "outerProduct", "transpose", "determinant", "inverse", "lessThan",
    "lessThanEqual", "greaterThan", "greaterThanEqual", "equal", "notEqual", "any", "all",
    "not", "bitfieldExtract", "bitfieldInsert", "bitfieldReverse", "bitCount", "findLSB",
    "findMSB", "textureSize", "textureQueryLod", "textureQueryLevels", "textureSamples",
    "texture", "textureProj", "textureLod", "textureOffset", "texelFetch", "texelFetchOffset",
    "textureGrad", "textureGather", "textureGatherOffset", "textureLodOffset",
    "textureGradOffset", "textureProjLod", "textureProjGrad", "imageSize", "imageLoad",
    "imageStore", "imageAtomicAdd", "imageAtomicMin", "imageAtomicMax", "imageAtomicAnd",
    "imageAtomicOr", "imageAtomicXor", "imageAtomicExchange", "imageAtomicCompSwap",
    "atomicAdd", "atomicMin", "atomicMax", "atomicAnd", "atomicOr", "atomicXor",
    "atomicExchange", "atomicCompSwap", "dFdx", "dFdy", "fwidth", "dFdxFine", "dFdyFine",
    "dFdxCoarse", "dFdyCoarse", "fwidthFine", "fwidthCoarse", "barrier", "memoryBarrier",
    "memoryBarrierBuffer", "memoryBarrierShared", "memoryBarrierImage", "groupMemoryBarrier"]

/-- Whether a word may be called though the text does not declare it. -/
def isKnownCallable (word : String) : Bool :=
  callableKeywords.contains word || valueTypes.contains word || samplerTypes.contains word
    || functions.contains word

end PipelineArchive.Glsl
