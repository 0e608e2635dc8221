import PipelineArchive.Bytes

/-!
# Content hash

Archived data is identified by the 64-bit XXH3 hash of its bytes under a fixed seed. Short
inputs are mixed in one step, those of up to 240 bytes in pieces of sixteen, and longer ones
in stripes of 64 bytes that feed eight lanes.
-/

set_option autoImplicit false

namespace PipelineArchive.Hash

/-- The least significant eight bytes as a word, first byte lowest. -/
def word64 (bytes : Bytes) : UInt64 :=
  (bytes.take 8).foldr (fun b acc => acc <<< 8 ||| b.toUInt64) 0

/-- The least significant four bytes as a word, first byte lowest. -/
def word32 (bytes : Bytes) : UInt64 :=
  (bytes.take 4).foldr (fun b acc => acc <<< 8 ||| b.toUInt64) 0

/-! ## Constants -/

def prime32A : UInt64 := 0x9E3779B1
def prime32B : UInt64 := 0x85EBCA77
def prime32C : UInt64 := 0xC2B2AE3D
def prime64A : UInt64 := 0x9E3779B185EBCA87
def prime64B : UInt64 := 0xC2B2AE3D27D4EB4F
def prime64C : UInt64 := 0x165667B19E3779F9
def prime64D : UInt64 := 0x85EBCA77C2B2AE63
def prime64E : UInt64 := 0x27D4EB2F165667C5

/-- The 192 bytes that inputs are keyed with. -/
def secret : Bytes :=
  [0xB8, 0xFE, 0x6C, 0x39, 0x23, 0xA4, 0x4B, 0xBE, 0x7C, 0x01, 0x81, 0x2C, 0xF7, 0x21, 0xAD, 0x1C,
   0xDE, 0xD4, 0x6D, 0xE9, 0x83, 0x90, 0x97, 0xDB, 0x72, 0x40, 0xA4, 0xA4, 0xB7, 0xB3, 0x67, 0x1F,
   0xCB, 0x79, 0xE6, 0x4E, 0xCC, 0xC0, 0xE5, 0x78, 0x82, 0x5A, 0xD0, 0x7D, 0xCC, 0xFF, 0x72, 0x21,
   0xB8, 0x08, 0x46, 0x74, 0xF7, 0x43, 0x24, 0x8E, 0xE0, 0x35, 0x90, 0xE6, 0x81, 0x3A, 0x26, 0x4C,
   0x3C, 0x28, 0x52, 0xBB, 0x91, 0xC3, 0x00, 0xCB, 0x88, 0xD0, 0x65, 0x8B, 0x1B, 0x53, 0x2E, 0xA3,
   0x71, 0x64, 0x48, 0x97, 0xA2, 0x0D, 0xF9, 0x4E, 0x38, 0x19, 0xEF, 0x46, 0xA9, 0xDE, 0xAC, 0xD8,
   0xA8, 0xFA, 0x76, 0x3F, 0xE3, 0x9C, 0x34, 0x3F, 0xF9, 0xDC, 0xBB, 0xC7, 0xC7, 0x0B, 0x4F, 0x1D,
   0x8A, 0x51, 0xE0, 0x4B, 0xCD, 0xB4, 0x59, 0x31, 0xC8, 0x9F, 0x7E, 0xC9, 0xD9, 0x78, 0x73, 0x64,
   0xEA, 0xC5, 0xAC, 0x83, 0x34, 0xD3, 0xEB, 0xC3, 0xC5, 0x81, 0xA0, 0xFF, 0xFA, 0x13, 0x63, 0xEB,
   0x17, 0x0D, 0xDD, 0x51, 0xB7, 0xF0, 0xDA, 0x49, 0xD3, 0x16, 0x55, 0x26, 0x29, 0xD4, 0x68, 0x9E,
   0x2B, 0x16, 0xBE, 0x58, 0x7D, 0x47, 0xA1, 0xFC, 0x8F, 0xF8, 0xB8, 0xD1, 0x7A, 0xD0, 0x31, 0xCE,
   0x45, 0xCB, 0x3A, 0x8F, 0x95, 0x16, 0x04, 0x28, 0xAF, 0xD7, 0xFB, 0xCA, 0xBB, 0x4B, 0x40, 0x7E]

/-- The word of a key that starts at a byte. -/
def keyAt (key : Bytes) (offset : Nat) : UInt64 := word64 (key.drop offset)

/-! ## Mixing -/

/-- The two halves of the 128-bit product, combined by exclusive or. -/
def foldProduct (a b : UInt64) : UInt64 :=
  let product := a.toNat * b.toNat
  UInt64.ofNat product ^^^ UInt64.ofNat (product / UInt64.size)

def rotateLeft (x : UInt64) (count : UInt64) : UInt64 := x <<< count ||| x >>> (64 - count)

/-- A word with its eight bytes in reverse order. -/
def swapBytes (x : UInt64) : UInt64 := word64 (Bytes.ofU64 x).reverse

/-- A 32-bit word with its four bytes in reverse order. -/
def swapBytes32 (x : UInt64) : UInt64 := word32 (Bytes.ofNat 4 x.toNat).reverse

/-- The final mix of inputs of up to three bytes. -/
def avalancheShort (h : UInt64) : UInt64 :=
  let h := (h ^^^ h >>> 33) * prime64B
  let h := (h ^^^ h >>> 29) * prime64C
  h ^^^ h >>> 32

/-- The final mix of all longer inputs but those of four to eight bytes. -/
def avalanche (h : UInt64) : UInt64 :=
  let h := (h ^^^ h >>> 37) * 0x165667919E3779F9
  h ^^^ h >>> 32

/-- The final mix of inputs of four to eight bytes. -/
def avalancheMiddle (h length : UInt64) : UInt64 :=
  let h := h ^^^ rotateLeft h 49 ^^^ rotateLeft h 24
  let h := h * 0x9FB21C651E98DF25
  let h := (h ^^^ (h >>> 35) + length) * 0x9FB21C651E98DF25
  h ^^^ h >>> 28

/-- Sixteen bytes of input mixed with sixteen bytes of key. -/
def mixPiece (seed : UInt64) (input key : Bytes) : UInt64 :=
  foldProduct (word64 input ^^^ (word64 key + seed))
    (word64 (input.drop 8) ^^^ (word64 (key.drop 8) - seed))

/-! ## Inputs by length -/

def upTo3 (seed : UInt64) (input : Bytes) : UInt64 :=
  let byteAt (i : Nat) : UInt64 := (input.getD i 0).toUInt64
  let length := input.length
  let combined := byteAt 0 <<< 16 ||| byteAt (length / 2) <<< 24 ||| byteAt (length - 1)
    ||| UInt64.ofNat length <<< 8
  let flip := (word32 secret ^^^ word32 (secret.drop 4)) + seed
  avalancheShort (combined ^^^ flip)

def upTo8 (seed : UInt64) (input : Bytes) : UInt64 :=
  let length := input.length
  let seed := seed ^^^ swapBytes32 (seed &&& 0xFFFFFFFF) <<< 32
  let flip := (keyAt secret 8 ^^^ keyAt secret 16) - seed
  let joined := word32 (input.drop (length - 4)) + word32 input <<< 32
  avalancheMiddle (joined ^^^ flip) (UInt64.ofNat length)

def upTo16 (seed : UInt64) (input : Bytes) : UInt64 :=
  let length := input.length
  let low := word64 input ^^^ ((keyAt secret 24 ^^^ keyAt secret 32) + seed)
  let high := word64 (input.drop (length - 8)) ^^^ ((keyAt secret 40 ^^^ keyAt secret 48) - seed)
  avalanche (UInt64.ofNat length + swapBytes low + high + foldProduct low high)

/-- Pieces from both ends towards the middle, as many as the length asks for. -/
def upTo128 (seed : UInt64) (input : Bytes) : UInt64 :=
  let length := input.length
  let pair (i : Nat) : UInt64 :=
    mixPiece seed (input.drop (16 * i)) (secret.drop (32 * i))
      + mixPiece seed (input.drop (length - 16 * (i + 1))) (secret.drop (32 * i + 16))
  let start := UInt64.ofNat length * prime64A
  avalanche ((List.range ((length - 1) / 32 + 1)).foldl (fun acc i => acc + pair i) start)

def upTo240 (seed : UInt64) (input : Bytes) : UInt64 :=
  let length := input.length
  let piece (i offset : Nat) : UInt64 :=
    mixPiece seed (input.drop (16 * i)) (secret.drop offset)
  let first := (List.range 8).foldl (fun acc i => acc + piece i (16 * i))
    (UInt64.ofNat length * prime64A)
  let more := (List.range (length / 16 - 8)).foldl (fun acc i => acc + piece (i + 8) (16 * i + 3))
    (avalanche first)
  avalanche (more + mixPiece seed (input.drop (length - 16)) (secret.drop 119))

/-! ## Long inputs -/

/-- The words of up to `count` groups of eight bytes. -/
def wordsOf : Nat → Bytes → List UInt64
  | 0, _ => []
  | count + 1, bytes => word64 bytes :: wordsOf count (bytes.drop 8)

/-- A list with the two members of each pair exchanged. -/
def swapPairs : List UInt64 → List UInt64
  | a :: b :: rest => b :: a :: swapPairs rest
  | rest => rest

/-- One stripe of 64 bytes added to the lanes. -/
def addStripe (lanes : List UInt64) (input key : Bytes) : List UInt64 :=
  let data := wordsOf 8 input
  let keyed := List.zipWith (· ^^^ ·) data (wordsOf 8 key)
  let products :=
    keyed.map fun (k : UInt64) => (k &&& (0xFFFFFFFF : UInt64)) * (k >>> (32 : UInt64))
  List.zipWith (· + ·) (List.zipWith (· + ·) lanes (swapPairs data)) products

/-- The mix of the lanes at the end of a block. -/
def scramble (lanes : List UInt64) (key : Bytes) : List UInt64 :=
  List.zipWith (fun (lane k : UInt64) => (lane ^^^ lane >>> 47 ^^^ k) * prime32A) lanes
    (wordsOf 8 key)

/-- The stripes of a long input but for the last one, sixteen to a block: `left` of them
remain, and `index` of the current block have been added. -/
def addStripes (key : Bytes) : (left index : Nat) → List UInt64 → Bytes → List UInt64
  | 0, _, lanes, _ => lanes
  | left + 1, index, lanes, input =>
      let lanes := addStripe lanes input (key.drop (8 * index))
      if index = 15 then
        addStripes key left 0 (scramble lanes (key.drop 128)) (input.drop 64)
      else addStripes key left (index + 1) lanes (input.drop 64)

/-- The products of the pairs of lanes, keyed. -/
def mergeLanes : List UInt64 → Bytes → UInt64 → UInt64
  | a :: b :: rest, key, acc =>
      mergeLanes rest (key.drop 16)
        (acc + foldProduct (a ^^^ word64 key) (b ^^^ word64 (key.drop 8)))
  | _, _, acc => acc

/-- The key of long inputs: the words of the secret, raised and lowered by the seed in turn. -/
def seededSecret (seed : UInt64) : Nat → Bytes → Bytes
  | 0, _ => []
  | count + 1, key =>
      Bytes.ofU64 (word64 key + seed) ++ Bytes.ofU64 (word64 (key.drop 8) - seed)
        ++ seededSecret seed count (key.drop 16)

def long (seed : UInt64) (input : Bytes) : UInt64 :=
  let length := input.length
  let key := seededSecret seed 12 secret
  let start := [prime32C, prime64A, prime64B, prime64C, prime64D, prime32B, prime64E, prime32A]
  let lanes := addStripes key ((length - 1) / 64) 0 start input
  let lanes := addStripe lanes (input.drop (length - 64)) (key.drop 121)
  avalanche (mergeLanes lanes (key.drop 11) (UInt64.ofNat length * prime64A))

/-- The hash of a byte string under a seed. -/
def ofBytes (seed : UInt64) (input : Bytes) : UInt64 :=
  let length := input.length
  if length = 0 then avalancheShort (seed ^^^ keyAt secret 56 ^^^ keyAt secret 64)
  else if length ≤ 3 then upTo3 seed input
  else if length ≤ 8 then upTo8 seed input
  else if length ≤ 16 then upTo16 seed input
  else if length ≤ 128 then upTo128 seed input
  else if length ≤ 240 then upTo240 seed input
  else long seed input

/-- The seed of archived content, which is also the version of its encoding. -/
def contentSeed : UInt64 := 3

/-- The identity of archived content. -/
def content (input : Bytes) : UInt64 := ofBytes contentSeed input

end PipelineArchive.Hash
