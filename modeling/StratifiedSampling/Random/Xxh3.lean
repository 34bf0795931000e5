/-! The 64-bit XXH3 hash with a seed. Inputs of up to 240 bytes are mixed in one of
four ways by length; longer inputs go through eight lanes that take 64 bytes at a
time, with the secret shifted by the seed. -/

namespace StratifiedSampling.Xxh3

def secret : Array UInt8 := #[
  0xb8, 0xfe, 0x6c, 0x39, 0x23, 0xa4, 0x4b, 0xbe, 0x7c, 0x01, 0x81, 0x2c, 0xf7, 0x21, 0xad, 0x1c,
  0xde, 0xd4, 0x6d, 0xe9, 0x83, 0x90, 0x97, 0xdb, 0x72, 0x40, 0xa4, 0xa4, 0xb7, 0xb3, 0x67, 0x1f,
  0xcb, 0x79, 0xe6, 0x4e, 0xcc, 0xc0, 0xe5, 0x78, 0x82, 0x5a, 0xd0, 0x7d, 0xcc, 0xff, 0x72, 0x21,
  0xb8, 0x08, 0x46, 0x74, 0xf7, 0x43, 0x24, 0x8e, 0xe0, 0x35, 0x90, 0xe6, 0x81, 0x3a, 0x26, 0x4c,
  0x3c, 0x28, 0x52, 0xbb, 0x91, 0xc3, 0x00, 0xcb, 0x88, 0xd0, 0x65, 0x8b, 0x1b, 0x53, 0x2e, 0xa3,
  0x71, 0x64, 0x48, 0x97, 0xa2, 0x0d, 0xf9, 0x4e, 0x38, 0x19, 0xef, 0x46, 0xa9, 0xde, 0xac, 0xd8,
  0xa8, 0xfa, 0x76, 0x3f, 0xe3, 0x9c, 0x34, 0x3f, 0xf9, 0xdc, 0xbb, 0xc7, 0xc7, 0x0b, 0x4f, 0x1d,
  0x8a, 0x51, 0xe0, 0x4b, 0xcd, 0xb4, 0x59, 0x31, 0xc8, 0x9f, 0x7e, 0xc9, 0xd9, 0x78, 0x73, 0x64,
  0xea, 0xc5, 0xac, 0x83, 0x34, 0xd3, 0xeb, 0xc3, 0xc5, 0x81, 0xa0, 0xff, 0xfa, 0x13, 0x63, 0xeb,
  0x17, 0x0d, 0xdd, 0x51, 0xb7, 0xf0, 0xda, 0x49, 0xd3, 0x16, 0x55, 0x26, 0x29, 0xd4, 0x68, 0x9e,
  0x2b, 0x16, 0xbe, 0x58, 0x7d, 0x47, 0xa1, 0xfc, 0x8f, 0xf8, 0xb8, 0xd1, 0x7a, 0xd0, 0x31, 0xce,
  0x45, 0xcb, 0x3a, 0x8f, 0x95, 0x16, 0x04, 0x28, 0xaf, 0xd7, 0xfb, 0xca, 0xbb, 0x4b, 0x40, 0x7e]

def prime32First : UInt64 := 0x9E3779B1
def prime32Second : UInt64 := 0x85EBCA77
def prime32Third : UInt64 := 0xC2B2AE3D
def primeFirst : UInt64 := 0x9E3779B185EBCA87
def primeSecond : UInt64 := 0xC2B2AE3D27D4EB4F
def primeThird : UInt64 := 0x165667B19E3779F9
def primeFourth : UInt64 := 0x85EBCA77C2B2AE63
def primeFifth : UInt64 := 0x27D4EB2F165667C5

def byteAt (bytes : Array UInt8) (position : Nat) : UInt64 :=
  (bytes.getD position 0).toUInt64

def word32 (bytes : Array UInt8) (position : Nat) : UInt64 :=
  byteAt bytes position ||| (byteAt bytes (position + 1) <<< 8) |||
    (byteAt bytes (position + 2) <<< 16) ||| (byteAt bytes (position + 3) <<< 24)

def word64 (bytes : Array UInt8) (position : Nat) : UInt64 :=
  word32 bytes position ||| (word32 bytes (position + 4) <<< 32)

def rotateLeft (word amount : UInt64) : UInt64 :=
  (word <<< amount) ||| (word >>> (64 - amount))

def lowHalf (word : UInt64) : UInt64 :=
  word &&& 0xffffffff

def highHalf (word : UInt64) : UInt64 :=
  word >>> 32

def swapBytes32 (word : UInt64) : UInt64 :=
  let lowest : UInt64 := word &&& 0xff
  let second : UInt64 := (word >>> 8) &&& 0xff
  let third : UInt64 := (word >>> 16) &&& 0xff
  let highest : UInt64 := (word >>> 24) &&& 0xff
  (lowest <<< 24) ||| (second <<< 16) ||| (third <<< 8) ||| highest

def swapBytes64 (word : UInt64) : UInt64 :=
  (swapBytes32 (lowHalf word) <<< 32) ||| swapBytes32 (highHalf word)

def foldedProduct (left right : UInt64) : UInt64 :=
  let product := left.toNat * right.toNat
  UInt64.ofNat product ^^^ UInt64.ofNat (product >>> 64)

def avalanche (word : UInt64) : UInt64 :=
  let mixed := (word ^^^ (word >>> 37)) * 0x165667919E3779F9
  mixed ^^^ (mixed >>> 32)

def strongAvalanche (word : UInt64) : UInt64 :=
  let first := (word ^^^ (word >>> 33)) * primeSecond
  let second := (first ^^^ (first >>> 29)) * primeThird
  second ^^^ (second >>> 32)

def mixSixteen (bytes : Array UInt8) (position offset : Nat) (seed : UInt64) : UInt64 :=
  foldedProduct (word64 bytes position ^^^ (word64 secret offset + seed))
    (word64 bytes (position + 8) ^^^ (word64 secret (offset + 8) - seed))

def upToThree (bytes : Array UInt8) (seed : UInt64) : UInt64 :=
  let size := bytes.size
  let combined := (byteAt bytes 0 <<< 16) ||| (byteAt bytes (size / 2) <<< 24) ||| byteAt bytes (size - 1) |||
    (UInt64.ofNat size <<< 8)
  strongAvalanche (combined ^^^ ((word32 secret 0 ^^^ word32 secret 4) + seed))

def upToEight (bytes : Array UInt8) (seed : UInt64) : UInt64 :=
  let size := bytes.size
  let spread := seed ^^^ (swapBytes32 (lowHalf seed) <<< 32)
  let key := word32 bytes (size - 4) + (word32 bytes 0 <<< 32)
  let first := key ^^^ ((word64 secret 8 ^^^ word64 secret 16) - spread)
  let second := (first ^^^ rotateLeft first 49 ^^^ rotateLeft first 24) * 0x9FB21C651E98DF25
  let third := (second ^^^ ((second >>> 35) + UInt64.ofNat size)) * 0x9FB21C651E98DF25
  third ^^^ (third >>> 28)

def upToSixteen (bytes : Array UInt8) (seed : UInt64) : UInt64 :=
  let size := bytes.size
  let low := word64 bytes 0 ^^^ ((word64 secret 24 ^^^ word64 secret 32) + seed)
  let high := word64 bytes (size - 8) ^^^ ((word64 secret 40 ^^^ word64 secret 48) - seed)
  avalanche (UInt64.ofNat size + swapBytes64 low + high + foldedProduct low high)

def upTo128 (bytes : Array UInt8) (seed : UInt64) : UInt64 :=
  let size := bytes.size
  let pairs := List.range ((size - 1) / 32 + 1)
  avalanche (pairs.foldl (fun total pair =>
    total + mixSixteen bytes (16 * pair) (32 * pair) seed +
      mixSixteen bytes (size - 16 * (pair + 1)) (32 * pair + 16) seed) (UInt64.ofNat size * primeFirst))

def upTo240 (bytes : Array UInt8) (seed : UInt64) : UInt64 :=
  let size := bytes.size
  let start := (List.range 8).foldl (fun total block =>
    total + mixSixteen bytes (16 * block) (16 * block) seed) (UInt64.ofNat size * primeFirst)
  let middle := (List.range (size / 16 - 8)).foldl (fun total block =>
    total + mixSixteen bytes (16 * (block + 8)) (16 * block + 3) seed) (avalanche start)
  avalanche (middle + mixSixteen bytes (size - 16) 119 seed)

def bytesOf (word : UInt64) : List UInt8 :=
  (List.range 8).map fun place => (word >>> (8 * UInt64.ofNat place)).toUInt8

def seededSecret (seed : UInt64) : Array UInt8 :=
  ((List.range 12).flatMap fun pair =>
    bytesOf (word64 secret (16 * pair) + seed) ++ bytesOf (word64 secret (16 * pair + 8) - seed)).toArray

def initialLanes : Array UInt64 :=
  #[prime32Third, primeFirst, primeSecond, primeThird, primeFourth, prime32Second, primeFifth, prime32First]

/-- Each lane takes its neighbour's word whole and the product of the halves of its own, keyed. -/
def addStripe (bytes key : Array UInt8) (position offset : Nat) (lanes : Array UInt64) : Array UInt64 :=
  lanes.mapIdx fun (lane : Nat) (total : UInt64) =>
    let keyed := word64 bytes (position + 8 * lane) ^^^ word64 key (offset + 8 * lane)
    total + word64 bytes (position + 8 * (lane ^^^ 1)) + lowHalf keyed * highHalf keyed

def scramble (key : Array UInt8) (lanes : Array UInt64) : Array UInt64 :=
  lanes.mapIdx fun (lane : Nat) (total : UInt64) =>
    let folded : UInt64 := total ^^^ (total >>> 47) ^^^ word64 key (128 + 8 * lane)
    folded * prime32First

def beyond240 (bytes : Array UInt8) (seed : UInt64) : UInt64 :=
  let size := bytes.size
  let key := seededSecret seed
  let blocks := (size - 1) / 1024
  let stripes := fun (start count : Nat) (lanes : Array UInt64) =>
    (List.range count).foldl (fun lanes stripe => addStripe bytes key (start + 64 * stripe) (8 * stripe) lanes) lanes
  let whole := (List.range blocks).foldl (fun lanes block => scramble key (stripes (1024 * block) 16 lanes)) initialLanes
  let rest := stripes (1024 * blocks) ((size - 1 - 1024 * blocks) / 64) whole
  let lanes := addStripe bytes key (size - 64) 121 rest
  avalanche ((List.range 4).foldl (fun total pair =>
    total + foldedProduct (lanes.getD (2 * pair) 0 ^^^ word64 key (11 + 16 * pair))
      (lanes.getD (2 * pair + 1) 0 ^^^ word64 key (19 + 16 * pair))) (UInt64.ofNat size * primeFirst))

def hash (bytes : Array UInt8) (seed : UInt64) : UInt64 :=
  let size := bytes.size
  if size = 0 then strongAvalanche (seed ^^^ word64 secret 56 ^^^ word64 secret 64)
  else if size ≤ 3 then upToThree bytes seed
  else if size ≤ 8 then upToEight bytes seed
  else if size ≤ 16 then upToSixteen bytes seed
  else if size ≤ 128 then upTo128 bytes seed
  else if size ≤ 240 then upTo240 bytes seed
  else beyond240 bytes seed

end StratifiedSampling.Xxh3
