/-! A stream of random words from a 64-bit seed: the ChaCha block function with twelve
rounds, keyed by eight words that a linear generator makes of the seed. Word pairs of
the blocks, the low word first, are the 64-bit outputs; output number `index` can be
computed without the ones before it. -/

namespace StratifiedSampling.ChaCha

abbrev Block := Vector UInt32 16

def rotateLeft (word amount : UInt32) : UInt32 :=
  (word <<< amount) ||| (word >>> (32 - amount))

def quarterRound (block : Block) (a b c d : Fin 16) : Block :=
  let block := block.set a (block[a] + block[b])
  let block := block.set d (rotateLeft (block[d] ^^^ block[a]) 16)
  let block := block.set c (block[c] + block[d])
  let block := block.set b (rotateLeft (block[b] ^^^ block[c]) 12)
  let block := block.set a (block[a] + block[b])
  let block := block.set d (rotateLeft (block[d] ^^^ block[a]) 8)
  let block := block.set c (block[c] + block[d])
  block.set b (rotateLeft (block[b] ^^^ block[c]) 7)

def doubleRound (block : Block) : Block :=
  let block := quarterRound block 0 4 8 12
  let block := quarterRound block 1 5 9 13
  let block := quarterRound block 2 6 10 14
  let block := quarterRound block 3 7 11 15
  let block := quarterRound block 0 5 10 15
  let block := quarterRound block 1 6 11 12
  let block := quarterRound block 2 7 8 13
  quarterRound block 3 4 9 14

def doubleRounds : Nat → Block → Block
  | 0, block => block
  | count + 1, block => doubleRounds count (doubleRound block)

structure Key where
  words : Vector UInt32 8

/-- The words that the seed's linear generator puts out, each state permuted. -/
def keyWords : Nat → UInt64 → List UInt32
  | 0, _ => []
  | count + 1, state =>
    let state := state * 6364136223846793005 + 11634580027462260723
    let folded := (((state >>> 18) ^^^ state) >>> 27).toUInt32
    let amount := (state >>> 59).toUInt32
    let word := (folded >>> amount) ||| (folded <<< ((32 - amount) % 32))
    word :: keyWords count state

def Key.ofSeed (seed : UInt64) : Key :=
  let words := (keyWords 8 seed).toArray
  ⟨Vector.ofFn fun place => words.getD place 0⟩

def Key.block (key : Key) (counter : UInt64) : Block :=
  let start : Block := Vector.ofFn fun place =>
    if place.val = 0 then 0x61707865
    else if place.val = 1 then 0x3320646e
    else if place.val = 2 then 0x79622d32
    else if place.val = 3 then 0x6b206574
    else if h : place.val - 4 < 8 then key.words[place.val - 4]
    else if place.val = 12 then counter.toUInt32
    else if place.val = 13 then (counter >>> 32).toUInt32
    else 0
  (doubleRounds 6 start).zipWith (· + ·) start

def Key.output (key : Key) (index : Nat) : UInt64 :=
  let block := key.block (UInt64.ofNat (index / 8))
  let low : Fin 16 := ⟨2 * (index % 8), by omega⟩
  let high : Fin 16 := ⟨2 * (index % 8) + 1, by omega⟩
  block[low].toUInt64 ||| (block[high].toUInt64 <<< 32)

end StratifiedSampling.ChaCha
