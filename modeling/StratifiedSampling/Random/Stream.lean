import StratifiedSampling.Random.ChaCha
import StratifiedSampling.Random.Xxh3
import StratifiedSampling.Value.Digest

/-! The random numbers of a sample. Each is a function of a seed and of what it
belongs to: the label of a row depends on its position, a draw on the seed of its
stratum, its ordinal and the stratum's size. Nothing depends on the order in which
the numbers are computed. -/

namespace StratifiedSampling.Stream

def keyed (seed ordinal : UInt64) : ChaCha.Key :=
  .ofSeed (Xxh3.hash (Xxh3.bytesOf ordinal).toArray seed)

/-- A multiple of two to the power -53, at least zero and below one. -/
def rowLabel (seed row : UInt64) : Double :=
  .ofFraction false (((keyed seed row).output 0) >>> 11).toNat (twoPow 53)

def stratumSeed (seed : UInt64) (key : List Value) : UInt64 :=
  Xxh3.hash (Value.keyWrites key).flatten.toArray seed

/-- The high half of a word times the size, which is below the size. -/
def scaledWord (word : UInt64) (size : Nat) : Nat :=
  word.toNat * size / twoPow 64

/-- Words whose low half of the product is above the bound would favour some results. -/
def isFair (word : UInt64) (size : Nat) : Bool :=
  let shift := 63 - size.log2
  decide (word.toNat * size % twoPow 64 ≤ size * twoPow shift - 1)

/-- The first fair output from an index on. A word is fair with a chance above one
half, so that the limit on the search is never reached in practice. -/
def fairWord (key : ChaCha.Key) (size : Nat) : Nat → Nat → UInt64
  | 0, index => key.output index
  | more + 1, index =>
    let word := key.output index
    if isFair word size then word else fairWord key size more (index + 1)

def searchLimit : Nat := 4096

/-- A uniform draw from one up to the size. -/
def drawIndex (seed ordinal : UInt64) (size : Nat) : Nat :=
  scaledWord (fairWord (keyed seed ordinal) size searchLimit 0) size + 1

end StratifiedSampling.Stream
