/-! Which rows of a column are NULL, one bit a row in words of 64. Rows past the end
count as NULL. Bits past the end carry no meaning, and counting skips them; a bitmap
that was built by pushing has none of them set. A bitmap that was read from a text can
lack words for its rows: the functions whose names end in a question mark fail where
they come upon a missing word, the others take it as one without any bit set. -/

namespace StratifiedSampling

structure NullBitmap where
  words : Array UInt64
  length : Nat
  deriving DecidableEq

namespace NullBitmap

def wordSize : Nat := 64

def empty : NullBitmap := ⟨#[], 0⟩

/-- A bitmap without rows. Room that is kept for rows to come does not show in it. -/
def withCapacity (_rows : Nat) : NullBitmap := empty

def valid (length : Nat) : NullBitmap :=
  ⟨Array.replicate ((length + 63) / wordSize) 0, length⟩

def isEmpty (bitmap : NullBitmap) : Bool :=
  bitmap.length == 0

/-- The bit of a row. A missing word reads as zero here, while looking it up in the array of words is an
error: see `isNull?`. Only bitmaps that were read from a text lack words. -/
def bit (words : Array UInt64) (index : Nat) : Bool :=
  (words.getD (index / wordSize) 0).toBitVec.getLsbD (index % wordSize)

def isNull (bitmap : NullBitmap) (index : Nat) : Bool :=
  if bitmap.length ≤ index then true else bit bitmap.words index

def isValid (bitmap : NullBitmap) (index : Nat) : Bool :=
  !bitmap.isNull index

def setBit (words : Array UInt64) (index : Nat) : Array UInt64 :=
  words.modify (index / wordSize) fun word => ⟨word.toBitVec ||| BitVec.twoPow 64 (index % wordSize)⟩

/-- One more row; a new word is added when the last one is full. -/
def push (bitmap : NullBitmap) (isNull : Bool) : NullBitmap :=
  let words := if bitmap.length / wordSize < bitmap.words.size then bitmap.words else bitmap.words.push 0
  ⟨if isNull then setBit words bitmap.length else words, bitmap.length + 1⟩

def append (bitmap other : NullBitmap) : NullBitmap :=
  (List.range other.length).foldl (fun extended index => extended.push (other.isNull index)) bitmap

def clear (_bitmap : NullBitmap) : NullBitmap := empty

def onesBelow (word : UInt64) (position : Nat) : Nat :=
  (List.range position).countP fun index => word.toBitVec.getLsbD index

def onesIn : List UInt64 → Nat
  | [] => 0
  | word :: rest => onesBelow word wordSize + onesIn rest

/-- The number of NULL rows: whole words first, then the part of the last word that is in use. -/
def countNull (bitmap : NullBitmap) : Nat :=
  let full := bitmap.length / wordSize
  onesIn (bitmap.words.toList.take full) + onesBelow (bitmap.words.getD full 0) (bitmap.length % wordSize)

section Checked

/-- Whether a row is NULL, by a shift and a mask. -/
def isNull? (bitmap : NullBitmap) (index : Nat) : Option Bool :=
  if bitmap.length ≤ index then some true
  else do
    let word ← bitmap.words[index / wordSize]?
    some ((word >>> UInt64.ofNat (index % wordSize)) &&& 1 == 1)

def push? (bitmap : NullBitmap) (isNull : Bool) : Option NullBitmap :=
  let place := bitmap.length / wordSize
  let words := if bitmap.words.size ≤ place then bitmap.words.push 0 else bitmap.words
  if isNull then do
    let word ← words[place]?
    some ⟨words.setIfInBounds place (word ||| (1 <<< UInt64.ofNat (bitmap.length % wordSize))), bitmap.length + 1⟩
  else some ⟨words, bitmap.length + 1⟩

def append? (bitmap other : NullBitmap) : Option NullBitmap :=
  (List.range other.length).foldlM (fun extended index => do extended.push? (← other.isNull? index)) bitmap

/-- The number of bits set in a word. -/
def ones (word : UInt64) : Nat :=
  word.toBitVec.cpop.toNat

/-- The number of NULL rows; the last word is counted under a mask. -/
def countNull? (bitmap : NullBitmap) : Option Nat :=
  let full := bitmap.length / wordSize
  let part := bitmap.length % wordSize
  if bitmap.words.size < full then none
  else
    let whole := (bitmap.words.toList.take full).foldl (fun count word => count + ones word) 0
    if 0 < part then do
      let word ← bitmap.words[full]?
      some (whole + ones (word &&& ((1 <<< UInt64.ofNat part) - 1)))
    else some whole

end Checked

end NullBitmap

end StratifiedSampling
