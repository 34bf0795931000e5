import StratifiedSampling.Number.Power

/-! Double-precision numbers as their 64 bits. A finite number is a whole number
of units, each a power of two, and arithmetic is exact on that view: an operation
computes its result in rationals and rounds once, to the nearest double, a tie to
the even one. Order and equality are those of the integer `rank`, in which every
NaN is one number above infinity and the two zeros are one number. -/

namespace StratifiedSampling

structure Double where
  bits : UInt64
  deriving DecidableEq

namespace Double

def infinityBits : Nat := 2047 * twoPow 52

def zero : Double := ⟨0⟩

def nan : Double := ⟨0x7ff8000000000000⟩

def negative (number : Double) : Bool :=
  decide (twoPow 63 ≤ number.bits.toNat)

/-- The bits without the sign; a larger magnitude has larger bits. -/
def magnitudeBits (number : Double) : Nat :=
  number.bits.toNat % twoPow 63

def isNaN (number : Double) : Bool :=
  decide (infinityBits < number.magnitudeBits)

def isFinite (number : Double) : Bool :=
  decide (number.magnitudeBits < infinityBits)

/-- The unit of a number is two to the power `unitExponent`. -/
def unitExponent (number : Double) : Int :=
  let biased : Nat := number.magnitudeBits / twoPow 52
  if biased = 0 then -1074 else (biased : Int) - 1075

def unitCount (number : Double) : Nat :=
  let fraction := number.magnitudeBits % twoPow 52
  if number.magnitudeBits / twoPow 52 = 0 then fraction else twoPow 52 + fraction

def toRat? (number : Double) : Option Rat :=
  if number.isFinite then
    let size := (number.unitCount : Rat) * (2 : Rat) ^ number.unitExponent
    some (if number.negative then -size else size)
  else none

/-- The place of a number in the order of all doubles. -/
def rank (number : Double) : Int :=
  if number.isNaN then twoPow 63
  else if number.negative then -(number.magnitudeBits : Int)
  else number.magnitudeBits

def order (left right : Double) : Ordering :=
  compare left.rank right.rank

def same (left right : Double) : Bool :=
  left.rank == right.rank

/-- One bit pattern for each class of equal numbers. -/
def canonicalBits (number : Double) : UInt64 :=
  if number.isNaN then nan.bits
  else if number.magnitudeBits = 0 then 0
  else number.bits

def roundHalfEven (numerator denominator : Nat) : Nat :=
  let quotient := numerator / denominator
  let twice := 2 * (numerator % denominator)
  if twice < denominator || (twice == denominator && quotient % 2 == 0) then quotient else quotient + 1

def leadingExponent (numerator denominator : Nat) : Int :=
  let guess : Int := (numerator.log2 : Int) - denominator.log2
  let reached :=
    if 0 ≤ guess then decide (denominator * twoPow guess.toNat ≤ numerator)
    else decide (denominator ≤ numerator * twoPow (-guess).toNat)
  if reached then guess else guess - 1

/-- The bits of the double nearest to a fraction that is not negative. The unit is
the one that leaves 53 digits, or the smallest there is; a count that rounds up to
54 digits carries into the exponent, which is what the encoding needs. -/
def nearestBits (numerator denominator : Nat) : Nat :=
  if numerator = 0 then 0
  else
    let unit := max (leadingExponent numerator denominator - 52) (-1074)
    let count :=
      if 0 ≤ unit then roundHalfEven numerator (denominator * twoPow unit.toNat)
      else roundHalfEven (numerator * twoPow (-unit).toNat) denominator
    min ((unit + 1074).toNat * twoPow 52 + count) infinityBits

def negated (number : Double) : Double :=
  ⟨number.bits ^^^ 0x8000000000000000⟩

def ofFraction (negative : Bool) (numerator denominator : Nat) : Double :=
  let size := nearestBits numerator denominator
  ⟨UInt64.ofNat (if negative then twoPow 63 + size else size)⟩

def ofRat (value : Rat) : Double :=
  ofFraction (decide (value < 0)) value.num.natAbs value.den

def ofNat (value : Nat) : Double :=
  ofFraction false value 1

def ofInt (value : Int) : Double :=
  ofFraction (decide (value < 0)) value.natAbs 1

/-- A rational number replaced by the double nearest to it, as a rational again. -/
def round (value : Rat) : Rat :=
  ((ofRat value).toRat?).getD value

/-- The quotient of two counts, each rounded before it is divided. -/
def quotient (numerator denominator : Nat) : Double :=
  ofRat (round numerator / round denominator)

end Double

end StratifiedSampling
