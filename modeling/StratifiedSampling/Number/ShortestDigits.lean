import StratifiedSampling.Number.Double

/-! The shortest decimal text of a double: the fewest significant digits that read
back as the same number, and of those the nearest to it. A decimal is in the
rounding interval of a double if it lies between the midpoints to both neighbours;
the midpoints count only for an even unit count. Everything is exact arithmetic on
whole numbers, so the search for one digit more either meets the interval or not. -/

namespace StratifiedSampling.Double

inductive Tie where
  | up
  | even

/-- A finite positive double and the ends of its rounding interval, over one denominator. -/
structure Interval where
  lower : Nat
  value : Nat
  upper : Nat
  denominator : Nat
  closed : Bool

/-- Below a power of two the neighbour is half as far away, unless the unit cannot shrink. -/
def interval (number : Double) : Interval :=
  let count := number.unitCount
  let exponent := number.unitExponent - 2
  let scale := twoPow exponent.toNat
  let below := if count = twoPow 52 ∧ twoPow 53 ≤ number.magnitudeBits then 1 else 2
  { lower := (4 * count - below) * scale
    value := 4 * count * scale
    upper := (4 * count + 2) * scale
    denominator := twoPow (-exponent).toNat
    closed := count % 2 == 0 }

def digitCount (value : Nat) : Nat :=
  (Nat.toDigits 10 value).length

def leadingPower (numerator denominator : Nat) : Int :=
  if denominator ≤ numerator then (digitCount (numerator / denominator) : Int) - 1
  else
    let places := digitCount (denominator / numerator)
    if denominator ≤ numerator * tenPow (places - 1) then -((places : Int) - 1) else -(places : Int)

structure Decimals where
  digits : Nat
  exponent : Int

namespace Interval

def holds (range : Interval) (digits : Nat) (exponent : Int) : Bool :=
  let point := digits * tenPow exponent.toNat * range.denominator
  let scale := tenPow (-exponent).toNat
  if range.closed then decide (range.lower * scale ≤ point ∧ point ≤ range.upper * scale)
  else decide (range.lower * scale < point ∧ point < range.upper * scale)

/-- The neighbour to take on a grid of which both neighbours of the value read back. -/
def nearer (tie : Tie) (range : Interval) (below : Nat) (exponent : Int) : Nat :=
  let middle := (2 * below + 1) * tenPow exponent.toNat * range.denominator
  let twice := 2 * range.value * tenPow (-exponent).toNat
  match compare twice middle with
  | .lt => below
  | .gt => below + 1
  | .eq =>
    match tie with
    | .up => below + 1
    | .even => if below % 2 = 0 then below else below + 1

/-- The decimal on the grid of one exponent, if one of the value's neighbours there reads back. -/
def onGrid (tie : Tie) (range : Interval) (exponent : Int) : Option Nat :=
  let below := range.value * tenPow (-exponent).toNat / (range.denominator * tenPow exponent.toNat)
  match range.holds below exponent, range.holds (below + 1) exponent with
  | true, true => some (nearer tie range below exponent)
  | true, false => some below
  | false, true => some (below + 1)
  | false, false => none

/-- Grids from coarse to fine; seventeen digits always read back, so the last grid is never missed. -/
def search (tie : Tie) (range : Interval) : Nat → Int → Decimals
  | 0, exponent => ⟨range.value * tenPow (-exponent).toNat / (range.denominator * tenPow exponent.toNat), exponent⟩
  | more + 1, exponent =>
    match range.onGrid tie exponent with
    | some digits => ⟨digits, exponent⟩
    | none => search tie range more (exponent - 1)

end Interval

def shortest (tie : Tie) (number : Double) : Decimals :=
  let range := number.interval
  range.search tie 17 (leadingPower range.value range.denominator)

end StratifiedSampling.Double
