import StratifiedSampling.Number.Double
import StratifiedSampling.Text.Digits

/-! The value of a number literal in JSON text. A literal without point and exponent
that fits 64 bits is whole. Every other is a double, read in two rounded steps: the
digits that fit 64 bits as a whole number, which is then multiplied or divided by a
power of ten. The result may differ in its last place from the nearest double. -/

namespace StratifiedSampling.Json

structure Literal where
  negative : Bool
  integer : List Char
  fraction : List Char
  exponent : Option Int

/-- A number goes on as long as it fits 64 bits; the digits that no longer fit are returned. -/
def appendDigits (value : Nat) : List Char → Nat × List Char
  | [] => (value, [])
  | digit :: rest =>
    let longer := 10 * value + Text.digitsValue [digit]
    if longer < UInt64.size then appendDigits longer rest else (value, digit :: rest)

def greatestPower : Nat := 308

def powerOfTen (power : Nat) : Rat :=
  Double.round (tenPow power)

def scaledDouble? (value : Nat) (exponent : Int) : Option Double :=
  let start := Double.round value
  let power := exponent.natAbs
  if value = 0 then some .zero
  else if 0 ≤ exponent then
    let scaled := Double.ofRat (start * powerOfTen power)
    if power ≤ greatestPower ∧ scaled.isFinite then some scaled else none
  else if power ≤ greatestPower then some (.ofRat (start / powerOfTen power))
  else if power ≤ 2 * greatestPower then
    some (.ofRat (Double.round (start / powerOfTen greatestPower) / powerOfTen (power - greatestPower)))
  else some .zero

namespace Literal

/-- Digits of the integer that do not fit raise the exponent; those of the fraction are dropped. -/
def toDouble? (literal : Literal) : Option Double :=
  let (head, extra) := appendDigits 0 literal.integer
  let (value, dropped) := appendDigits head literal.fraction
  let places := literal.fraction.length - dropped.length
  let exponent := literal.exponent.getD 0 + (extra.length : Int) - (places : Int)
  (scaledDouble? value exponent).map fun size => if literal.negative then size.negated else size

/-- A whole number; a negative one is at least the least of 64 bits with a sign, and is not zero. -/
def toWhole? (literal : Literal) : Option Int :=
  let value : Int := Text.digitsValue literal.integer
  if !literal.fraction.isEmpty || literal.exponent.isSome then none
  else if literal.negative then (if 0 < value ∧ Int64.minValue.toInt ≤ -value then some (-value) else none)
  else if value < UInt64.size then some value
  else none

end Literal

end StratifiedSampling.Json
