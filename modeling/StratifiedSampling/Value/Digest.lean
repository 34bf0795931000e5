import StratifiedSampling.Value.Order

/-! The bytes that stand for a value where it is hashed. A value writes the number of
its type and then the pieces of its payload. Equal values write the same pieces:
the payload of a double or a decimal is taken from the one form that stands for all
equal to it. -/

namespace StratifiedSampling

def littleEndian : Nat → Nat → List UInt8
  | 0, _ => []
  | count + 1, value => UInt8.ofNat (value % 256) :: littleEndian count (value / 256)

def littleEndianInt (count : Nat) (value : Int) : List UInt8 :=
  littleEndian count (value % twoPow (8 * count)).toNat

namespace Double

/-- Fraction, shifted exponent and sign in one word; a positive number has the top bit. -/
def digestWord (number : Double) : Nat :=
  let canonical : Double := ⟨number.canonicalBits⟩
  if canonical.isNaN then canonical.bits.toNat
  else
    let biased : Nat := canonical.magnitudeBits / twoPow 52
    let fraction := canonical.magnitudeBits % twoPow 52
    let mantissa := if biased = 0 then 2 * fraction else fraction
    let exponent := ((biased : Int) - 1075) % 2048
    let sign := if canonical.negative then 0 else twoPow 63
    sign + exponent.toNat * twoPow 52 + mantissa % twoPow 52

end Double

namespace Decimal

/-- The mantissa in three words, then scale and sign in one. -/
def digestWords (number : Decimal) : List (List UInt8) :=
  let canonical := number.canonical
  let sign := if canonical.negative then twoPow 31 else 0
  [canonical.digits, canonical.digits / twoPow 32, canonical.digits / twoPow 64,
    canonical.scale * twoPow 16 + sign].map (littleEndian 4)

end Decimal

namespace Date

/-- What tells the calendars of two years apart: leap or not, and the weekday the year starts on. -/
def yearFlags (year : Int) : Nat :=
  let weekday := (ofParts ⟨year, 1, 1⟩).weekday
  let start := if weekday = 0 then 6 else if weekday = 1 then 7 else (weekday - 1).toNat
  if isLeapYear year then start else start + 8

def digestBytes (date : Date) : List UInt8 :=
  let year := date.parts.year
  littleEndianInt 4 (year * twoPow 13 + date.dayOfYear * twoPow 4 + yearFlags year)

end Date

namespace Value

def typeNumber : Value → Nat
  | null => 0
  | bool _ => 1
  | int64 _ => 2
  | float64 _ => 3
  | numeric _ => 4
  | string _ => 5
  | bytes _ => 6
  | date _ => 7
  | timestamp _ => 8

/-- The pieces after the type; a text ends in a byte no text holds, bytes begin with their number. -/
def payload : Value → List (List UInt8)
  | null => []
  | bool value => [[if value then 1 else 0]]
  | int64 value => [littleEndianInt 8 value.toInt]
  | float64 value => [littleEndian 8 value.digestWord]
  | numeric value => value.digestWords
  | string value => [value.toUTF8.toList, [0xff]]
  | bytes value => [littleEndian 8 value.length, value]
  | date value => [value.digestBytes]
  | timestamp value =>
    [value.date.digestBytes, littleEndian 4 value.secondOfDay, littleEndian 4 value.nanoseconds]

def writes (value : Value) : List (List UInt8) :=
  littleEndian 8 value.typeNumber :: value.payload

/-- A grouping key writes its length before its values. -/
def keyWrites (key : List Value) : List (List UInt8) :=
  littleEndian 8 key.length :: key.flatMap writes

end Value

end StratifiedSampling
