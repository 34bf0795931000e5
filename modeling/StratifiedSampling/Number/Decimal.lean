import StratifiedSampling.Number.Power
import StratifiedSampling.Text.Digits

/-! Decimal numbers with a fixed number of places. The scale and the sign of a zero are
part of how a number is written but not of its value: order and equality compare values,
and the number without the zeros at its end stands for all that are equal to it. A zero
has a sign only where a negative number was rounded away. -/

namespace StratifiedSampling

/-- The number `digits` divided by ten to the power `scale`, with its sign. -/
structure Decimal where
  negative : Bool
  digits : Nat
  scale : Nat
  deriving DecidableEq

namespace Decimal

def digitsLimit : Nat := twoPow 96

def maxScale : Nat := 28

def ofMantissa (mantissa : Int) (scale : Nat) : Decimal :=
  ⟨decide (mantissa < 0), mantissa.natAbs, scale⟩

def ofInt (value : Int) : Decimal :=
  ofMantissa value 0

def mantissa (number : Decimal) : Int :=
  if number.negative then -(number.digits : Int) else number.digits

def order (left right : Decimal) : Ordering :=
  compare (left.mantissa * tenPow right.scale) (right.mantissa * tenPow left.scale)

def same (left right : Decimal) : Bool :=
  left.mantissa * tenPow right.scale == right.mantissa * tenPow left.scale

/-- Places taken off the end of a mantissa as long as they hold zero. -/
def withoutZeros (mantissa : Int) : Nat → Decimal
  | 0 => ofMantissa mantissa 0
  | scale + 1 =>
    if mantissa % 10 = 0 then withoutZeros (mantissa / 10) scale else ofMantissa mantissa (scale + 1)

def canonical (number : Decimal) : Decimal :=
  withoutZeros number.mantissa number.scale

def display (number : Decimal) : String :=
  let digits := Text.padded (number.scale + 1) number.digits
  let whole := digits.take (digits.length - number.scale)
  let places := digits.drop (digits.length - number.scale)
  let unsigned := if number.scale = 0 then whole else whole ++ '.' :: places
  String.ofList (if number.negative then '-' :: unsigned else unsigned)

structure Reading where
  digits : Nat
  places : Nat
  pointed : Bool
  started : Bool

/-- One more in the last place if asked for; where that is a digit too many, the last place goes. -/
def Reading.rounded (reading : Reading) (upward : Bool) : Option Reading :=
  let digits := if upward then reading.digits + 1 else reading.digits
  if digits < digitsLimit then some { reading with digits }
  else if reading.places = 0 then none
  else some { reading with digits := (digits + 4) / 10, places := reading.places - 1 }

/-- Below this a 64-bit word takes one more digit with room to spare. -/
def shortLimit : Nat := (twoPow 64 - 1) / 10 - 255

/-- Of the places that do not fit only the first one counts, a five rounding upwards;
the others must still be digits, with or without underscores. An underscore before the
first one is passed over, except after a number whose digits but the last are short:
there it counts as a zero. -/
def Reading.close (reading : Reading) (beyond : List Char) : Option Reading :=
  let places := beyond.filter (· != '_')
  let zero := beyond.head? == some '_' && reading.digits / 10 < shortLimit
  if places.all Char.isDigit then
    reading.rounded (!zero && 5 ≤ Text.digitsValue (places.take 1))
  else none

/-- Digits with at most one point among them; an underscore may follow a digit. -/
def Reading.run (reading : Reading) : List Char → Option Reading
  | [] => if reading.started then some reading else none
  | char :: rest =>
    if reading.pointed && reading.places = maxScale then reading.close (char :: rest)
    else if char.isDigit then
      let digits := 10 * reading.digits + Text.digitsValue [char]
      if digits < digitsLimit then
        let places := if reading.pointed then reading.places + 1 else reading.places
        run { reading with digits, places, started := true } rest
      else if reading.pointed then reading.close (char :: rest)
      else none
    else if char = '.' ∧ !reading.pointed then run { reading with pointed := true } rest
    else if char = '_' ∧ reading.started then run reading rest
    else none

/-- A zero is read without its sign. -/
def readSigned? (negative : Bool) (chars : List Char) : Option Decimal :=
  (Reading.run ⟨0, 0, false, false⟩ chars).map fun reading =>
    ⟨negative && reading.digits != 0, reading.digits, reading.places⟩

def readPlain? : List Char → Option Decimal
  | '-' :: rest => readSigned? true rest
  | '+' :: rest => readSigned? false rest
  | chars => readSigned? false chars

/-- The number to so many places at most, a half going away from zero. The sign stays,
also where all digits go. -/
def roundedTo (number : Decimal) (places : Nat) : Decimal :=
  if number.scale ≤ places then number
  else
    let unit := tenPow (number.scale - places)
    { number with digits := (2 * number.digits + unit) / (2 * unit), scale := places }

/-- The number times ten to a power. A negative power rounds off the places that would
be too many; a positive one gives up places before it adds zeros. -/
def shifted (number : Decimal) (power : Int) : Option Decimal :=
  if power.natAbs ≤ maxScale then
    if power < 0 then
      let kept := number.roundedTo (maxScale - power.natAbs)
      some { kept with scale := kept.scale + power.natAbs }
    else if power ≤ number.scale then some { number with scale := number.scale - power.toNat }
    else
      let digits := number.digits * tenPow (power.toNat - number.scale)
      if digits < digitsLimit then some { number with digits, scale := 0 } else none
  else none

def readPower? : List Char → Option Int
  | '-' :: rest => (Text.readNat? (match rest with | '+' :: digits => digits | _ => rest)).map fun power => -(power : Int)
  | '+' :: rest => (Text.readNat? rest).map (fun power : Nat => (power : Int))
  | chars => (Text.readNat? chars).map (fun power : Nat => (power : Int))

def isPowerMark (char : Char) : Bool :=
  char == 'e' || char == 'E'

def readScientific? (chars : List Char) : Option Decimal :=
  match chars.dropWhile (!isPowerMark ·) with
  | [] => none
  | _ :: power => do
    let base ← readPlain? (chars.takeWhile (!isPowerMark ·))
    let power ← readPower? power
    base.shifted power

def read? (text : String) : Option Decimal :=
  (readPlain? text.toList).or (readScientific? text.toList)

end Decimal

end StratifiedSampling
