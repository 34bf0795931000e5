import StratifiedSampling.Number.ShortestDigits

/-! How doubles are written. Both forms use the shortest digits. In messages a
number is positional whatever its size; in JSON text it has a point or an exponent,
and a number that is not finite has no JSON text. -/

namespace StratifiedSampling.Double

def zeros (count : Nat) : List Char :=
  List.replicate count '0'

def significant (decimals : Decimals) : List Char × Int :=
  let digits := Nat.toDigits 10 decimals.digits
  let kept := (digits.reverse.dropWhile (· == '0')).reverse
  (kept, decimals.exponent + ((digits.length - kept.length : Nat) : Int))

def positional (digits : List Char) (exponent : Int) : List Char :=
  if 0 ≤ exponent then digits ++ zeros exponent.toNat
  else
    let places := (-exponent).toNat
    if places < digits.length then
      digits.take (digits.length - places) ++ '.' :: digits.drop (digits.length - places)
    else '0' :: '.' :: zeros (places - digits.length) ++ digits

def scientific (digits : List Char) (exponent : Int) : List Char :=
  let power := exponent + (digits.length : Int) - 1
  let mantissa :=
    match digits with
    | first :: next :: rest => first :: '.' :: next :: rest
    | few => few
  mantissa ++ 'e' :: (if power < 0 then '-' else '+') :: Nat.toDigits 10 power.natAbs

def signed (number : Double) (chars : List Char) : String :=
  String.ofList (if number.negative then '-' :: chars else chars)

/-- The text of a number in messages; of two equally near decimals the greater. -/
def display (number : Double) : String :=
  if number.isNaN then "NaN"
  else if number.magnitudeBits = infinityBits then number.signed ['i', 'n', 'f']
  else if number.magnitudeBits = 0 then number.signed ['0']
  else
    let (digits, exponent) := significant (number.shortest .up)
    number.signed (positional digits exponent)

/-- The JSON text of a number; positional from 0.00001 up to sixteen digits before
the point. Of two equally near decimals the one with an even last digit. -/
def jsonText? (number : Double) : Option String :=
  if !number.isFinite then none
  else if number.magnitudeBits = 0 then some (number.signed ['0', '.', '0'])
  else
    let (digits, exponent) := significant (number.shortest .even)
    let power := exponent + (digits.length : Int) - 1
    let chars :=
      if power < -5 ∨ 16 ≤ power then scientific digits exponent
      else if 0 ≤ exponent then positional digits exponent ++ ['.', '0']
      else positional digits exponent
    some (number.signed chars)

end StratifiedSampling.Double
