/-! Whole numbers in digits: reading runs of ASCII digits, padding with zeros, and
bytes as pairs of hexadecimal digits. -/

namespace StratifiedSampling.Text

def digitsValue (digits : List Char) : Nat :=
  digits.foldl (fun total digit => 10 * total + (digit.toNat - '0'.toNat)) 0

def takeDigits (limit : Nat) : List Char → List Char × List Char
  | [] => ([], [])
  | char :: rest =>
    match limit with
    | 0 => ([], char :: rest)
    | more + 1 =>
      if char.isDigit then
        let (digits, remaining) := takeDigits more rest
        (char :: digits, remaining)
      else ([], char :: rest)

def readNat? (chars : List Char) : Option Nat :=
  if !chars.isEmpty && chars.all Char.isDigit then some (digitsValue chars) else none

def padded (width value : Nat) : List Char :=
  let digits := Nat.toDigits 10 value
  List.replicate (width - digits.length) '0' ++ digits

def hexDigit (value : Nat) : Char :=
  if value < 10 then Char.ofNat ('0'.toNat + value) else Char.ofNat ('a'.toNat + (value - 10))

def hexPair (byte : UInt8) : List Char :=
  [hexDigit (byte.toNat / 16), hexDigit (byte.toNat % 16)]

/-- The value of a digit in a base of at most sixteen; letters may be large or small. -/
def digitIn? (base : Nat) (char : Char) : Option Nat :=
  let lower := char.toLower
  let value :=
    if char.isDigit then some (char.toNat - '0'.toNat)
    else if 'a' ≤ lower ∧ lower ≤ 'f' then some (lower.toNat - 'a'.toNat + 10)
    else none
  value.filter (· < base)

def readHex? (digits : List Char) : Option Nat :=
  digits.foldlM (fun total digit => (digitIn? 16 digit).map (16 * total + ·)) 0

def hexText (bytes : List UInt8) : String :=
  String.ofList (bytes.flatMap hexPair)

end StratifiedSampling.Text
