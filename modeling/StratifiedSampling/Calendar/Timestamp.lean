import StratifiedSampling.Calendar.Date
import StratifiedSampling.Number.Power

/-! Points in time as seconds since 1970 and nanoseconds. Nanoseconds of a thousand
million and more belong to a leap second, which follows the last second of a minute
and is written with second sixty. -/

namespace StratifiedSampling

structure Timestamp where
  seconds : Int
  nanoseconds : Nat
  deriving DecidableEq

namespace Timestamp

def secondNanoseconds : Nat := 1000000000

def daySeconds : Int := 86400

def date (time : Timestamp) : Date :=
  ⟨time.seconds / daySeconds⟩

def secondOfDay (time : Timestamp) : Nat :=
  (time.seconds % daySeconds).toNat

def order (left right : Timestamp) : Ordering :=
  (compare left.seconds right.seconds).then (compare left.nanoseconds right.nanoseconds)

/-- Hours, minutes and seconds; a leap second is second sixty. -/
def clockChars (time : Timestamp) : List Char :=
  let second := time.secondOfDay
  Text.padded 2 (second / 3600) ++ ':' :: Text.padded 2 (second / 60 % 60) ++
    ':' :: Text.padded 2 (second % 60 + time.nanoseconds / secondNanoseconds)

def display (time : Timestamp) : String :=
  String.ofList (time.date.chars ++ ' ' :: time.clockChars ++
    '.' :: Text.padded 6 (time.nanoseconds % secondNanoseconds / 1000) ++ [' ', 'U', 'T', 'C'])

/-- The fewest of no, three, six and nine places that lose nothing. -/
def fractionChars (time : Timestamp) : List Char :=
  let fraction := time.nanoseconds % secondNanoseconds
  if fraction = 0 then []
  else if fraction % 1000000 = 0 then '.' :: Text.padded 3 (fraction / 1000000)
  else if fraction % 1000 = 0 then '.' :: Text.padded 6 (fraction / 1000)
  else '.' :: Text.padded 9 fraction

def internetChars (time : Timestamp) : List Char :=
  time.date.chars ++ 'T' :: time.clockChars ++ time.fractionChars

def internetText (time : Timestamp) : String :=
  String.ofList (time.internetChars ++ ['+', '0', '0', ':', '0', '0'])

def zuluText (time : Timestamp) : String :=
  String.ofList (time.internetChars ++ ['Z'])

end Timestamp

namespace Calendar

/-- The digits after a point as nanoseconds; digits after the ninth are dropped. -/
def fraction : Reader Nat := fun chars =>
  match chars with
  | '.' :: rest =>
    match Text.takeDigits 9 rest with
    | ([], _) => none
    | (digits, rest) =>
      some (Text.digitsValue digits * tenPow (9 - digits.length), rest.dropWhile Char.isDigit)
  | chars => some (0, chars)

/-- The second of the day and the nanoseconds; second sixty is a leap second. -/
def clock : Reader (Nat × Nat) := fun chars => do
  let (hour, chars) ← numberIn 2 0 23 chars
  let (_, chars) ← mark ':' chars
  let (minute, chars) ← numberIn 2 0 59 chars
  let (_, chars) ← mark ':' chars
  let (second, chars) ← numberIn 2 0 60 chars
  let (nanoseconds, chars) ← fraction chars
  let start := hour * 3600 + minute * 60
  if second = 60 then some ((start + 59, Timestamp.secondNanoseconds + nanoseconds), chars)
  else some ((start + second, nanoseconds), chars)

/-- Two digits of the hour, colons or blanks, and two digits of the minute, as seconds. -/
def offsetSeconds : Reader Nat := fun chars => do
  let (hours, rest) := Text.takeDigits 2 chars
  let (minutes, rest) := Text.takeDigits 2 (rest.dropWhile fun char => char == ':' || Text.isBlank char)
  if hours.length = 2 ∧ minutes.length = 2 ∧ Text.digitsValue minutes < 60 then
    some (Text.digitsValue hours * 3600 + Text.digitsValue minutes * 60, rest)
  else none

/-- Seconds east of UTC: a letter or name for UTC itself, or a sign and an offset of less than a day. -/
def offset : Reader Int := fun chars =>
  let east (sign : Int) (chars : List Char) : Option (Int × List Char) := do
    let (seconds, rest) ← offsetSeconds chars
    if seconds < 86400 then some (sign * (seconds : Int), rest) else none
  match chars with
  | 'Z' :: rest => some (0, rest)
  | 'z' :: rest => some (0, rest)
  | '+' :: rest => east 1 rest
  | '-' :: rest => east (-1) rest
  | '\u2212' :: rest => east (-1) rest
  | u :: t :: c :: rest => if u.toLower = 'u' ∧ t.toLower = 't' ∧ c.toLower = 'c' then some (0, rest) else none
  | _ => none

def dateTimeMark : Reader Unit := fun chars =>
  match chars with
  | 't' :: rest => some ((), rest)
  | 'T' :: rest => some ((), rest)
  | ' ' :: rest => some ((), rest)
  | _ => none

def timestamp : Reader Timestamp := fun chars => do
  let (date, chars) ← date chars
  let (_, chars) ← dateTimeMark chars
  let ((second, nanoseconds), chars) ← clock chars
  let (offset, chars) ← offset (skipBlanks chars)
  let time : Timestamp := ⟨date.dayNumber * Timestamp.daySeconds + second - offset, nanoseconds⟩
  if Date.first.dayNumber ≤ time.date.dayNumber ∧ time.date.dayNumber ≤ Date.last.dayNumber then
    some (time, chars)
  else none

end Calendar

/-- An RFC 3339 timestamp with any offset, in a text of its own; only blanks may follow it. -/
def Timestamp.read? (text : String) : Option Timestamp := do
  let (time, rest) ← Calendar.timestamp text.toList
  if (Calendar.skipBlanks rest).isEmpty then some time else none

end StratifiedSampling
