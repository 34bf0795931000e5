import StratifiedSampling.Text.Blank
import StratifiedSampling.Text.Digits

/-! Dates of the proleptic Gregorian calendar, kept as the number of days since the
first of January 1970. Every number of days is a date, so order and equality of
dates are those of whole numbers. Years are computed from the first of March, which
puts the leap day at the end of a year and every four hundred years into one cycle. -/

namespace StratifiedSampling

structure Date where
  dayNumber : Int
  deriving DecidableEq

namespace Date

structure Parts where
  year : Int
  month : Nat
  day : Nat
  deriving DecidableEq

def cycleDays : Int := 146097

/-- Days from the first of March of year zero to the first of January 1970. -/
def epochOffset : Int := 719468

def ofParts (parts : Parts) : Date :=
  let year := if parts.month ≤ 2 then parts.year - 1 else parts.year
  let cycle := year / 400
  let yearOfCycle := year % 400
  let monthOfYear := (parts.month + 9) % 12
  let dayOfYear : Int := ((153 * monthOfYear + 2) / 5 : Nat) + (parts.day : Int) - 1
  let dayOfCycle := yearOfCycle * 365 + yearOfCycle / 4 - yearOfCycle / 100 + dayOfYear
  ⟨cycle * cycleDays + dayOfCycle - epochOffset⟩

def parts (date : Date) : Parts :=
  let days := date.dayNumber + epochOffset
  let cycle := days / cycleDays
  let dayOfCycle := (days % cycleDays).toNat
  let yearOfCycle := (dayOfCycle - dayOfCycle / 1460 + dayOfCycle / 36524 - dayOfCycle / 146096) / 365
  let dayOfYear := dayOfCycle - (365 * yearOfCycle + yearOfCycle / 4 - yearOfCycle / 100)
  let monthOfYear := (5 * dayOfYear + 2) / 153
  let day := dayOfYear - (153 * monthOfYear + 2) / 5 + 1
  let month := if monthOfYear < 10 then monthOfYear + 3 else monthOfYear - 9
  let year := cycle * 400 + yearOfCycle
  ⟨if month ≤ 2 then year + 1 else year, month, day⟩

def isLeapYear (year : Int) : Bool :=
  year % 4 == 0 && (year % 100 != 0 || year % 400 == 0)

def monthLength (year : Int) (month : Nat) : Nat :=
  if month = 2 then (if isLeapYear year then 29 else 28)
  else if month = 4 ∨ month = 6 ∨ month = 9 ∨ month = 11 then 30
  else 31

def firstYear : Int := -262143

def lastYear : Int := 262142

def ofParts? (year : Int) (month day : Nat) : Option Date :=
  if firstYear ≤ year ∧ year ≤ lastYear ∧ 1 ≤ month ∧ month ≤ 12 ∧ 1 ≤ day ∧ day ≤ monthLength year month then
    some (ofParts ⟨year, month, day⟩)
  else none

def first : Date := ofParts ⟨firstYear, 1, 1⟩

def last : Date := ofParts ⟨lastYear, 12, 31⟩

def dayOfYear (date : Date) : Int :=
  date.dayNumber - (ofParts ⟨date.parts.year, 1, 1⟩).dayNumber + 1

def weekday (date : Date) : Int :=
  (date.dayNumber + 3) % 7

/-- Four digits, or a sign and at least four for a year that needs more or is before year zero. -/
def yearChars (year : Int) : List Char :=
  if year < 0 then '-' :: Text.padded 4 year.natAbs
  else if 9999 < year then '+' :: Text.padded 4 year.natAbs
  else Text.padded 4 year.natAbs

def chars (date : Date) : List Char :=
  let parts := date.parts
  yearChars parts.year ++ '-' :: Text.padded 2 parts.month ++ '-' :: Text.padded 2 parts.day

def display (date : Date) : String :=
  String.ofList date.chars

end Date

/-! Readers take as much of a text as they need and return the rest. Blanks are
skipped before every number and before every mark that is not part of a number. -/

namespace Calendar

abbrev Reader (α : Type) := List Char → Option (α × List Char)

def skipBlanks (chars : List Char) : List Char :=
  chars.dropWhile Text.isBlank

def number (width : Nat) : Reader Nat := fun chars =>
  match Text.takeDigits width (skipBlanks chars) with
  | ([], _) => none
  | (digits, rest) => some (Text.digitsValue digits, rest)

def numberIn (width least greatest : Nat) : Reader Nat := fun chars => do
  let (value, rest) ← number width chars
  if least ≤ value ∧ value ≤ greatest then some (value, rest) else none

def mark (char : Char) : Reader Unit := fun chars =>
  match skipBlanks chars with
  | next :: rest => if next = char then some ((), rest) else none
  | [] => none

/-- Digits right after a sign; blanks are not skipped there. -/
def signedDigits (chars : List Char) : Option (Nat × List Char) :=
  match Text.takeDigits chars.length chars with
  | ([], _) => none
  | (digits, rest) => some (Text.digitsValue digits, rest)

/-- Without a sign a year has at most four digits. -/
def year : Reader Int := fun chars =>
  match skipBlanks chars with
  | '-' :: rest => (signedDigits rest).map fun (value, rest) => (-(value : Int), rest)
  | '+' :: rest => (signedDigits rest).map fun (value, rest) => ((value : Int), rest)
  | chars => (number 4 chars).map fun (value, rest) => ((value : Int), rest)

def date : Reader Date := fun chars => do
  let (year, chars) ← year chars
  let (_, chars) ← mark '-' chars
  let (month, chars) ← numberIn 2 1 12 chars
  let (_, chars) ← mark '-' chars
  let (day, chars) ← numberIn 2 1 31 chars
  let date ← Date.ofParts? year month day
  some (date, chars)

end Calendar

/-- A date in a text of its own; only blanks may follow it. -/
def Date.read? (text : String) : Option Date := do
  let (date, rest) ← Calendar.date text.toList
  if (Calendar.skipBlanks rest).isEmpty then some date else none

end StratifiedSampling
