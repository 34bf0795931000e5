import StratifiedSampling.Value.Basic

/-! The order and the equality of values. NULL is above everything and equal to itself.
Values of one type are ordered by what they stand for, whole numbers and doubles are
ordered together as doubles, and other values of two types by type. Equality is
stricter: values of two types are never equal. -/

namespace StratifiedSampling.Value

def typeRank : Value → Nat
  | bool _ => 0
  | int64 _ => 1
  | float64 _ => 1
  | numeric _ => 2
  | string _ => 3
  | bytes _ => 4
  | date _ => 5
  | timestamp _ => 6
  | null => 7

def orderBools : Bool → Bool → Ordering
  | false, true => .lt
  | true, false => .gt
  | _, _ => .eq

/-- Lexicographic; a list is above its own beginnings. -/
def orderBytes : List UInt8 → List UInt8 → Ordering
  | [], [] => .eq
  | [], _ :: _ => .lt
  | _ :: _, [] => .gt
  | left :: lefts, right :: rights => (compare left.toNat right.toNat).then (orderBytes lefts rights)

/-- Lexicographic by code point. -/
def orderChars : List Char → List Char → Ordering
  | [], [] => .eq
  | [], _ :: _ => .lt
  | _ :: _, [] => .gt
  | left :: lefts, right :: rights => (compare left.toNat right.toNat).then (orderChars lefts rights)

def order : Value → Value → Ordering
  | null, null => .eq
  | null, _ => .gt
  | _, null => .lt
  | bool left, bool right => orderBools left right
  | int64 left, int64 right => compare left.toInt right.toInt
  | float64 left, float64 right => left.order right
  | int64 left, float64 right => (Double.ofInt left.toInt).order right
  | float64 left, int64 right => left.order (Double.ofInt right.toInt)
  | numeric left, numeric right => left.order right
  | string left, string right => orderChars left.toList right.toList
  | bytes left, bytes right => orderBytes left right
  | date left, date right => compare left.dayNumber right.dayNumber
  | timestamp left, timestamp right => left.order right
  | left, right => compare left.typeRank right.typeRank

def same : Value → Value → Bool
  | null, null => true
  | bool left, bool right => left == right
  | int64 left, int64 right => left.toInt == right.toInt
  | float64 left, float64 right => left.same right
  | numeric left, numeric right => left.same right
  | string left, string right => left == right
  | bytes left, bytes right => left == right
  | date left, date right => left.dayNumber == right.dayNumber
  | timestamp left, timestamp right => left.seconds == right.seconds && left.nanoseconds == right.nanoseconds
  | _, _ => false

end StratifiedSampling.Value
