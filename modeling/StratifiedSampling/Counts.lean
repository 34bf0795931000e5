import StratifiedSampling.Error
import StratifiedSampling.Number.DoubleText

/-! How many rows of a group a proportion selects. The product of size and proportion
is computed with some rounding; a product within the tolerance of a whole number is
taken as that number, so that seven tenths of ten rows are seven rows. Read with no
rounding at all the same definitions are exact rational arithmetic. -/

namespace StratifiedSampling.Counts

def nearestWhole (value : Rat) : Rat :=
  if value < 0 then -(((-value + 1 / 2).floor : Int) : Rat) else ((value + 1 / 2).floor : Int)

def absolute (value : Rat) : Rat :=
  if value < 0 then -value else value

/-- The product of a size and a proportion, each step rounded, then moved to a whole
number that lies within a billionth of its own size. -/
def scaled (round : Rat → Rat) (size : Nat) (proportion : Rat) : Rat :=
  let product := round (round size * proportion)
  let whole := nearestWhole product
  let reach := if absolute whole < 1 then 1 else absolute whole
  if absolute (round (product - whole)) ≤ round (round (1 / 1000000000) * reach) then whole else product

def floorCount (round : Rat → Rat) (size : Nat) (proportion : Rat) : Nat :=
  min (scaled round size proportion).floor.toNat size

/-- The position, counted from one, of the least row that covers the proportion. -/
def ceilRank (round : Rat → Rat) (size : Nat) (proportion : Rat) : Nat :=
  if size = 0 then 0 else max 1 (min (scaled round size proportion).ceil.toNat size)

/-- The draws taken from a group. An infinite proportion takes as many draws as rows. -/
def drawCount (size : Nat) (proportion : Double) : Nat :=
  match proportion.toRat? with
  | some exact => floorCount Double.round size exact
  | none => if !proportion.isNaN && !proportion.negative then size else 0

/-- The rank of the proportion's quantile in a group, from one unless the group is empty. -/
def nearestRank (size : Nat) (proportion : Double) : Nat :=
  match proportion.toRat? with
  | some exact => ceilRank Double.round size exact
  | none => if !proportion.isNaN && !proportion.negative then size else min 1 size

def isProportion (proportion : Double) : Bool :=
  match proportion.toRat? with
  | some exact => decide (0 < exact ∧ exact ≤ 1)
  | none => false

def checkProportion (proportion : Double) : Except Error Unit :=
  if isProportion proportion then .ok ()
  else .error (.invalidArgument ("proportion must be in (0, 1], got " ++ proportion.display))

end StratifiedSampling.Counts
