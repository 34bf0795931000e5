import Mathlib.Algebra.Order.Field.Basic
import Mathlib.Data.Rat.Cast.Order
import StratifiedSampling.Column
import StratifiedSampling.Value.Order

/-! The order of the values that a column can hold. Every value has a key, a list of rational
numbers, and values of one type are ordered as their keys are, the first difference deciding.
The order is therefore total on the values of a column, which it is not on all values: a whole
number and a double are compared as doubles, so that a double can equal two whole numbers. -/

namespace StratifiedSampling

theorem compare_self_eq {α : Type} [LinearOrder α] (item : α) : compare item item = .eq :=
  compare_eq_iff_eq.mpr rfl

theorem compare_intCast (left right : Int) : compare (left : Rat) (right : Rat) = compare left right := by
  rcases Int.lt_trichotomy left right with less | same | more
  · rw [Int.compare_eq_lt.mpr less, compare_lt_iff_lt]
    exact Int.cast_lt.mpr less
  · rw [same, compare_self_eq, compare_self_eq]
  · rw [Int.compare_eq_gt.mpr more, compare_gt_iff_gt]
    exact Int.cast_lt.mpr more

theorem compare_natCast (left right : Nat) : compare (left : Rat) (right : Rat) = compare left right := by
  rcases Nat.lt_trichotomy left right with less | same | more
  · rw [Nat.compare_eq_lt.mpr less, compare_lt_iff_lt]
    exact Nat.cast_lt.mpr less
  · rw [same, compare_self_eq, compare_self_eq]
  · rw [Nat.compare_eq_gt.mpr more, compare_gt_iff_gt]
    exact Nat.cast_lt.mpr more

namespace Decimal

/-- The number that a decimal stands for. -/
def toRat (number : Decimal) : Rat :=
  number.mantissa / 10 ^ number.scale

theorem order_eq_compare (left right : Decimal) : left.order right = compare left.toRat right.toRat := by
  have positive : ∀ scale : Nat, (0 : Rat) < 10 ^ scale := fun scale => pow_pos (by norm_num) scale
  have scaled : ∀ (mantissa : Int) (scale : Nat), ((mantissa * tenPow scale : Int) : Rat) = mantissa * 10 ^ scale := by
    intro mantissa scale
    simp [tenPow]
  -- Both sides brought over the product of the two powers of ten.
  have crossed : ∀ first second : Decimal, first.toRat < second.toRat ↔
      first.mantissa * (10 : Rat) ^ second.scale < second.mantissa * 10 ^ first.scale := by
    intro first second
    exact div_lt_div_iff₀ (positive _) (positive _)
  rw [Decimal.order, ← compare_intCast, scaled, scaled]
  rcases lt_trichotomy left.toRat right.toRat with less | same | more
  · rw [compare_lt_iff_lt.mpr less, compare_lt_iff_lt]
    exact (crossed left right).mp less
  · rw [same, compare_self_eq, compare_eq_iff_eq]
    have products := (div_eq_div_iff (positive left.scale).ne' (positive right.scale).ne').mp same
    exact products
  · rw [compare_gt_iff_gt.mpr more, compare_gt_iff_gt]
    exact (crossed right left).mp more

end Decimal

namespace Value

/-- What a value is ordered by among values of its type. The first number puts NULL last. -/
def sortKey : Value → List Rat
  | null => [1]
  | bool value => [0, if value then 1 else 0]
  | int64 value => [0, value.toInt]
  | float64 value => [0, value.rank]
  | numeric value => [0, value.toRat]
  | string value => 0 :: value.toList.map fun char => (char.toNat : Rat)
  | bytes value => 0 :: value.map fun byte => (byte.toNat : Rat)
  | date value => [0, value.dayNumber]
  | timestamp value => [0, value.seconds, value.nanoseconds]

def keyOrder (left right : Value) : Ordering :=
  List.compareLex compare left.sortKey right.sortKey

instance : Std.TransCmp keyOrder where
  eq_swap := by
    intro left right
    exact Std.OrientedCmp.eq_swap (α := List Rat)
  isLE_trans := by
    intro first second third before after
    exact Std.TransCmp.isLE_trans (α := List Rat) before after

/-- Values that a column of a type can hold. -/
def OfType (dataType : DataType) (value : Value) : Prop :=
  value = .null ∨ value.dataType = dataType

theorem eq_null {value : Value} (blank : value.isNull = true) : value = .null := by
  cases value <;> first | rfl | cases blank

theorem order_null {value : Value} (known : value.isNull = false) : null.order value = .gt := by
  cases value <;> first | rfl | cases known

theorem orderBools_eq (left right : Bool) :
    orderBools left right = compare (if left then (1 : Rat) else 0) (if right then 1 else 0) := by
  cases left <;> cases right <;> decide

/-- An order on lists that goes by codes of their items is that of the lists of codes. -/
theorem eq_compareLex {α : Type} (code : α → Nat) {order : List α → List α → Ordering} (none : order [] [] = .eq)
    (shorter : ∀ item rest, order [] (item :: rest) = .lt) (longer : ∀ item rest, order (item :: rest) [] = .gt)
    (cons : ∀ left lefts right rights, order (left :: lefts) (right :: rights) =
      (compare (code left) (code right)).then (order lefts rights)) (lefts rights : List α) :
    order lefts rights = List.compareLex compare (lefts.map fun item => (code item : Rat))
      (rights.map fun item => (code item : Rat)) := by
  induction lefts generalizing rights with
  | nil =>
    cases rights with
    | nil => exact none
    | cons right rights => exact shorter right rights
  | cons left lefts ih =>
    cases rights with
    | nil => exact longer left lefts
    | cons right rights =>
      rw [cons, List.map_cons, List.map_cons, List.compareLex_cons_cons, compare_natCast, ih]

theorem orderBytes_eq (lefts rights : List UInt8) :
    orderBytes lefts rights = List.compareLex compare (lefts.map fun byte => (byte.toNat : Rat))
      (rights.map fun byte => (byte.toNat : Rat)) :=
  eq_compareLex UInt8.toNat rfl (fun _ _ => rfl) (fun _ _ => rfl) (fun _ _ _ _ => rfl) lefts rights

theorem orderChars_eq (lefts rights : List Char) :
    orderChars lefts rights = List.compareLex compare (lefts.map fun char => (char.toNat : Rat))
      (rights.map fun char => (char.toNat : Rat)) :=
  eq_compareLex Char.toNat rfl (fun _ _ => rfl) (fun _ _ => rfl) (fun _ _ _ _ => rfl) lefts rights

theorem order_eq_keyOrder {dataType : DataType} {left right : Value} (leftTyped : left.OfType dataType)
    (rightTyped : right.OfType dataType) : left.order right = left.keyOrder right := by
  have first : ∀ lefts rights : List Rat,
      List.compareLex compare (0 :: lefts) (0 :: rights) = List.compareLex compare lefts rights := by
    intro lefts rights
    rw [List.compareLex_cons_cons, compare_self_eq, Ordering.eq_then]
  have single : ∀ left right : Rat, List.compareLex compare [left] [right] = compare left right := by
    intro left right
    rw [List.compareLex_cons_cons, List.compareLex_nil_nil, Ordering.then_eq]
  have above : compare (1 : Rat) 0 = .gt := by decide
  have below : compare (0 : Rat) 1 = .lt := by decide
  rcases leftTyped with rfl | leftType
  · cases right <;> simp [order, keyOrder, sortKey, List.compareLex_cons_cons, List.compareLex_nil_nil, above]
  rcases rightTyped with rfl | rightType
  · cases left <;> simp [order, keyOrder, sortKey, List.compareLex_cons_cons, List.compareLex_nil_nil, below]
  have sameType := leftType.trans rightType.symm
  clear leftType rightType
  cases left <;> cases right <;> cases sameType
  all_goals simp only [order, keyOrder, sortKey, first, single]
  case null.null.refl => rfl
  case bool.bool.refl left right => exact orderBools_eq left right
  case int64.int64.refl left right => exact (compare_intCast _ _).symm
  case float64.float64.refl left right => exact (compare_intCast _ _).symm
  case numeric.numeric.refl left right => exact left.order_eq_compare right
  case string.string.refl left right => exact orderChars_eq _ _
  case bytes.bytes.refl left right => exact orderBytes_eq _ _
  case date.date.refl left right => exact (compare_intCast _ _).symm
  case timestamp.timestamp.refl left right =>
    rw [List.compareLex_cons_cons, single, compare_intCast, compare_natCast]
    rfl

end Value

theorem Column.value_ofType (column : Column) (row : Nat) : (column.value row).OfType column.dataType := by
  have stored : ∀ {α : Type} (wrap : α → Value) (dataType : DataType) (cells : Cells α),
      (∀ value, (wrap value).dataType = dataType) →
      Value.OfType dataType (((cells.cell? row).map wrap).getD .null) := by
    intro α wrap dataType cells typed
    cases cells.cell? row with
    | none => exact .inl rfl
    | some value => exact .inr (typed value)
  cases column <;> exact stored _ _ _ fun _ => rfl

/-- The values of one column are ordered by their keys. -/
theorem Column.order_value (column : Column) (first second : Nat) :
    (column.value first).order (column.value second) = (column.value first).keyOrder (column.value second) :=
  Value.order_eq_keyOrder (column.value_ofType first) (column.value_ofType second)

end StratifiedSampling
