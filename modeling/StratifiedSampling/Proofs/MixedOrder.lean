import StratifiedSampling.Proofs.ExactDoubles
import StratifiedSampling.Proofs.ValueOrder

/-! The order of values of all types. A coarse order, in which a whole number stands for the
double nearest to it, is total; two whole numbers of one double are told apart after that. The
order is transitive but for them: a double that two whole numbers are rounded to is equal to
both, in whichever order they stand. -/

namespace StratifiedSampling

namespace Double

theorem ofInt_eq (whole : Int) : ofInt whole = ofRat whole := by
  have signs : decide (whole < 0) = decide ((whole : Rat) < 0) := by
    rw [decide_eq_decide]
    exact_mod_cast Iff.rfl
  rw [ofInt, ofRat, signs, Rat.num_intCast, Rat.den_intCast]

theorem rank_ofInt_mono {low high : Int} (ordered : low ≤ high) : (ofInt low).rank ≤ (ofInt high).rank := by
  rw [ofInt_eq, ofInt_eq]
  exact rank_ofRat_mono (by exact_mod_cast ordered)

/-- Doubles hold the whole numbers up to two to the power 53. -/
theorem toRat?_ofInt {whole : Int} (small : whole.natAbs ≤ 2 ^ 53) : (ofInt whole).toRat? = some (whole : Rat) := by
  have size : |(whole : Rat)| = (whole.natAbs : Rat) := by rw [← Int.cast_abs, Int.abs_eq_natAbs, Int.cast_natCast]
  rw [ofInt_eq]
  rcases Nat.lt_or_eq_of_le small with below | last
  · have exact : Exact (whole : Rat) whole.natAbs 0 := ⟨by rw [size, zpow_zero, mul_one], below, by decide, by decide⟩
    exact exact.toRat?_ofRat
  · have exact : Exact (whole : Rat) 1 53 := by
      constructor
      case size =>
        rw [size, last]
        norm_num
      all_goals decide
    exact exact.toRat?_ofRat

theorem rank_ofInt_injective {first second : Int} (firstSmall : first.natAbs ≤ 2 ^ 53)
    (secondSmall : second.natAbs ≤ 2 ^ 53) (same : (ofInt first).rank = (ofInt second).rank) : first = second := by
  have firstFound := toRat?_ofInt firstSmall
  have secondFound := toRat?_ofInt secondSmall
  have low : (first : Rat) ≤ second := toRat?_mono same.le firstFound secondFound
  have high : (second : Rat) ≤ first := toRat?_mono same.ge secondFound firstFound
  exact_mod_cast le_antisymm low high

end Double

namespace Value

/-- The place of a value among those of its rank, a whole number in that of its double. -/
def coarsePlace : Value → List Rat
  | int64 value => [(Double.ofInt value.toInt).rank]
  | value => value.sortKey.tail

def coarseOrder (left right : Value) : Ordering :=
  List.compareLex compare ((left.typeRank : Rat) :: left.coarsePlace) ((right.typeRank : Rat) :: right.coarsePlace)

instance : Std.TransCmp coarseOrder where
  eq_swap := by
    intro left right
    exact Std.OrientedCmp.eq_swap (α := List Rat)
  isLE_trans := by
    intro first second third before after
    exact Std.TransCmp.isLE_trans (α := List Rat) before after

/-- Two whole numbers by themselves; other values are all alike. -/
def wholeOrder : Value → Value → Ordering
  | int64 left, int64 right => compare left.toInt right.toInt
  | _, _ => .eq

theorem coarseOrder_eq (left right : Value) : left.coarseOrder right =
    (compare left.typeRank right.typeRank).then (List.compareLex compare left.coarsePlace right.coarsePlace) := by
  rw [coarseOrder, List.compareLex_cons_cons, compare_natCast]

theorem order_of_typeRank_ne {left right : Value} (apart : left.typeRank ≠ right.typeRank) :
    left.order right = compare left.typeRank right.typeRank := by
  cases left <;> cases right <;> first | rfl | exact absurd rfl apart

theorem compareLex_single (left right : Int) :
    List.compareLex compare [(left : Rat)] [(right : Rat)] = compare left right := by
  rw [List.compareLex_cons_cons, List.compareLex_nil_nil, Ordering.then_eq, compare_intCast]

/-- Whole numbers in order have doubles in order, so that the doubles may be compared first. -/
theorem compare_wholes (left right : Int) : compare left right =
    (List.compareLex compare [((Double.ofInt left).rank : Rat)] [((Double.ofInt right).rank : Rat)]).then
      (compare left right) := by
  rw [compareLex_single]
  rcases Int.lt_trichotomy left right with less | same | more
  · rw [Int.compare_eq_lt.mpr less]
    rcases Int.lt_or_eq_of_le (Double.rank_ofInt_mono less.le) with below | level
    · rw [Int.compare_eq_lt.mpr below]
      rfl
    · rw [level, compare_self_eq]
      rfl
  · rw [same, compare_self_eq, compare_self_eq]
    rfl
  · rw [Int.compare_eq_gt.mpr more]
    rcases Int.lt_or_eq_of_le (Double.rank_ofInt_mono more.le) with below | level
    · rw [Int.compare_eq_gt.mpr below]
      rfl
    · rw [level, compare_self_eq]
      rfl

theorem wholeOrder_of_ne {left right : Value} (mixed : left.dataType ≠ .int64 ∨ right.dataType ≠ .int64) :
    left.wholeOrder right = .eq := by
  cases left <;> cases right <;> first | rfl | simp [dataType] at mixed

/-- Values of one type other than whole numbers keep the places that they have in a column. -/
theorem order_of_dataType_eq {left right : Value} (typed : left.dataType = right.dataType)
    (other : left.dataType ≠ .int64) :
    left.order right = List.compareLex compare left.coarsePlace right.coarsePlace := by
  have keyed : left.order right = left.keyOrder right := order_eq_keyOrder (.inr rfl) (.inr typed.symm)
  have first : ∀ lefts rights : List Rat,
      List.compareLex compare (0 :: lefts) (0 :: rights) = List.compareLex compare lefts rights := by
    intro lefts rights
    rw [List.compareLex_cons_cons, compare_self_eq, Ordering.eq_then]
  rw [keyed, keyOrder]
  cases left <;> cases right <;> cases typed
  case int64.int64.refl => exact absurd rfl other
  case null.null.refl => rfl
  all_goals exact first _ _

/-- Values of one rank are ordered by their places there, and whole numbers of one place by themselves. -/
theorem order_of_typeRank_eq {left right : Value} (same : left.typeRank = right.typeRank) :
    left.order right = (List.compareLex compare left.coarsePlace right.coarsePlace).then (left.wholeOrder right) := by
  by_cases wholes : left.dataType = .int64 ∧ right.dataType = .int64
  · obtain ⟨leftWhole, rightWhole⟩ := wholes
    cases left <;> cases leftWhole
    cases right <;> cases rightWhole
    exact compare_wholes _ _
  rw [wholeOrder_of_ne (not_and_or.mp wholes), Ordering.then_eq]
  by_cases typed : left.dataType = right.dataType
  · exact order_of_dataType_eq typed fun leftWhole => wholes ⟨leftWhole, typed ▸ leftWhole⟩
  · -- Only a whole number and a double have one rank and two types.
    cases left <;> cases right <;> cases same <;> first | exact (compareLex_single _ _).symm | exact absurd rfl typed

theorem order_eq_then (left right : Value) :
    left.order right = (left.coarseOrder right).then (left.wholeOrder right) := by
  rw [coarseOrder_eq]
  by_cases same : left.typeRank = right.typeRank
  · rw [order_of_typeRank_eq same, same, compare_self_eq, Ordering.eq_then]
  · rw [order_of_typeRank_ne same]
    rcases Nat.lt_or_gt_of_ne same with below | above
    · rw [Nat.compare_eq_lt.mpr below]
      rfl
    · rw [Nat.compare_eq_gt.mpr above]
      rfl

theorem order_swap (left right : Value) : left.order right = (right.order left).swap := by
  have coarse : left.coarseOrder right = (right.coarseOrder left).swap := Std.OrientedCmp.eq_swap
  have turned : ∀ low high : Int, compare low high = (compare high low).swap := fun _ _ => Std.OrientedCmp.eq_swap
  have wholes : left.wholeOrder right = (right.wholeOrder left).swap := by
    cases left <;> cases right <;> first | rfl | exact turned _ _
  rw [order_eq_then, order_eq_then, Ordering.swap_then, coarse, wholes]

/-- Two whole numbers that fall, and between them a double that both of them are rounded to. -/
inductive Blurred : Value → Value → Value → Prop
  | between {high low : Int64} {double : Double} (falls : low.toInt < high.toInt)
      (above : (Double.ofInt high.toInt).same double = true) (below : double.same (Double.ofInt low.toInt) = true) :
      Blurred (.int64 high) (.float64 double) (.int64 low)

/-- A value up to which doubles hold all whole numbers, or no whole number. -/
def Small (value : Value) : Prop :=
  ∀ whole : Int64, value = .int64 whole → whole.toInt.natAbs ≤ 2 ^ 53

theorem small_int64 {whole : Int64} (size : whole.toInt.natAbs ≤ 2 ^ 53) : (Value.int64 whole).Small := by
  intro other same
  cases same
  exact size

section Triples
variable {first middle last : Value}

theorem Blurred.orders (blurred : Blurred first middle last) :
    first.order middle = .eq ∧ middle.order last = .eq ∧ first.order last = .gt := by
  obtain ⟨falls, above, below⟩ := blurred
  rw [Double.same, beq_iff_eq] at above below
  refine ⟨?_, ?_, Int.compare_eq_gt.mpr falls⟩
  · rw [order, Double.order, above, compare_self_eq]
  · rw [order, Double.order, below, compare_self_eq]

theorem Blurred.not_small (blurred : Blurred first middle last) (firstSmall : first.Small) : ¬last.Small := by
  obtain ⟨falls, above, below⟩ := blurred
  rw [Double.same, beq_iff_eq] at above below
  intro lastSmall
  have same := Double.rank_ofInt_injective (firstSmall _ rfl) (lastSmall _ rfl) (above.trans below)
  omega

theorem wholeOrder_eq_gt {left right : Value} (above : left.wholeOrder right = .gt) :
    ∃ high low : Int64, left = .int64 high ∧ right = .int64 low ∧ low.toInt < high.toInt := by
  cases left <;> cases right <;> try cases above
  case int64.int64 high low => exact ⟨high, low, rfl, rfl, Int.compare_eq_gt.mp above⟩

/-- A value in the place of a whole number is one itself or a double that it is rounded to. -/
theorem coarseOrder_int64 {whole : Int64} {value : Value} (level : (Value.int64 whole).coarseOrder value = .eq) :
    (∃ other, value = .int64 other) ∨ ∃ double, value = .float64 double ∧
      (Double.ofInt whole.toInt).rank = double.rank := by
  rw [coarseOrder_eq, Ordering.then_eq_eq, Nat.compare_eq_eq] at level
  obtain ⟨ranks, places⟩ := level
  cases value <;> cases ranks
  case int64.refl other => exact .inl ⟨other, rfl⟩
  case float64.refl double =>
    have level := (compareLex_single (Double.ofInt whole.toInt).rank double.rank).symm.trans places
    exact .inr ⟨double, rfl, Int.compare_eq_eq.mp level⟩

/-- Two steps up that lead back down stay in one place, that of two whole numbers. -/
theorem blurred_of_gt (before : (first.order middle).isLE = true) (after : (middle.order last).isLE = true)
    (back : first.order last = .gt) : Blurred first middle last := by
  have coarseBefore : (first.coarseOrder middle).isLE = true := by
    rw [order_eq_then] at before
    exact Ordering.isLE_left_of_isLE_then before
  have coarseAfter : (middle.coarseOrder last).isLE = true := by
    rw [order_eq_then] at after
    exact Ordering.isLE_left_of_isLE_then after
  have through : (first.coarseOrder last).isLE = true := Std.TransCmp.isLE_trans coarseBefore coarseAfter
  obtain ⟨level, falls⟩ : first.coarseOrder last = .eq ∧ first.wholeOrder last = .gt := by
    rw [order_eq_then] at back
    cases coarse : first.coarseOrder last <;> rw [coarse] at back through
    · cases back
    · exact ⟨rfl, back⟩
    · cases through
  obtain ⟨high, low, rfl, rfl, below⟩ := wholeOrder_eq_gt falls
  have levelBefore : (Value.int64 high).coarseOrder middle = .eq := by
    apply Std.OrientedCmp.isLE_antisymm coarseBefore
    apply Std.TransCmp.isLE_trans coarseAfter
    rw [Std.OrientedCmp.eq_symm level]
    rfl
  have levelAfter : (Value.int64 low).coarseOrder middle = .eq :=
    Std.TransCmp.eq_trans (Std.OrientedCmp.eq_symm level) levelBefore
  rcases coarseOrder_int64 levelBefore with ⟨other, rfl⟩ | ⟨double, rfl, above⟩
  · -- Three whole numbers are in the order of numbers.
    rw [order, Int.isLE_compare] at before after
    omega
  · rcases coarseOrder_int64 levelAfter with ⟨other, same⟩ | ⟨_, same, under⟩
    · cases same
    · cases same
      exact .between below (beq_iff_eq.mpr above) (beq_iff_eq.mpr under.symm)

theorem isLE_iff_not_blurred (before : (first.order middle).isLE = true) (after : (middle.order last).isLE = true) :
    (first.order last).isLE = true ↔ ¬Blurred first middle last := by
  constructor
  · intro up blurred
    rw [blurred.orders.2.2] at up
    cases up
  · intro clear
    rw [Ordering.isLE_iff_ne_gt]
    exact fun back => clear (blurred_of_gt before after back)

theorem eq_iff_not_blurred (before : first.order middle = .eq) (after : middle.order last = .eq) :
    first.order last = .eq ↔ ¬Blurred first middle last ∧ ¬Blurred last middle first := by
  have backBefore : last.order middle = .eq := by rw [order_swap, after]; rfl
  have backAfter : middle.order first = .eq := by rw [order_swap, before]; rfl
  have up : (first.order last).isLE = true ↔ ¬Blurred first middle last :=
    isLE_iff_not_blurred (Ordering.isLE_of_eq_eq before) (Ordering.isLE_of_eq_eq after)
  have down : (last.order first).isLE = true ↔ ¬Blurred last middle first :=
    isLE_iff_not_blurred (Ordering.isLE_of_eq_eq backBefore) (Ordering.isLE_of_eq_eq backAfter)
  rw [← up, ← down, order_swap last first]
  cases first.order last <;> decide

end Triples

/-- The order turns with its sides and puts NULL last. Two steps up are one step up, and two of
equal values one of equal values, unless a double stands between two whole numbers that are
both rounded to it, which is never so up to two to the power 53. -/
theorem order_total_unless_blurred (first middle last : Value) :
    first.order middle = (middle.order first).swap ∧
    (first.isNull = false → Value.null.order first = .gt) ∧
    ((first.order middle).isLE = true → (middle.order last).isLE = true →
      ((first.order last).isLE = true ↔ ¬Blurred first middle last)) ∧
    (first.order middle = .eq → middle.order last = .eq →
      (first.order last = .eq ↔ ¬Blurred first middle last ∧ ¬Blurred last middle first)) ∧
    (first.Small → last.Small → ¬Blurred first middle last) := by
  refine ⟨order_swap first middle, order_null, isLE_iff_not_blurred, eq_iff_not_blurred, ?_⟩
  intro firstSmall lastSmall blurred
  exact blurred.not_small firstSmall lastSmall

/-- Two to the power 53 as a double equals the whole numbers of that size and above it by one,
which are not equal. -/
theorem double_equals_two_wholes :
    (int64 9007199254740992).order (float64 ⟨0x4340000000000000⟩) = .eq ∧
    (float64 ⟨0x4340000000000000⟩).order (int64 9007199254740993) = .eq ∧
    (int64 9007199254740992).order (int64 9007199254740993) = .lt ∧
    ¬∀ first middle last : Value, (first.order middle).isLE = true → (middle.order last).isLE = true →
      (first.order last).isLE = true := by
  refine ⟨by decide +kernel, by decide +kernel, by decide +kernel, ?_⟩
  intro transitive
  have back := transitive (int64 9007199254740993) (float64 ⟨0x4340000000000000⟩) (int64 9007199254740992)
    (by decide +kernel) (by decide +kernel)
  exact absurd back (by decide +kernel)

/-- Below that size a double is in order with the whole numbers around it. -/
theorem double_among_small_wholes :
    ((int64 9007199254740991).order (float64 ⟨0x4340000000000000⟩)).isLE = true ∧
    ((float64 ⟨0x4340000000000000⟩).order (int64 9007199254740992)).isLE = true ∧
    ((int64 9007199254740991).order (int64 9007199254740992)).isLE = true := by
  have before : ((int64 9007199254740991).order (float64 ⟨0x4340000000000000⟩)).isLE = true := by decide +kernel
  have after : ((float64 ⟨0x4340000000000000⟩).order (int64 9007199254740992)).isLE = true := by decide +kernel
  obtain ⟨-, -, step, -, small⟩ := order_total_unless_blurred (int64 9007199254740991)
    (float64 ⟨0x4340000000000000⟩) (int64 9007199254740992)
  have firstSmall : (int64 9007199254740991).Small := small_int64 (by decide)
  have lastSmall : (int64 9007199254740992).Small := small_int64 (by decide)
  exact ⟨before, after, (step before after).mpr (small firstSmall lastSmall)⟩

end Value

end StratifiedSampling
