import StratifiedSampling.Proofs.CountBounds
import StratifiedSampling.Proofs.ExactDoubles

/-! Counts of products away from whole numbers. The tolerance around a whole number grows with the
number, so that a product a quarter or more away from every whole number is counted by its floor
and its ceiling while the numbers are below a quarter of a billion, with rounded steps as in exact
arithmetic. Further up the tolerance reaches such products and both counts are one whole number. -/

namespace StratifiedSampling.Counts

/-- A number at least a quarter away from every whole number. -/
def Apart (product : Rat) : Prop :=
  ∀ whole : Int, 1 / 4 ≤ |product - whole|

/-- A number in the middle half between a whole number and the next. -/
structure Midway (below : Nat) (value : Rat) : Prop where
  low : below + 1 / 4 ≤ value
  high : value ≤ below + 3 / 4

section Midway
variable {below : Nat} {value : Rat}

theorem Midway.apart (midway : Midway below value) : Apart value := by
  obtain ⟨low, high⟩ := midway
  intro whole
  rcases lt_or_ge (below : Int) whole with above | under
  · have step : (below : Rat) + 1 ≤ whole := by exact_mod_cast above
    exact le_abs.mpr (.inr (by linarith))
  · have step : (whole : Rat) ≤ below := by exact_mod_cast under
    exact le_abs.mpr (.inl (by linarith))

theorem Apart.exists_midway (apart : Apart value) (positive : 0 ≤ value) : ∃ below : Nat, Midway below value := by
  have start : 0 ≤ value.floor := Rat.le_floor_iff.mpr (by exact_mod_cast positive)
  obtain ⟨below, same⟩ := Int.eq_ofNat_of_zero_le start
  have low := Rat.floor_le value
  have high := @Rat.lt_floor value
  have fromBelow := apart below
  have fromAbove := apart (below + 1)
  rw [same] at low high
  push_cast at low high fromBelow fromAbove
  rw [abs_of_nonneg (by linarith)] at fromBelow
  rw [abs_of_nonpos (by linarith)] at fromAbove
  exact ⟨below, by linarith, by linarith⟩

theorem Midway.floor_eq (midway : Midway below value) : value.floor = below := by
  obtain ⟨low, high⟩ := midway
  have lower : (below : Int) ≤ value.floor := Rat.le_floor_iff.mpr (by push_cast; linarith)
  have upper : value.floor < below + 1 := Rat.floor_lt_iff.mpr (by push_cast; linarith)
  omega

theorem Midway.ceil_eq (midway : Midway below value) : value.ceil = below + 1 := by
  obtain ⟨low, high⟩ := midway
  have lower : (below : Int) < value.ceil := Rat.lt_ceil_iff.mpr (by push_cast; linarith)
  have upper : value.ceil ≤ below + 1 := Rat.ceil_le_iff.mpr (by push_cast; linarith)
  omega

/-- A result between the whole numbers that the product is between is counted like the product. -/
theorem counts_of_midway {round : Rat → Rat} {size : Nat} {proportion product : Rat} (midway : Midway below product)
    (within : product ≤ size) (result : Midway below (scaled round size proportion)) :
    (floorCount round size proportion : Int) = product.floor ∧
      (ceilRank round size proportion : Int) = product.ceil := by
  have start : (0 : Rat) ≤ below := Nat.cast_nonneg below
  have room : below < size := by
    have lower := midway.low
    exact_mod_cast (by linarith : (below : Rat) < size)
  have stop : (below : Rat) + 1 ≤ size := by exact_mod_cast room
  have low := result.low
  have high := result.high
  rw [floorCount_eq_floor (by linarith) (by linarith), ceilRank_eq_ceil (by omega) (by linarith), result.floor_eq,
    result.ceil_eq, midway.floor_eq, midway.ceil_eq]
  omega

end Midway

section Rounded
variable {below : Nat} {value : Rat}

/-- Doubles hold quarters. -/
theorem round_quarters {quarters : Nat} (small : quarters < 2 ^ 53) :
    Double.round (quarters / 4) = quarters / 4 := by
  have exact : Double.Exact (quarters / 4) quarters (-2) := by
    constructor
    case size =>
      rw [abs_of_nonneg (by positivity), div_eq_mul_inv]
      norm_num
    case digits => exact small
    all_goals decide
  exact exact.round_eq

theorem Midway.round (midway : Midway below value) (small : below < 2 ^ 50) : Midway below (Double.round value) := by
  have low := @round_quarters (4 * below + 1) (by omega)
  have high := @round_quarters (4 * below + 3) (by omega)
  push_cast at low high
  constructor
  · have kept := Double.round_mono (by linarith [midway.low] : ((4 * below + 1 : Rat)) / 4 ≤ value)
    rw [low] at kept
    linarith
  · have kept := Double.round_mono (by linarith [midway.high] : value ≤ ((4 * below + 3 : Rat)) / 4)
    rw [high] at kept
    linarith

/-- The tolerance around a whole number below a quarter of a billion is less than a quarter. -/
theorem tolerance_lt {whole : Nat} (small : whole < 250000000) : tolerance Double.round whole < 1 / 4 := by
  have unit : 0 ≤ Double.round (1 / 1000000000) ∧ Double.round (1 / 1000000000) ≤ 1 / 999999999 := by decide +kernel
  have reach : max 1 (whole : Rat) ≤ 249999999 :=
    max_le (by norm_num) (by exact_mod_cast Nat.le_of_lt_succ small)
  have exact : Double.Exact (536870911 / 2147483648) 536870911 (-31) := by
    constructor
    case size =>
      rw [abs_of_nonneg (by norm_num)]
      norm_num
    all_goals decide
  have product : Double.round (1 / 1000000000) * max 1 (whole : Rat) ≤ 536870911 / 2147483648 := by
    calc Double.round (1 / 1000000000) * max 1 (whole : Rat)
        ≤ Double.round (1 / 1000000000) * 249999999 := mul_le_mul_of_nonneg_left reach unit.1
      _ ≤ 1 / 999999999 * 249999999 := mul_le_mul_of_nonneg_right unit.2 (by norm_num)
      _ ≤ 536870911 / 2147483648 := by norm_num
  have rounded := Double.round_mono product
  rw [exact.round_eq] at rounded
  rw [tolerance_whole]
  linarith

/-- Whole numbers are a quarter away from a number midway between two, and rounding sees it. -/
theorem Midway.far (midway : Midway below value) (whole : Int) : 1 / 4 ≤ |Double.round (value - whole)| := by
  have quarter : Double.round (1 / 4) = 1 / 4 := by decide +kernel
  have back : Double.round (-(1 / 4)) = -(1 / 4) := by decide +kernel
  have apart := midway.apart whole
  rcases le_abs.mp apart with above | under
  · have kept := Double.round_mono above
    rw [quarter] at kept
    exact le_abs.mpr (.inl kept)
  · have kept := Double.round_mono (le_neg.mp under)
    rw [back] at kept
    exact le_abs.mpr (.inr (le_neg.mpr kept))

/-- Rounded steps keep a product between its whole numbers. -/
theorem scaled_midway {size : Nat} {proportion : Rat} (counted : size < 2 ^ 53) (small : below < 249999999)
    (midway : Midway below (size * proportion)) : Midway below (scaled Double.round size proportion) := by
  have sized : Double.round size = size := by
    have exact : Double.Exact (size : Rat) size 0 :=
      ⟨by rw [Nat.abs_cast, zpow_zero, mul_one], counted, by decide, by decide⟩
    exact exact.round_eq
  have rounded := midway.round (by omega)
  rw [scaled_eq, sized]
  generalize Double.round (size * proportion) = product at rounded
  have low := rounded.low
  have high := rounded.high
  have start : (0 : Rat) ≤ below := Nat.cast_nonneg below
  have stop : product ≤ ((below + 1 : Nat) : Rat) := by
    push_cast
    linarith
  obtain ⟨whole, same, bound⟩ := nearestWhole_within (by linarith) stop
  have tolerated := @tolerance_lt whole (by omega)
  have far := rounded.far whole
  rw [Int.cast_natCast] at far
  rw [snapped, same, absolute_eq_abs, if_neg (not_le.mpr (by linarith))]
  exact rounded

end Rounded

section Exact
variable {size below : Nat} {proportion : Rat}

theorem tolerance_id {whole : Nat} (filled : 1 ≤ whole) : tolerance id whole = whole / 1000000000 := by
  rw [tolerance_whole, max_eq_right (by exact_mod_cast filled)]
  simp only [id]
  ring

/-- A product midway between whole numbers is moved to its nearest one exactly if a billionth of
that number reaches it. -/
theorem scaled_of_midway (midway : Midway below (size * proportion)) {whole : Nat}
    (nearest : nearestWhole (size * proportion) = whole) : scaled id size proportion =
      if |size * proportion - whole| ≤ whole / 1000000000 then (whole : Rat) else size * proportion := by
  have away := midway.apart whole
  rw [Int.cast_natCast] at away
  rw [scaled_eq]
  simp only [id, snapped, nearest, absolute_eq_abs]
  rcases Nat.eq_zero_or_pos whole with rfl | filled
  · have reach : tolerance id ((0 : Nat) : Rat) = 1 / 1000000000 := by decide +kernel
    rw [reach, if_neg (by linarith), if_neg (by push_cast at away ⊢; linarith)]
  · rw [tolerance_id filled]

theorem counts_of_reached {whole : Nat} (filled : 1 ≤ whole)
    (bound : whole ≤ size) (moved : scaled id size proportion = whole) :
    floorCount id size proportion = whole ∧ ceilRank id size proportion = whole := by
  have most : (whole : Rat) ≤ size := Nat.cast_le.mpr bound
  have counted := @floorCount_eq_floor id size proportion (moved ▸ Nat.cast_nonneg whole) (moved ▸ most)
  have ranked := @ceilRank_eq_ceil id size proportion (by omega) (moved ▸ most)
  have floored : (whole : Rat).floor = whole := by exact_mod_cast Rat.floor_intCast whole
  have ceiled : (whole : Rat).ceil = whole := by exact_mod_cast Rat.ceil_intCast whole
  rw [moved, floored] at counted
  rw [moved, ceiled] at ranked
  omega

/-- Exact arithmetic counts a product by its floor and its ceiling exactly if the tolerance of its
nearest whole number does not reach it. -/
theorem exact_counts (midway : Midway below (size * proportion)) (nonnegative : 0 ≤ size * proportion)
    (within : size * proportion ≤ size) : ∃ whole : Nat, |size * proportion - whole| ≤ 1 / 2 ∧
      (whole / 1000000000 < |size * proportion - whole| →
        (floorCount id size proportion : Int) = (size * proportion).floor ∧
          (ceilRank id size proportion : Int) = (size * proportion).ceil) ∧
      (|size * proportion - whole| ≤ whole / 1000000000 →
        floorCount id size proportion = whole ∧ ceilRank id size proportion = whole) := by
  obtain ⟨whole, nearest, bound⟩ := nearestWhole_within nonnegative within
  obtain ⟨other, alike, low, high⟩ := nearestWhole_spec (size * proportion)
  rw [← alike, nearest] at low high
  have moved := scaled_of_midway midway nearest
  refine ⟨whole, abs_le.mpr ⟨by linarith, by linarith⟩, ?_, ?_⟩
  · intro beyond
    rw [if_neg (not_le.mpr beyond)] at moved
    exact counts_of_midway midway within (moved ▸ midway)
  · intro reached
    have away := midway.apart whole
    rw [Int.cast_natCast] at away
    have filled : 1 ≤ whole := by
      exact_mod_cast (by linarith : (0 : Rat) < whole)
    rw [if_pos reached] at moved
    exact counts_of_reached filled bound moved

end Exact

/-- A product away from whole numbers is counted by its floor and its ceiling if it is below a
quarter of a billion. In exact arithmetic it is so counted exactly if a billionth of the nearest
whole number does not reach the product; if it does, that whole number is both counts. -/
theorem counts_of_apart {size : Nat} (counted : size < 2 ^ 53) {proportion : Double}
    (proper : isProportion proportion = true) :
    ∃ exact : Rat, proportion.toRat? = some exact ∧ (Apart (size * exact) →
      (size * exact < 249999999 → (drawCount size proportion : Int) = (size * exact).floor ∧
        (nearestRank size proportion : Int) = (size * exact).ceil) ∧
      ∃ whole : Nat, |size * exact - whole| ≤ 1 / 2 ∧
        (whole / 1000000000 < |size * exact - whole| → (floorCount id size exact : Int) = (size * exact).floor ∧
          (ceilRank id size exact : Int) = (size * exact).ceil) ∧
        (|size * exact - whole| ≤ whole / 1000000000 → floorCount id size exact = whole ∧
          ceilRank id size exact = whole)) := by
  obtain ⟨exact, found, positive, most⟩ := isProportion_eq_true proper
  refine ⟨exact, found, fun apart => ?_⟩
  have count : (0 : Rat) ≤ size := Nat.cast_nonneg size
  have nonnegative : 0 ≤ size * exact := mul_nonneg count positive.le
  have within : size * exact ≤ size := mul_le_of_le_one_right count most
  obtain ⟨below, midway⟩ := apart.exists_midway nonnegative
  refine ⟨?_, exact_counts midway nonnegative within⟩
  intro small
  have low := midway.low
  have bound : below < 249999999 := by exact_mod_cast (by linarith : (below : Rat) < 249999999)
  rw [drawCount, nearestRank, found]
  exact counts_of_midway midway within (scaled_midway counted bound midway)

/-- The half of a billion and one rows, and the quarter of two billion four hundred million and one,
are away from whole numbers. The tolerance of their nearest whole numbers reaches them: one row
more than the floor is drawn, and the rank is one less than the ceiling. -/
theorem tolerance_reaches_half :
    Apart (1000000001 * (1 / 2)) ∧ (1000000001 * (1 / 2) : Rat).floor = 500000000 ∧
    drawCount 1000000001 ⟨0x3FE0000000000000⟩ = 500000001 ∧ floorCount id 1000000001 (1 / 2) = 500000001 ∧
    Apart (2400000001 * (1 / 4)) ∧ (2400000001 * (1 / 4) : Rat).ceil = 600000001 ∧
    nearestRank 2400000001 ⟨0x3FD0000000000000⟩ = 600000000 ∧ ceilRank id 2400000001 (1 / 4) = 600000000 := by
  have half : Midway 500000000 (1000000001 * (1 / 2)) := ⟨by norm_num, by norm_num⟩
  have quarter : Midway 600000000 (2400000001 * (1 / 4)) := ⟨by norm_num, by norm_num⟩
  refine ⟨half.apart, half.floor_eq, ?_, ?_, quarter.apart, quarter.ceil_eq, ?_, ?_⟩ <;> decide +kernel

/-- Just below the bound the half of the rows is counted by its floor and its ceiling. -/
theorem half_of_many_rows :
    drawCount 499999997 ⟨0x3FE0000000000000⟩ = 249999998 ∧ nearestRank 499999997 ⟨0x3FE0000000000000⟩ = 249999999 := by
  obtain ⟨exact, found, counts⟩ :=
    @counts_of_apart 499999997 (by decide) ⟨0x3FE0000000000000⟩ (by decide +kernel)
  have half : (⟨0x3FE0000000000000⟩ : Double).toRat? = some (1 / 2) := by decide +kernel
  rw [half, Option.some.injEq] at found
  subst found
  have midway : Midway 249999998 ((499999997 : Nat) * (1 / 2)) := ⟨by norm_num, by norm_num⟩
  obtain ⟨counted, ranked⟩ := (counts midway.apart).1 (by norm_num)
  rw [midway.floor_eq] at counted
  rw [midway.ceil_eq] at ranked
  omega

end StratifiedSampling.Counts
