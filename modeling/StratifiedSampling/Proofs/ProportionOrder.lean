import Mathlib.Tactic.Linarith
import StratifiedSampling.Counts
import StratifiedSampling.Proofs.DoubleRounding

/-! A larger proportion never selects fewer rows. Rounding keeps order, and so does the move
to a whole number nearby: numbers near the same whole number are compared with one tolerance,
and numbers near different ones stay on their side of the half between them. -/

namespace StratifiedSampling.Counts

theorem absolute_eq_abs (value : Rat) : absolute value = |value| := by
  unfold absolute
  split
  next below => exact (abs_of_neg below).symm
  next above => exact (abs_of_nonneg (not_lt.mp above)).symm

/-- No number is further than a half from its nearest whole number. -/
theorem nearestWhole_spec (value : Rat) : ∃ whole : Int, nearestWhole value = whole ∧
    (whole : Rat) - 1 / 2 ≤ value ∧ value ≤ whole + 1 / 2 := by
  unfold nearestWhole
  split
  · have low := Rat.floor_le (-value + 1 / 2)
    have high := @Rat.lt_floor (-value + 1 / 2)
    refine ⟨-(-value + 1 / 2).floor, by push_cast; rfl, ?_, ?_⟩ <;> push_cast <;> linarith
  · have low := Rat.floor_le (value + 1 / 2)
    have high := @Rat.lt_floor (value + 1 / 2)
    exact ⟨(value + 1 / 2).floor, rfl, by linarith, by linarith⟩

/-- Nearest whole numbers are either the same or a half apart from the numbers between them. -/
theorem nearestWhole_cases {small large : Rat} (ordered : small ≤ large) : nearestWhole small = nearestWhole large ∨
    nearestWhole small + 1 / 2 ≤ nearestWhole large - 1 / 2 := by
  obtain ⟨lower, smallWhole, low, -⟩ := nearestWhole_spec small
  obtain ⟨upper, largeWhole, -, high⟩ := nearestWhole_spec large
  rcases Int.lt_trichotomy lower upper with less | same | more
  · have step : (lower : Rat) + 1 ≤ upper := by exact_mod_cast less
    rw [smallWhole, largeWhole]
    exact .inr (by linarith)
  · exact .inl (by rw [smallWhole, largeWhole, same])
  · -- Both numbers would be the half between the two.
    have step : (upper : Rat) + 1 ≤ lower := by exact_mod_cast more
    exact .inl (congrArg nearestWhole (le_antisymm ordered (by linarith)))

section Snap
variable {round : Rat → Rat} {small large : Rat}

/-- How far a product may lie from a whole number and be taken as that number. -/
def tolerance (round : Rat → Rat) (whole : Rat) : Rat :=
  round (round (1 / 1000000000) * (if absolute whole < 1 then 1 else absolute whole))

/-- A product, or the whole number that it is within the tolerance of. -/
def snapped (round : Rat → Rat) (product : Rat) : Rat :=
  if absolute (round (product - nearestWhole product)) ≤ tolerance round (nearestWhole product)
  then nearestWhole product else product

theorem snapped_bounds (round : Rat → Rat) (product : Rat) :
    nearestWhole product - 1 / 2 ≤ snapped round product ∧ snapped round product ≤ nearestWhole product + 1 / 2 := by
  obtain ⟨whole, same, low, high⟩ := nearestWhole_spec product
  rw [snapped, same]
  split
  · constructor <;> linarith
  · exact ⟨low, high⟩

theorem snapped_mono (monotone : ∀ {small large}, small ≤ large → round small ≤ round large) (zero : round 0 = 0)
    (ordered : small ≤ large) : snapped round small ≤ snapped round large := by
  rcases nearestWhole_cases ordered with same | apart
  · rw [snapped, snapped, same, absolute_eq_abs, absolute_eq_abs]
    split <;> split
    next => exact le_rfl
    next near far =>
      -- A number further from the whole number than a smaller one is above it.
      by_contra below
      have nearer : round (small - nearestWhole large) ≤ round (large - nearestWhole large) :=
        monotone (by linarith)
      have negative : round (large - nearestWhole large) ≤ 0 := zero ▸ monotone (by linarith)
      rw [abs_of_nonpos (nearer.trans negative)] at near
      rw [abs_of_nonpos negative] at far
      linarith
    next far near =>
      by_contra above
      have nearer : round (small - nearestWhole large) ≤ round (large - nearestWhole large) :=
        monotone (by linarith)
      have positive : 0 ≤ round (small - nearestWhole large) := zero ▸ monotone (by linarith)
      rw [abs_of_nonneg (positive.trans nearer)] at near
      rw [abs_of_nonneg positive] at far
      linarith
    next => exact ordered
  · exact ((snapped_bounds round small).2.trans apart).trans (snapped_bounds round large).1

/-- The tolerance of a product is the one of its nearest whole number. -/
theorem scaled_eq (round : Rat → Rat) (size : Nat) (proportion : Rat) :
    scaled round size proportion = snapped round (round (round size * proportion)) :=
  rfl

theorem scaled_mono (monotone : ∀ {small large}, small ≤ large → round small ≤ round large) (zero : round 0 = 0)
    {few many : Nat} (sizes : few ≤ many) (positive : 0 ≤ small) (ordered : small ≤ large) :
    scaled round few small ≤ scaled round many large := by
  have counted : round few ≤ round many := monotone (Nat.cast_le.mpr sizes)
  have present : 0 ≤ round many := zero ▸ monotone (Nat.cast_nonneg many)
  rw [scaled_eq, scaled_eq]
  apply snapped_mono monotone zero
  apply monotone
  calc round few * small ≤ round many * small := mul_le_mul_of_nonneg_right counted positive
    _ ≤ round many * large := mul_le_mul_of_nonneg_left ordered present

theorem floorCount_mono {few many : Nat} (sizes : few ≤ many)
    (products : scaled round few small ≤ scaled round many large) :
    floorCount round few small ≤ floorCount round many large :=
  min_le_min (Int.toNat_le_toNat (Rat.floor_monotone products)) sizes

theorem ceilRank_mono {few many : Nat} (sizes : few ≤ many)
    (products : scaled round few small ≤ scaled round many large) :
    ceilRank round few small ≤ ceilRank round many large := by
  have ceilings := Rat.ceil_le_iff.mpr (products.trans Rat.le_ceil)
  by_cases empty : few = 0
  · rw [ceilRank, if_pos empty]
    exact Nat.zero_le _
  · rw [ceilRank, ceilRank, if_neg empty, if_neg (by omega)]
    exact max_le_max_left _ (min_le_min (Int.toNat_le_toNat ceilings) sizes)

end Snap

section Order
variable {first second : Double} (firstValid : isProportion first = true) (secondValid : isProportion second = true)
  (ordered : first.rank ≤ second.rank) (size : Nat)

theorem isProportion_eq_true {proportion : Double} (valid : isProportion proportion = true) :
    ∃ exact : Rat, proportion.toRat? = some exact ∧ 0 < exact ∧ exact ≤ 1 := by
  unfold isProportion at valid
  split at valid
  next exact found => exact ⟨exact, found, of_decide_eq_true valid⟩
  next => exact absurd valid Bool.false_ne_true

include firstValid secondValid ordered in
theorem scaled_le_of_rank_le : ∃ small large : Rat, first.toRat? = some small ∧ second.toRat? = some large ∧
    scaled Double.round size small ≤ scaled Double.round size large := by
  obtain ⟨small, smallFound, positive, -⟩ := isProportion_eq_true firstValid
  obtain ⟨large, largeFound, -⟩ := isProportion_eq_true secondValid
  exact ⟨small, large, smallFound, largeFound, scaled_mono Double.round_mono Double.round_zero le_rfl positive.le
    (Double.toRat?_mono ordered smallFound largeFound)⟩

include firstValid secondValid ordered in
theorem drawCount_mono : drawCount size first ≤ drawCount size second := by
  obtain ⟨small, large, smallFound, largeFound, products⟩ := scaled_le_of_rank_le firstValid secondValid ordered size
  rw [drawCount, drawCount, smallFound, largeFound]
  exact floorCount_mono le_rfl products

include firstValid secondValid ordered in
theorem nearestRank_mono : nearestRank size first ≤ nearestRank size second := by
  obtain ⟨small, large, smallFound, largeFound, products⟩ := scaled_le_of_rank_le firstValid secondValid ordered size
  rw [nearestRank, nearestRank, smallFound, largeFound]
  exact ceilRank_mono le_rfl products

end Order

end StratifiedSampling.Counts
