import StratifiedSampling.Proofs.ProportionOrder

/-! The counts of exact arithmetic. The move to a nearby whole number shifts a product by no more
than a billionth of the size and never past a half, so that the count of draws and the rank stay
on both sides of the product, and next to each other. -/

namespace StratifiedSampling.Counts

section Scaled
variable {round : Rat → Rat} {size : Nat} {proportion : Rat}

/-- A number of rows up to the size of the group is not cut down. -/
theorem floorCount_eq_floor (nonnegative : 0 ≤ scaled round size proportion)
    (within : scaled round size proportion ≤ size) :
    (floorCount round size proportion : Int) = (scaled round size proportion).floor := by
  have low : 0 ≤ (scaled round size proportion).floor := Rat.le_floor_iff.mpr (by exact_mod_cast nonnegative)
  have high : ((scaled round size proportion).floor : Rat) ≤ size := (Rat.floor_le _).trans within
  have bound : (scaled round size proportion).floor ≤ size := by exact_mod_cast high
  rw [floorCount]
  omega

theorem ceilRank_eq_ceil (filled : 1 ≤ size) (within : scaled round size proportion ≤ size) :
    (ceilRank round size proportion : Int) = max 1 (scaled round size proportion).ceil := by
  have bound : (scaled round size proportion).ceil ≤ size := Rat.ceil_le_iff.mpr (by exact_mod_cast within)
  rw [ceilRank, if_neg (by omega)]
  omega

end Scaled

theorem tolerance_whole (round : Rat → Rat) (whole : Nat) :
    tolerance round whole = round (round (1 / 1000000000) * max 1 (whole : Rat)) := by
  rw [tolerance, absolute_eq_abs, Nat.abs_cast]
  split
  next below => rw [max_eq_left below.le]
  next above => rw [max_eq_right (not_lt.mp above)]

section Exact
variable {size : Nat} {proportion : Rat}

/-- Between nothing and a size the nearest whole number is there as well. -/
theorem nearestWhole_within {product : Rat} (nonnegative : 0 ≤ product) (within : product ≤ size) :
    ∃ whole : Nat, nearestWhole product = whole ∧ whole ≤ size := by
  obtain ⟨whole, same, low, high⟩ := nearestWhole_spec product
  have above : (-1 : Rat) < whole := by linarith
  have below : (whole : Rat) < size + 1 := by linarith
  have start : -1 < whole := by exact_mod_cast above
  have stop : whole < size + 1 := by exact_mod_cast below
  obtain ⟨count, rfl⟩ := Int.eq_ofNat_of_zero_le (by omega : 0 ≤ whole)
  exact ⟨count, by rw [same, Int.cast_natCast], by omega⟩

theorem tolerance_le (filled : 1 ≤ size) {whole : Nat} (within : whole ≤ size) :
    tolerance id whole ≤ size / 1000000000 := by
  have reach : max 1 (whole : Rat) ≤ size := max_le (by exact_mod_cast filled) (Nat.cast_le.mpr within)
  rw [tolerance_whole]
  simp only [id]
  linarith

/-- What a product comes to: the product itself, or a whole number close to it. -/
structure Near (size : Nat) (product result : Rat) : Prop where
  nonnegative : 0 ≤ result
  within : result ≤ size
  close : |result - product| ≤ size / 1000000000
  whole : result = product ∨ ∃ whole : Int, result = whole ∧ |result - product| ≤ 1 / 2

theorem scaled_near (filled : 1 ≤ size) (positive : 0 < proportion) (proper : proportion ≤ 1) :
    Near size (size * proportion) (scaled id size proportion) := by
  have count : (0 : Rat) ≤ size := Nat.cast_nonneg size
  have nonnegative : 0 ≤ size * proportion := mul_nonneg count positive.le
  have within : size * proportion ≤ size := mul_le_of_le_one_right count proper
  obtain ⟨whole, same, bound⟩ := nearestWhole_within nonnegative within
  obtain ⟨other, alike, low, high⟩ := nearestWhole_spec (size * proportion)
  rw [← alike, same] at low high
  rw [scaled_eq]
  simp only [id, snapped, same, absolute_eq_abs]
  split
  next close =>
    rw [abs_sub_comm] at close
    exact ⟨Nat.cast_nonneg whole, Nat.cast_le.mpr bound, close.trans (tolerance_le filled bound),
      .inr ⟨whole, (Int.cast_natCast whole).symm, abs_le.mpr ⟨by linarith, by linarith⟩⟩⟩
  next far =>
    refine ⟨nonnegative, within, ?_, .inl rfl⟩
    rw [sub_self, abs_zero]
    exact div_nonneg count (by norm_num)

/-- The count and the rank of a product: next to each other, the rank that of a row, and both
within a billionth of the size of the product on its other side. -/
structure Bracketed (size : Nat) (product : Rat) (count rank : Nat) : Prop where
  ordered : count ≤ rank
  adjacent : rank ≤ count + 1
  first : 1 ≤ rank
  last : rank ≤ size
  above : product - 1 < count
  notAbove : count ≤ product + size / 1000000000
  notBelow : product - size / 1000000000 ≤ rank
  below : rank < product + 1

theorem Near.lt_floor {product result : Rat} (near : Near size product result) : product - 1 < result.floor := by
  rcases near.whole with rfl | ⟨whole, rfl, half⟩
  · exact Rat.lt_floor
  · obtain ⟨low, -⟩ := abs_le.mp half
    rw [Rat.floor_intCast]
    linarith

theorem Near.ceil_lt {product result : Rat} (near : Near size product result) : result.ceil < product + 1 := by
  rcases near.whole with rfl | ⟨whole, rfl, half⟩
  · exact Rat.ceil_lt
  · obtain ⟨-, high⟩ := abs_le.mp half
    rw [Rat.ceil_intCast]
    linarith

theorem Near.bracketed {product result : Rat} (near : Near size product result) (filled : 1 ≤ size)
    (positive : 0 < product) {count rank : Nat} (counted : (count : Int) = result.floor)
    (ranked : (rank : Int) = max 1 result.ceil) : Bracketed size product count rank := by
  obtain ⟨closeLow, closeHigh⟩ := abs_le.mp near.close
  have order : result.floor ≤ result.ceil := by exact_mod_cast (Rat.floor_le result).trans Rat.le_ceil
  have step : result.ceil < result.floor + 2 := by
    have upper := @Rat.ceil_lt result
    have lower := @Rat.lt_floor result
    exact_mod_cast (by linarith : (result.ceil : Rat) < result.floor + 2)
  have bound : result.ceil ≤ size := Rat.ceil_le_iff.mpr (by exact_mod_cast near.within)
  have countValue : (count : Rat) = result.floor := by exact_mod_cast counted
  have rankValue : (rank : Rat) = max 1 (result.ceil : Rat) := by exact_mod_cast ranked
  constructor
  case ordered => omega
  case adjacent => omega
  case first => omega
  case last => omega
  case above =>
    rw [countValue]
    exact near.lt_floor
  case notAbove =>
    have low := Rat.floor_le result
    rw [countValue]
    linarith
  case notBelow =>
    have high := (@Rat.le_ceil result).trans (le_max_right 1 (result.ceil : Rat))
    rw [rankValue]
    linarith
  case below =>
    rw [rankValue]
    exact max_lt (by linarith) near.ceil_lt

/-- All of a group is drawn, and its last row is at the rank, where the proportion is one. -/
theorem counts_of_whole (filled : 1 ≤ size) : floorCount id size 1 = size ∧ ceilRank id size 1 = size := by
  have near := scaled_near filled one_pos le_rfl
  have counted := floorCount_eq_floor near.nonnegative near.within
  have ranked := ceilRank_eq_ceil filled near.within
  have product : (0 : Rat) < size * 1 := by rw [mul_one]; exact_mod_cast filled
  obtain ⟨ordered, -, -, last, above, -⟩ := near.bracketed filled product counted ranked
  rw [mul_one] at above
  have enough : size < floorCount id size 1 + 1 := by exact_mod_cast (by linarith : (size : Rat) < floorCount id size 1 + 1)
  omega

/-- In exact arithmetic the count of draws and the nearest rank bracket the product of size and
proportion, do not fall where one of the two rises, and are the size for the whole of it. -/
theorem counts_bracket_product (filled : 1 ≤ size) (positive : 0 < proportion) (proper : proportion ≤ 1) :
    Bracketed size (size * proportion) (floorCount id size proportion) (ceilRank id size proportion) ∧
    (∀ more, size ≤ more → floorCount id size proportion ≤ floorCount id more proportion ∧
      ceilRank id size proportion ≤ ceilRank id more proportion) ∧
    (∀ larger, proportion ≤ larger → floorCount id size proportion ≤ floorCount id size larger ∧
      ceilRank id size proportion ≤ ceilRank id size larger) ∧
    floorCount id size 1 = size ∧ ceilRank id size 1 = size := by
  have near := scaled_near filled positive proper
  have product : 0 < size * proportion := mul_pos (by exact_mod_cast filled) positive
  refine ⟨near.bracketed filled product (floorCount_eq_floor near.nonnegative near.within)
    (ceilRank_eq_ceil filled near.within), ?_, ?_, counts_of_whole filled⟩
  · intro more sizes
    have products : scaled id size proportion ≤ scaled id more proportion :=
      scaled_mono (fun ordered => ordered) rfl sizes positive.le le_rfl
    exact ⟨floorCount_mono sizes products, ceilRank_mono sizes products⟩
  · intro larger ordered
    have products : scaled id size proportion ≤ scaled id size larger :=
      scaled_mono (fun ordered => ordered) rfl le_rfl positive.le ordered
    exact ⟨floorCount_mono le_rfl products, ceilRank_mono le_rfl products⟩

/-- A product short of three by less than three billionths is taken as three. -/
theorem nearly_all_drawn : floorCount id 3 (9999999999 / 10000000000) = 3 ∧
    Bracketed 3 (3 * (9999999999 / 10000000000)) 3 3 ∧
    floorCount id 3 (9999999999 / 10000000000) ≤ floorCount id 4 (9999999999 / 10000000000) ∧
    ceilRank id 3 (9999999999 / 10000000000) ≤ ceilRank id 3 1 := by
  obtain ⟨bracketed, sizes, proportions, -⟩ := @counts_bracket_product 3 (9999999999 / 10000000000)
    (by decide) (by norm_num) (by norm_num)
  have counted : floorCount id 3 (9999999999 / 10000000000) = 3 := by decide +kernel
  have ranked : ceilRank id 3 (9999999999 / 10000000000) = 3 := by decide +kernel
  refine ⟨counted, ?_, (sizes 4 (by decide)).1, (proportions 1 (by norm_num)).2⟩
  rw [counted, ranked] at bracketed
  exact bracketed

end Exact

end StratifiedSampling.Counts
