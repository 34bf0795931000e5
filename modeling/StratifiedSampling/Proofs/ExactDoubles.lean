import StratifiedSampling.Proofs.DoubleRounding

/-! Numbers that doubles can hold. A whole number of up to 53 digits in a unit of the doubles is
rounded to itself: its own unit holds it too, and the bits of that unit read back as the number. -/

namespace StratifiedSampling.Double

/-- A number with at most 53 binary digits, whose unit a double can have. -/
structure Exact (value : Rat) (count : Nat) (unit : Int) : Prop where
  size : |value| = count * (2 : Rat) ^ unit
  digits : count < 2 ^ 53
  low : -1074 ≤ unit
  high : unit ≤ 971

/-- A count in a unit, encoded with all its digits or in the smallest unit, is so many units. -/
theorem smallestUnits_encoded {places count : Nat} (digits : count < 2 ^ 53) (filled : places ≠ 0 → 2 ^ 52 ≤ count) :
    smallestUnits (places * twoPow 52 + count) = count * twoPow places := by
  have power : twoPow 52 = 4503599627370496 := rfl
  unfold smallestUnits
  rw [power]
  by_cases full : 2 ^ 52 ≤ count
  · have quotient : (places * 4503599627370496 + count) / 4503599627370496 = places + 1 := by omega
    have rest : 4503599627370496 + (places * 4503599627370496 + count) % 4503599627370496 = count := by omega
    rw [quotient, if_neg (Nat.succ_ne_zero places), rest, Nat.add_sub_cancel]
  · obtain rfl : places = 0 := by
      by_contra some
      exact full (filled some)
    have quotient : (0 * 4503599627370496 + count) / 4503599627370496 = 0 := by omega
    have rest : (0 * 4503599627370496 + count) % 4503599627370496 = count := by omega
    rw [quotient, if_pos rfl, rest]
    exact (Nat.mul_one count).symm

section Exact
variable {value : Rat} {count : Nat} {unit : Int}

/-- The unit in which an exact number is rounded is not above its own. -/
theorem Exact.unitOf_le (exact : Exact value count unit) (filled : value.num.natAbs ≠ 0) :
    unitOf value.num.natAbs value.den ≤ unit := by
  have below : (2 : Rat) ^ leadingExponent value.num.natAbs value.den < 2 ^ (53 + unit) := by
    calc (2 : Rat) ^ leadingExponent value.num.natAbs value.den
        ≤ value.num.natAbs / value.den := (leadingExponent_spec filled value.den_pos).1
      _ = count * 2 ^ unit := by rw [← abs_eq_div, exact.size]
      _ < 2 ^ 53 * 2 ^ unit := mul_lt_mul_of_pos_right (by exact_mod_cast exact.digits) (by positivity)
      _ = 2 ^ (53 + unit) := by rw [zpow_add₀ two_ne_zero]; rfl
  have exponents := (zpow_lt_zpow_iff_right₀ one_lt_two).mp below
  have floor := exact.low
  simp only [unitOf]
  omega

/-- So many of the unit of rounding make up an exact number. -/
theorem Exact.refine (exact : Exact value count unit) (filled : value.num.natAbs ≠ 0) :
    ∃ finer : Nat, |value| = finer * (2 : Rat) ^ unitOf value.num.natAbs value.den ∧
      countIn (unitOf value.num.natAbs value.den) value.num.natAbs value.den = finer ∧ finer < 2 ^ 53 := by
  have within := exact.unitOf_le filled
  generalize unitOf_same : unitOf value.num.natAbs value.den = places at within ⊢
  obtain ⟨more, split⟩ := Int.le.dest within
  have size : |value| = ((count * 2 ^ more : Nat) : Rat) * (2 : Rat) ^ places := by
    rw [exact.size, ← split, zpow_add₀ two_ne_zero, zpow_natCast]
    push_cast
    ring
  refine ⟨count * 2 ^ more, size, ?_, ?_⟩
  · rw [abs_eq_div] at size
    exact Nat.le_antisymm (countIn_le value.den_pos size.le) (le_countIn value.den_pos size.ge)
  · have below : ((count * 2 ^ more : Nat) : Rat) * 2 ^ places < 2 ^ 53 * 2 ^ places := by
      calc ((count * 2 ^ more : Nat) : Rat) * 2 ^ places = value.num.natAbs / value.den := by rw [← size, abs_eq_div]
        _ < 2 ^ (leadingExponent value.num.natAbs value.den + 1) := (leadingExponent_spec filled value.den_pos).2
        _ ≤ 2 ^ (53 + places) := by
          apply zpow_le_zpow_right₀ one_le_two
          simp only [unitOf] at unitOf_same
          omega
        _ = 2 ^ 53 * 2 ^ places := by rw [zpow_add₀ two_ne_zero]; rfl
    exact_mod_cast lt_of_mul_lt_mul_right below (by positivity)

/-- The bits of the double nearest to an exact number hold so many of the smallest unit as make
up the number. -/
theorem Exact.encoded (exact : Exact value count unit) (filled : value.num.natAbs ≠ 0) :
    nearestBits value.num.natAbs value.den < infinityBits ∧
      (smallestUnits (nearestBits value.num.natAbs value.den) : Rat) * 2 ^ (-1074 : Int) = |value| := by
  obtain ⟨finer, size, counted, digits⟩ := exact.refine filled
  have within := exact.unitOf_le filled
  have above := exact.high
  have floor : -1074 ≤ unitOf value.num.natAbs value.den := Int.le_max_right ..
  have leading : -1074 < unitOf value.num.natAbs value.den → 2 ^ 52 ≤ finer := by
    intro raised
    rw [← counted]
    exact le_countIn_unitOf filled value.den_pos raised
  rw [nearestBits_eq filled, counted]
  obtain ⟨places, same⟩ := Int.eq_ofNat_of_zero_le (by omega : 0 ≤ unitOf value.num.natAbs value.den + 1074)
  obtain split : unitOf value.num.natAbs value.den = places + -1074 := by omega
  rw [split] at size within leading ⊢
  have infinite : infinityBits = 2047 * twoPow 52 := rfl
  have power : twoPow 52 = 4503599627370496 := rfl
  have finite : places * twoPow 52 + finer < infinityBits := by
    rw [infinite, power]
    omega
  rw [Int.neg_add_cancel_right, Int.toNat_natCast, Nat.min_eq_left finite.le,
    smallestUnits_encoded digits fun raised => leading (by omega), size, zpow_add₀ two_ne_zero, zpow_natCast]
  generalize (2 : Rat) ^ (-1074 : Int) = smallest
  refine ⟨finite, ?_⟩
  rw [twoPow, Nat.pow_eq]
  push_cast
  ring

/-- A number that a double can hold is the value of the double nearest to it. -/
theorem Exact.toRat?_ofRat (exact : Exact value count unit) : (ofRat value).toRat? = some value := by
  by_cases nothing : value.num.natAbs = 0
  · obtain rfl : value = 0 := Rat.num_eq_zero.mp (Int.natAbs_eq_zero.mp nothing)
    decide +kernel
  obtain ⟨finite, units⟩ := exact.encoded nothing
  rw [toRat?_of_isFinite, ofRat, negative_ofFraction, magnitudeBits_ofFraction, units]
  · rcases lt_or_ge value 0 with below | above
    · rw [decide_eq_true below, if_pos rfl, abs_of_neg below, neg_one_mul, neg_neg]
    · rw [decide_eq_false (not_lt.mpr above), if_neg Bool.false_ne_true, abs_of_nonneg above, one_mul]
  · rw [isFinite, ofRat, magnitudeBits_ofFraction]
    exact decide_eq_true finite

theorem Exact.round_eq (exact : Exact value count unit) : round value = value := by
  rw [round, exact.toRat?_ofRat]
  rfl

end Exact

end StratifiedSampling.Double
