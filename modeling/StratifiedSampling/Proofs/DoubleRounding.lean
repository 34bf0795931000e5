import Mathlib.Algebra.Order.Field.Power
import Mathlib.Data.Rat.Floor
import Mathlib.Tactic.Linarith
import StratifiedSampling.Number.Double

/-! Rounding to doubles keeps the order of rationals. A larger fraction has at least the unit
of a smaller one and, in the same unit, at least its count; a count that fills 53 digits
carries into the next unit, so that the bits of magnitudes are in the order of magnitudes. -/

namespace StratifiedSampling.Double

theorem roundHalfEven_bounds (numerator denominator : Nat) :
    numerator / denominator ≤ roundHalfEven numerator denominator ∧
      roundHalfEven numerator denominator ≤ numerator / denominator + 1 := by
  simp only [roundHalfEven]
  split <;> omega

theorem div_mono {first bound second limit : Nat} (positive : 0 < bound) (limited : 0 < limit)
    (ordered : first * limit ≤ second * bound) : first / bound ≤ second / limit := by
  refine (Nat.le_div_iff_mul_le limited).mpr (Nat.le_of_mul_le_mul_right ?_ positive)
  calc first / bound * limit * bound = first / bound * bound * limit := Nat.mul_right_comm ..
    _ ≤ first * limit := Nat.mul_le_mul_right _ (Nat.div_mul_le_self first bound)
    _ ≤ second * bound := ordered

/-- With equal quotients the order of fractions is that of their rests. -/
theorem mod_mono {first bound second limit : Nat} (ordered : first * limit ≤ second * bound)
    (same : first / bound = second / limit) : first % bound * limit ≤ second % limit * bound := by
  have firstSplit := congrArg (· * limit) (Nat.div_add_mod first bound)
  have secondSplit := congrArg (· * bound) (Nat.div_add_mod second limit)
  have wholes : bound * (first / bound) * limit = limit * (second / limit) * bound := by
    rw [same]
    ac_rfl
  simp only [Nat.add_mul] at firstSplit secondSplit
  omega

theorem roundHalfEven_mono {first bound second limit : Nat} (positive : 0 < bound) (limited : 0 < limit)
    (ordered : first * limit ≤ second * bound) : roundHalfEven first bound ≤ roundHalfEven second limit := by
  rcases Nat.lt_or_eq_of_le (div_mono positive limited ordered) with less | same
  · have low := (roundHalfEven_bounds first bound).2
    have high := (roundHalfEven_bounds second limit).1
    omega
  · have rests := Nat.mul_le_mul_left 2 (mod_mono ordered same)
    rw [← Nat.mul_assoc, ← Nat.mul_assoc] at rests
    -- A rest up to the half of its bound leaves a smaller one up to the half of its own.
    have half : 2 * (second % limit) ≤ limit → 2 * (first % bound) ≤ bound := by
      intro within
      refine Nat.le_of_mul_le_mul_right ?_ limited
      calc 2 * (first % bound) * limit ≤ 2 * (second % limit) * bound := rests
        _ ≤ limit * bound := Nat.mul_le_mul_right bound within
        _ = bound * limit := Nat.mul_comm limit bound
    have belowHalf : 2 * (second % limit) < limit → 2 * (first % bound) < bound := by
      intro below
      refine Nat.lt_of_mul_lt_mul_right (a := limit) ?_
      calc 2 * (first % bound) * limit ≤ 2 * (second % limit) * bound := rests
        _ < limit * bound := Nat.mul_lt_mul_of_pos_right below positive
        _ = bound * limit := Nat.mul_comm limit bound
    simp only [roundHalfEven, same, Bool.or_eq_true, Bool.and_eq_true, decide_eq_true_eq, beq_iff_eq]
    split <;> split <;> omega

/-- The count of a unit that is nearest to a fraction. -/
def countIn (unit : Int) (numerator denominator : Nat) : Nat :=
  if 0 ≤ unit then roundHalfEven numerator (denominator * twoPow unit.toNat)
  else roundHalfEven (numerator * twoPow (-unit).toNat) denominator

theorem twoPow_pos (exponent : Nat) : 0 < twoPow exponent :=
  Nat.two_pow_pos exponent

section Fractions
variable {first bound second limit : Nat}

theorem div_le_div_iff (positive : 0 < bound) (limited : 0 < limit) :
    (first : Rat) / bound ≤ second / limit ↔ first * limit ≤ second * bound := by
  rw [div_le_div_iff₀ (by exact_mod_cast positive) (by exact_mod_cast limited)]
  exact_mod_cast Iff.rfl

theorem countIn_mono (unit : Int) (positive : 0 < bound) (limited : 0 < limit)
    (ordered : (first : Rat) / bound ≤ second / limit) : countIn unit first bound ≤ countIn unit second limit := by
  rw [div_le_div_iff positive limited] at ordered
  unfold countIn
  split
  next =>
    refine roundHalfEven_mono (Nat.mul_pos positive (twoPow_pos _)) (Nat.mul_pos limited (twoPow_pos _)) ?_
    calc first * (limit * twoPow unit.toNat) = first * limit * twoPow unit.toNat := (Nat.mul_assoc ..).symm
      _ ≤ second * bound * twoPow unit.toNat := Nat.mul_le_mul_right _ ordered
      _ = second * (bound * twoPow unit.toNat) := Nat.mul_assoc ..
  next =>
    refine roundHalfEven_mono positive limited ?_
    calc first * twoPow (-unit).toNat * limit = first * limit * twoPow (-unit).toNat := Nat.mul_right_comm ..
      _ ≤ second * bound * twoPow (-unit).toNat := Nat.mul_le_mul_right _ ordered
      _ = second * twoPow (-unit).toNat * bound := Nat.mul_right_comm ..

/-- A whole number of units is the count of itself. -/
theorem exists_whole (unit : Int) (count : Nat) : ∃ numerator denominator : Nat, 0 < denominator ∧
    (numerator : Rat) / denominator = count * (2 : Rat) ^ unit ∧ countIn unit numerator denominator = count := by
  have whole : ∀ denominator, 0 < denominator → roundHalfEven (count * denominator) denominator = count := by
    intro denominator positive
    simp [roundHalfEven, Nat.mul_div_cancel _ positive, positive]
  by_cases large : 0 ≤ unit
  · refine ⟨count * twoPow unit.toNat, 1, Nat.one_pos, ?_, ?_⟩
    · obtain ⟨exponent, rfl⟩ := Int.eq_ofNat_of_zero_le large
      simp [twoPow]
    · rw [countIn, if_pos large, Nat.one_mul]
      exact whole _ (twoPow_pos _)
  · refine ⟨count, twoPow (-unit).toNat, twoPow_pos _, ?_, ?_⟩
    · obtain ⟨exponent, same⟩ := Int.eq_ofNat_of_zero_le (by omega : 0 ≤ -unit)
      obtain rfl : unit = -exponent := by omega
      simp [twoPow, div_eq_mul_inv]
    · rw [countIn, if_neg large]
      exact whole _ (twoPow_pos _)

theorem countIn_le {unit : Int} {count : Nat} (positive : 0 < bound)
    (below : (first : Rat) / bound ≤ count * (2 : Rat) ^ unit) : countIn unit first bound ≤ count := by
  obtain ⟨numerator, denominator, limited, value, counted⟩ := exists_whole unit count
  exact counted ▸ countIn_mono unit positive limited (value ▸ below)

theorem le_countIn {unit : Int} {count : Nat} (positive : 0 < bound)
    (above : count * (2 : Rat) ^ unit ≤ (first : Rat) / bound) : count ≤ countIn unit first bound := by
  obtain ⟨numerator, denominator, limited, value, counted⟩ := exists_whole unit count
  exact counted ▸ countIn_mono unit limited positive (value ▸ above)

/-- A fraction lies within one power of two of the one that its digits tell. -/
theorem log2_bounds (filled : first ≠ 0) (positive : 0 < bound) :
    (2 : Rat) ^ ((first.log2 : Int) - bound.log2 - 1) ≤ (first : Rat) / bound ∧
      (first : Rat) / bound < (2 : Rat) ^ ((first.log2 : Int) - bound.log2 + 1) := by
  have digits : ∀ {number : Nat}, number ≠ 0 → (2 : Rat) ^ (number.log2 : Int) ≤ number ∧
      (number : Rat) < (2 : Rat) ^ ((number.log2 : Int) + 1) := by
    intro number some
    have above := @Nat.lt_log2_self number
    rw [← Nat.cast_succ, zpow_natCast, zpow_natCast]
    exact_mod_cast And.intro (Nat.log2_self_le some) above
  obtain ⟨firstLow, firstHigh⟩ := digits filled
  obtain ⟨boundLow, boundHigh⟩ := digits (Nat.ne_of_gt positive)
  have boundPositive : (0 : Rat) < bound := by exact_mod_cast positive
  have two : (2 : Rat) ≠ 0 := two_ne_zero
  constructor
  · rw [le_div_iff₀ boundPositive]
    calc (2 : Rat) ^ ((first.log2 : Int) - bound.log2 - 1) * bound
        ≤ 2 ^ ((first.log2 : Int) - bound.log2 - 1) * 2 ^ ((bound.log2 : Int) + 1) :=
          mul_le_mul_of_nonneg_left (le_of_lt boundHigh) (by positivity)
      _ = 2 ^ (first.log2 : Int) := by rw [← zpow_add₀ two]; congr 1; omega
      _ ≤ first := firstLow
  · rw [div_lt_iff₀ boundPositive]
    calc (first : Rat) < 2 ^ ((first.log2 : Int) + 1) := firstHigh
      _ = 2 ^ ((first.log2 : Int) - bound.log2 + 1) * 2 ^ (bound.log2 : Int) := by
        rw [← zpow_add₀ two]; congr 1; omega
      _ ≤ 2 ^ ((first.log2 : Int) - bound.log2 + 1) * bound :=
        mul_le_mul_of_nonneg_left boundLow (by positivity)

/-- The leading exponent of a fraction is the greatest power of two up to it. -/
theorem leadingExponent_spec (filled : first ≠ 0) (positive : 0 < bound) :
    (2 : Rat) ^ leadingExponent first bound ≤ (first : Rat) / bound ∧
      (first : Rat) / bound < (2 : Rat) ^ (leadingExponent first bound + 1) := by
  obtain ⟨low, high⟩ := log2_bounds filled positive
  have boundPositive : (0 : Rat) < bound := by exact_mod_cast positive
  simp only [leadingExponent]
  generalize (first.log2 : Int) - bound.log2 = guess at low high ⊢
  have reached : (if 0 ≤ guess then decide (bound * twoPow guess.toNat ≤ first)
      else decide (bound ≤ first * twoPow (-guess).toNat)) = decide ((2 : Rat) ^ guess ≤ (first : Rat) / bound) := by
    split
    next up =>
      obtain ⟨exponent, rfl⟩ := Int.eq_ofNat_of_zero_le up
      rw [decide_eq_decide, le_div_iff₀ boundPositive, mul_comm, zpow_natCast, Int.toNat_natCast, twoPow]
      exact_mod_cast Iff.rfl
    next down =>
      obtain ⟨exponent, same⟩ := Int.eq_ofNat_of_zero_le (by omega : 0 ≤ -guess)
      obtain rfl : guess = -exponent := by omega
      have power : (0 : Rat) < (2 : Rat) ^ exponent := by positivity
      rw [decide_eq_decide, zpow_neg, zpow_natCast, inv_le_comm₀ power (by positivity), inv_div,
        div_le_iff₀ (by exact_mod_cast Nat.pos_of_ne_zero filled), mul_comm, neg_neg, Int.toNat_natCast, twoPow]
      exact_mod_cast Iff.rfl
  rw [reached]
  split
  next most => exact ⟨of_decide_eq_true most, high⟩
  next less =>
    refine ⟨low, ?_⟩
    rw [Int.sub_add_cancel]
    exact not_le.mp (fun most => less (decide_eq_true most))

/-- The exponent of the unit in which a fraction is rounded. -/
def unitOf (numerator denominator : Nat) : Int :=
  max (leadingExponent numerator denominator - 52) (-1074)

theorem nearestBits_eq (filled : first ≠ 0) : nearestBits first bound =
    min ((unitOf first bound + 1074).toNat * twoPow 52 + countIn (unitOf first bound) first bound) infinityBits := by
  rw [nearestBits, if_neg filled]
  rfl

theorem unitOf_mono (filled : first ≠ 0) (stocked : second ≠ 0) (positive : 0 < bound) (limited : 0 < limit)
    (ordered : (first : Rat) / bound ≤ second / limit) : unitOf first bound ≤ unitOf second limit := by
  have exponents : (2 : Rat) ^ leadingExponent first bound < 2 ^ (leadingExponent second limit + 1) :=
    calc (2 : Rat) ^ leadingExponent first bound ≤ first / bound := (leadingExponent_spec filled positive).1
      _ ≤ second / limit := ordered
      _ < 2 ^ (leadingExponent second limit + 1) := (leadingExponent_spec stocked limited).2
  have less := (zpow_lt_zpow_iff_right₀ one_lt_two).mp exponents
  simp only [unitOf]
  omega

/-- No fraction fills more than the 53 digits above its unit. -/
theorem countIn_unitOf_le (filled : first ≠ 0) (positive : 0 < bound) :
    countIn (unitOf first bound) first bound ≤ twoPow 53 := by
  refine countIn_le positive (le_of_lt ?_)
  calc (first : Rat) / bound < 2 ^ (leadingExponent first bound + 1) := (leadingExponent_spec filled positive).2
    _ ≤ 2 ^ (53 + unitOf first bound) := zpow_le_zpow_right₀ one_le_two (by simp only [unitOf]; omega)
    _ = (twoPow 53 : Nat) * 2 ^ unitOf first bound := by
      rw [zpow_add₀ two_ne_zero]
      norm_num [twoPow]

/-- Above the smallest unit a fraction fills all 53 digits. -/
theorem le_countIn_unitOf (filled : first ≠ 0) (positive : 0 < bound) (above : -1074 < unitOf first bound) :
    twoPow 52 ≤ countIn (unitOf first bound) first bound := by
  refine le_countIn positive ?_
  calc ((twoPow 52 : Nat) : Rat) * 2 ^ unitOf first bound = 2 ^ (52 + unitOf first bound) := by
        rw [zpow_add₀ two_ne_zero]
        norm_num [twoPow]
    _ = 2 ^ leadingExponent first bound := by
      congr 1
      simp only [unitOf] at above ⊢
      omega
    _ ≤ first / bound := (leadingExponent_spec filled positive).1

theorem nearestBits_mono (positive : 0 < bound) (limited : 0 < limit)
    (ordered : (first : Rat) / bound ≤ second / limit) : nearestBits first bound ≤ nearestBits second limit := by
  by_cases filled : first = 0
  · simp [nearestBits, filled]
  have stocked : second ≠ 0 := by
    rintro rfl
    rw [div_le_div_iff positive limited, Nat.zero_mul] at ordered
    exact Nat.ne_of_gt (Nat.mul_pos (Nat.pos_of_ne_zero filled) limited) (Nat.le_zero.mp ordered)
  rw [nearestBits_eq filled, nearestBits_eq stocked]
  have units := unitOf_mono filled stocked positive limited ordered
  have floor : -1074 ≤ unitOf first bound := Int.le_max_right ..
  rcases Int.lt_or_eq_of_le units with less | same
  · -- The larger fraction has all its digits in a larger unit.
    have step : (unitOf first bound + 1074).toNat + 1 ≤ (unitOf second limit + 1074).toNat := by omega
    refine min_le_min_right _ ?_
    calc (unitOf first bound + 1074).toNat * twoPow 52 + countIn (unitOf first bound) first bound
        ≤ (unitOf first bound + 1074).toNat * twoPow 52 + twoPow 53 :=
          Nat.add_le_add_left (countIn_unitOf_le filled positive) _
      _ = ((unitOf first bound + 1074).toNat + 1) * twoPow 52 + twoPow 52 := by
        rw [Nat.add_mul, Nat.one_mul, Nat.add_assoc]
        rfl
      _ ≤ (unitOf second limit + 1074).toNat * twoPow 52 + twoPow 52 :=
        Nat.add_le_add_right (Nat.mul_le_mul_right _ step) _
      _ ≤ (unitOf second limit + 1074).toNat * twoPow 52 + countIn (unitOf second limit) second limit :=
        Nat.add_le_add_left (le_countIn_unitOf stocked limited (by omega)) _
  · have counts := countIn_mono (unitOf first bound) positive limited ordered
    rw [← same]
    exact min_le_min_right _ (Nat.add_le_add_left counts _)

end Fractions

/-- How many of the smallest unit there is make up a magnitude. -/
def smallestUnits (bits : Nat) : Nat :=
  if bits / twoPow 52 = 0 then bits % twoPow 52
  else (twoPow 52 + bits % twoPow 52) * twoPow (bits / twoPow 52 - 1)

theorem smallestUnits_le (bits : Nat) : smallestUnits bits ≤ twoPow 52 * twoPow (bits / twoPow 52) := by
  have rest := Nat.mod_lt bits (twoPow_pos 52)
  unfold smallestUnits
  split
  next small => exact Nat.le_of_lt (Nat.lt_of_lt_of_le rest (Nat.le_mul_of_pos_right _ (twoPow_pos _)))
  next large =>
    obtain ⟨biased, same⟩ := Nat.exists_eq_succ_of_ne_zero large
    calc (twoPow 52 + bits % twoPow 52) * twoPow (bits / twoPow 52 - 1)
        ≤ (twoPow 52 * 2) * twoPow (bits / twoPow 52 - 1) := Nat.mul_le_mul_right _ (by omega)
      _ = twoPow 52 * twoPow (bits / twoPow 52) := by
        rw [same, Nat.succ_sub_one, Nat.mul_assoc, Nat.mul_comm 2]
        rfl

theorem le_smallestUnits {bits : Nat} (large : bits / twoPow 52 ≠ 0) :
    twoPow 52 * twoPow (bits / twoPow 52 - 1) ≤ smallestUnits bits := by
  rw [smallestUnits, if_neg large]
  exact Nat.mul_le_mul_right _ (Nat.le_add_right ..)

theorem smallestUnits_mono {small large : Nat} (ordered : small ≤ large) :
    smallestUnits small ≤ smallestUnits large := by
  rcases Nat.lt_or_eq_of_le (Nat.div_le_div_right ordered : small / twoPow 52 ≤ large / twoPow 52) with less | same
  · calc smallestUnits small ≤ twoPow 52 * twoPow (small / twoPow 52) := smallestUnits_le small
      _ ≤ twoPow 52 * twoPow (large / twoPow 52 - 1) :=
        Nat.mul_le_mul_left _ (Nat.pow_le_pow_right Nat.two_pos (Nat.le_sub_one_of_lt less))
      _ ≤ smallestUnits large := le_smallestUnits (Nat.ne_of_gt (Nat.zero_lt_of_lt less))
  · have rests : small % twoPow 52 ≤ large % twoPow 52 := by
      have smallSplit := Nat.div_add_mod small (twoPow 52)
      have largeSplit := Nat.div_add_mod large (twoPow 52)
      rw [same] at smallSplit
      omega
    unfold smallestUnits
    rw [same]
    split
    · exact rests
    · exact Nat.mul_le_mul_right _ (Nat.add_le_add_left rests _)

/-- The value of a finite number is its sign and so many of the smallest unit. -/
theorem toRat?_of_isFinite {number : Double} (finite : number.isFinite = true) :
    number.toRat? = some ((if number.negative then (-1 : Rat) else 1) *
      (smallestUnits number.magnitudeBits * (2 : Rat) ^ (-1074 : Int))) := by
  have size : (number.unitCount : Rat) * (2 : Rat) ^ number.unitExponent =
      smallestUnits number.magnitudeBits * (2 : Rat) ^ (-1074 : Int) := by
    simp only [unitCount, unitExponent, smallestUnits]
    split
    next => rfl
    next large =>
      have exponent : ((number.magnitudeBits / twoPow 52 : Nat) : Int) - 1075 =
          ((number.magnitudeBits / twoPow 52 - 1 : Nat) : Int) + -1074 := by
        rw [Nat.cast_pred (Nat.pos_of_ne_zero large)]
        omega
      rw [exponent, zpow_add₀ two_ne_zero, zpow_natCast, Nat.cast_mul, ← mul_assoc]
      congr 2
      exact (Nat.cast_pow 2 _).symm
  simp only [toRat?, finite, if_true, size]
  split <;> simp

theorem toRat?_eq_some {number : Double} {exact : Rat} (found : number.toRat? = some exact) :
    number.isFinite = true ∧ exact = (if number.negative then (-1 : Rat) else 1) *
      (smallestUnits number.magnitudeBits * (2 : Rat) ^ (-1074 : Int)) := by
  have finite : number.isFinite = true := by
    by_contra infinite
    simp [toRat?, infinite] at found
  rw [toRat?_of_isFinite finite, Option.some.injEq] at found
  exact ⟨finite, found.symm⟩

theorem rank_of_isFinite {number : Double} (finite : number.isFinite = true) :
    number.rank = (if number.negative then -1 else 1) * (number.magnitudeBits : Int) := by
  have number? : number.isNaN = false := by
    simp only [isFinite, isNaN, decide_eq_true_eq, decide_eq_false_iff_not] at finite ⊢
    omega
  simp only [rank, number?]
  split <;> simp_all

/-- Finite numbers are in the order of their values. -/
theorem toRat?_mono {small large : Double} {low high : Rat} (ordered : small.rank ≤ large.rank)
    (smallFound : small.toRat? = some low) (largeFound : large.toRat? = some high) : low ≤ high := by
  obtain ⟨smallFinite, rfl⟩ := toRat?_eq_some smallFound
  obtain ⟨largeFinite, rfl⟩ := toRat?_eq_some largeFound
  rw [rank_of_isFinite smallFinite, rank_of_isFinite largeFinite] at ordered
  have unit : (0 : Rat) < (2 : Rat) ^ (-1074 : Int) := by positivity
  rw [← mul_assoc, ← mul_assoc, mul_le_mul_iff_left₀ unit]
  generalize small.negative = smallSign at ordered ⊢
  generalize large.negative = largeSign at ordered ⊢
  cases smallSign <;> cases largeSign <;> simp only [if_true, Bool.false_eq_true, if_false] at ordered ⊢
  case false.false =>
    simpa using smallestUnits_mono (by omega : small.magnitudeBits ≤ large.magnitudeBits)
  case false.true =>
    obtain ⟨left, right⟩ : small.magnitudeBits = 0 ∧ large.magnitudeBits = 0 := by omega
    simp [left, right, smallestUnits]
  case true.false =>
    have left : (0 : Rat) ≤ smallestUnits small.magnitudeBits := Nat.cast_nonneg _
    have right : (0 : Rat) ≤ smallestUnits large.magnitudeBits := Nat.cast_nonneg _
    linarith
  case true.true =>
    simpa using smallestUnits_mono (by omega : large.magnitudeBits ≤ small.magnitudeBits)

theorem nearestBits_le (numerator denominator : Nat) : nearestBits numerator denominator ≤ infinityBits := by
  unfold nearestBits
  split
  · exact Nat.zero_le _
  · exact Nat.min_le_right ..

theorem nearestBits_lt (numerator denominator : Nat) : nearestBits numerator denominator < twoPow 63 :=
  Nat.lt_of_le_of_lt (nearestBits_le numerator denominator) (by decide)

theorem ofFraction_bits (negative : Bool) (numerator denominator : Nat) :
    (ofFraction negative numerator denominator).bits.toNat =
      (if negative then twoPow 63 else 0) + nearestBits numerator denominator := by
  have size := nearestBits_lt numerator denominator
  have word : twoPow 63 + twoPow 63 = 2 ^ 64 := rfl
  rw [ofFraction, UInt64.toNat_ofNat', Nat.mod_eq_of_lt (by split <;> omega)]
  split <;> omega

theorem negative_ofFraction (negative : Bool) (numerator denominator : Nat) :
    (ofFraction negative numerator denominator).negative = negative := by
  have size := nearestBits_lt numerator denominator
  rw [Double.negative, ofFraction_bits]
  cases negative with
  | true => exact decide_eq_true (Nat.le_add_right ..)
  | false => exact decide_eq_false (by simpa using size)

theorem magnitudeBits_ofFraction (negative : Bool) (numerator denominator : Nat) :
    (ofFraction negative numerator denominator).magnitudeBits = nearestBits numerator denominator := by
  have size := nearestBits_lt numerator denominator
  rw [magnitudeBits, ofFraction_bits]
  split
  · rw [Nat.add_mod_left, Nat.mod_eq_of_lt size]
  · rw [Nat.zero_add, Nat.mod_eq_of_lt size]

theorem rank_ofFraction (negative : Bool) (numerator denominator : Nat) :
    (ofFraction negative numerator denominator).rank =
      if negative then -(nearestBits numerator denominator : Int) else nearestBits numerator denominator := by
  have number? : (ofFraction negative numerator denominator).isNaN = false := by
    rw [isNaN, magnitudeBits_ofFraction, decide_eq_false_iff_not]
    exact Nat.not_lt.mpr (nearestBits_le ..)
  rw [rank, number?, negative_ofFraction, magnitudeBits_ofFraction]
  rfl

theorem abs_eq_div (value : Rat) : |value| = (value.num.natAbs : Rat) / value.den := by
  rw [Rat.abs_def, Rat.divInt_eq_div, Int.cast_natCast, Int.cast_natCast]

/-- A larger number is rounded to a larger double or to the same one. -/
theorem rank_ofRat_mono {small large : Rat} (ordered : small ≤ large) : (ofRat small).rank ≤ (ofRat large).rank := by
  have sizes : ∀ {left right : Rat}, |left| ≤ |right| →
      nearestBits left.num.natAbs left.den ≤ nearestBits right.num.natAbs right.den := by
    intro left right within
    rw [abs_eq_div, abs_eq_div] at within
    exact nearestBits_mono left.den_pos right.den_pos within
  rw [ofRat, ofRat, rank_ofFraction, rank_ofFraction]
  rcases lt_or_ge small 0 with smallBelow | smallAbove <;> rcases lt_or_ge large 0 with largeBelow | largeAbove
  · have within := sizes (by rw [abs_of_neg smallBelow, abs_of_neg largeBelow]; linarith : |large| ≤ |small|)
    simpa [smallBelow, largeBelow] using within
  · simp only [smallBelow, not_lt.mpr largeAbove, decide_true, decide_false, if_true, Bool.false_eq_true, if_false]
    omega
  · exact absurd (ordered.trans_lt largeBelow) (not_lt.mpr smallAbove)
  · have within := sizes (by rwa [abs_of_nonneg smallAbove, abs_of_nonneg largeAbove] : |small| ≤ |large|)
    simpa [not_lt.mpr smallAbove, not_lt.mpr largeAbove] using within

/-- The greatest finite number. -/
def greatest : Rat :=
  ((twoPow 53 - 1) * twoPow 971 : Nat)

theorem rank_greatest : (ofRat greatest).rank = infinityBits - 1 ∧ (ofRat (-greatest)).rank = -(infinityBits - 1) := by
  decide +kernel

theorem isFinite_ofRat (value : Rat) :
    (ofRat value).isFinite = true ↔ -(infinityBits : Int) < (ofRat value).rank ∧ (ofRat value).rank < infinityBits := by
  rw [isFinite, ofRat, magnitudeBits_ofFraction, rank_ofFraction, decide_eq_true_eq]
  split <;> omega

/-- Only numbers beyond the greatest finite one are rounded to an infinity. -/
theorem greatest_lt {value : Rat} (infinite : (infinityBits : Int) ≤ (ofRat value).rank) : greatest < value := by
  by_contra within
  have below := rank_ofRat_mono (not_lt.mp within)
  rw [rank_greatest.1] at below
  omega

theorem lt_neg_greatest {value : Rat} (infinite : (ofRat value).rank ≤ -(infinityBits : Int)) : value < -greatest := by
  by_contra within
  have above := rank_ofRat_mono (not_lt.mp within)
  rw [rank_greatest.2] at above
  omega

theorem round_of_not_isFinite {value : Rat} (infinite : ¬(ofRat value).isFinite = true) : round value = value := by
  simp [round, toRat?, infinite]

theorem toRat?_ofRat {value : Rat} (finite : (ofRat value).isFinite = true) :
    (ofRat value).toRat? = some (round value) := by
  rw [round, toRat?_of_isFinite finite]
  rfl

theorem toRat?_greatest : (ofRat greatest).toRat? = some greatest ∧ (ofRat (-greatest)).toRat? = some (-greatest) := by
  decide +kernel

theorem abs_round_le {value : Rat} (finite : (ofRat value).isFinite = true) : |round value| ≤ greatest := by
  have found := toRat?_ofRat finite
  obtain ⟨above, below⟩ := (isFinite_ofRat value).mp finite
  refine abs_le.mpr ⟨toRat?_mono ?_ toRat?_greatest.2 found, toRat?_mono ?_ found toRat?_greatest.1⟩
  · rw [rank_greatest.2]
    omega
  · rw [rank_greatest.1]
    omega

/-- Rounding keeps order, also among the numbers too large to be rounded. -/
theorem round_mono {small large : Rat} (ordered : small ≤ large) : round small ≤ round large := by
  have ranks := rank_ofRat_mono ordered
  by_cases smallFinite : (ofRat small).isFinite = true <;> by_cases largeFinite : (ofRat large).isFinite = true
  · exact toRat?_mono ranks (toRat?_ofRat smallFinite) (toRat?_ofRat largeFinite)
  · have infinite : (infinityBits : Int) ≤ (ofRat large).rank := by
      rw [isFinite_ofRat] at smallFinite largeFinite
      omega
    rw [round_of_not_isFinite largeFinite]
    exact (abs_le.mp (abs_round_le smallFinite)).2.trans (greatest_lt infinite).le
  · have infinite : (ofRat small).rank ≤ -(infinityBits : Int) := by
      rw [isFinite_ofRat] at smallFinite largeFinite
      omega
    rw [round_of_not_isFinite smallFinite]
    exact (lt_neg_greatest infinite).le.trans (abs_le.mp (abs_round_le largeFinite)).1
  · rwa [round_of_not_isFinite smallFinite, round_of_not_isFinite largeFinite]

@[simp] theorem round_zero : round 0 = 0 := by
  decide +kernel

end StratifiedSampling.Double
