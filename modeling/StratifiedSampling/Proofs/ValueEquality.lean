import Mathlib.Algebra.Ring.Int.Defs
import StratifiedSampling.Random.Stream
import StratifiedSampling.Relation.Grouping

/-! Equality of values. Every value has one form that stands for all equal to it, so
equality is an equivalence. Equal values write the same bytes, so equal keys have the
same hash and are found under each other. -/

namespace StratifiedSampling

namespace Double

theorem bits_eq (number : Double) :
    number.bits.toNat = (if number.negative then twoPow 63 else 0) + number.magnitudeBits := by
  have below := number.bits.toNat_lt
  simp only [negative, magnitudeBits, twoPow, Nat.pow_eq]
  by_cases top : 2 ^ 63 ≤ number.bits.toNat
  · simp only [top, decide_true, if_true]
    omega
  · simp only [top, decide_false, Bool.false_eq_true, if_false]
    omega

theorem rank_of_nan {number : Double} (nan : number.isNaN = true) : number.rank = 9223372036854775808 := by
  rw [rank, if_pos nan]
  decide

theorem natAbs_rank {number : Double} (proper : number.isNaN = false) : number.rank.natAbs = number.magnitudeBits := by
  rw [rank, if_neg (by simp [proper])]
  split <;> simp

theorem magnitudeBits_le {number : Double} (proper : number.isNaN = false) :
    number.magnitudeBits ≤ 9218868437227405312 := by
  have bound : ¬infinityBits < number.magnitudeBits := by simpa [isNaN] using proper
  have infinite : infinityBits = 9218868437227405312 := by decide
  omega

theorem rank_canonical (number : Double) : rank ⟨number.canonicalBits⟩ = number.rank := by
  unfold canonicalBits
  split
  next nan => rw [rank_of_nan nan]; decide
  next proper =>
    split
    next zero =>
      have nothing : number.rank.natAbs = 0 := by rw [natAbs_rank (by simpa using proper), zero]
      rw [Int.natAbs_eq_zero.mp nothing]
      decide
    next => rfl

theorem canonicalBits_of_rank {left right : Double} (same : left.rank = right.rank) :
    left.canonicalBits = right.canonicalBits := by
  -- A NaN is above every magnitude, so that both numbers are NaN or neither is.
  have alike : left.isNaN = right.isNaN := by
    cases leftNaN : left.isNaN <;> cases rightNaN : right.isNaN <;> try rfl
    · have bound := magnitudeBits_le leftNaN
      have size := natAbs_rank leftNaN
      rw [same, rank_of_nan rightNaN] at size
      omega
    · have bound := magnitudeBits_le rightNaN
      have size := natAbs_rank rightNaN
      rw [← same, rank_of_nan leftNaN] at size
      omega
  unfold canonicalBits
  rw [alike]
  cases rightNaN : right.isNaN with
  | true => rfl
  | false =>
    have leftNaN := alike.trans rightNaN
    have magnitudes : left.magnitudeBits = right.magnitudeBits := by
      rw [← natAbs_rank leftNaN, ← natAbs_rank rightNaN, same]
    simp only [Bool.false_eq_true, if_false, magnitudes]
    split
    next => rfl
    next positive =>
      -- Of two numbers with one magnitude above zero the sign is that of the rank.
      have signs : left.negative = right.negative := by
        simp only [rank, leftNaN, rightNaN, magnitudes, Bool.false_eq_true, if_false] at same
        revert same
        cases left.negative <;> cases right.negative <;> intro same
        · rfl
        · simp only [Bool.false_eq_true, if_false, if_true] at same
          omega
        · simp only [Bool.false_eq_true, if_false, if_true] at same
          omega
        · rfl
      apply UInt64.toNat_inj.mp
      rw [bits_eq left, bits_eq right, signs, magnitudes]

theorem same_iff (left right : Double) : left.same right = true ↔ left.canonicalBits = right.canonicalBits := by
  simp only [same, beq_iff_eq]
  constructor
  · exact canonicalBits_of_rank
  · intro canonical
    rw [← rank_canonical left, ← rank_canonical right, canonical]

end Double

namespace Decimal

@[simp] theorem mantissa_ofMantissa (mantissa : Int) (scale : Nat) :
    (ofMantissa mantissa scale).mantissa = mantissa := by
  simp only [ofMantissa, Decimal.mantissa, decide_eq_true_eq]
  split <;> omega

@[simp] theorem scale_ofMantissa (mantissa : Int) (scale : Nat) : (ofMantissa mantissa scale).scale = scale := rfl

/-- A number without zeros at the end of its places. -/
def Short (number : Decimal) : Prop :=
  number = ofMantissa number.mantissa number.scale ∧ (number.scale = 0 ∨ number.mantissa % 10 ≠ 0)

theorem withoutZeros_short (mantissa : Int) (scale : Nat) : Short (withoutZeros mantissa scale) := by
  induction scale generalizing mantissa with
  | zero => exact ⟨by simp [withoutZeros], .inl rfl⟩
  | succ scale ih =>
    unfold withoutZeros
    split
    next => exact ih _
    next kept => exact ⟨by simp, .inr (by simpa using kept)⟩

theorem withoutZeros_value (mantissa : Int) (scale : Nat) :
    (withoutZeros mantissa scale).mantissa * 10 ^ scale = mantissa * 10 ^ (withoutZeros mantissa scale).scale := by
  induction scale generalizing mantissa with
  | zero => simp [withoutZeros]
  | succ scale ih =>
    unfold withoutZeros
    split
    next zero =>
      have whole : mantissa = mantissa / 10 * 10 := by omega
      calc (withoutZeros (mantissa / 10) scale).mantissa * 10 ^ (scale + 1)
          = (withoutZeros (mantissa / 10) scale).mantissa * 10 ^ scale * 10 := by rw [Int.pow_succ, Int.mul_assoc]
        _ = mantissa / 10 * 10 ^ (withoutZeros (mantissa / 10) scale).scale * 10 := by rw [ih]
        _ = mantissa / 10 * 10 * 10 ^ (withoutZeros (mantissa / 10) scale).scale := by
          rw [Int.mul_assoc, Int.mul_assoc, Int.mul_comm (10 ^ _)]
        _ = mantissa * 10 ^ (withoutZeros (mantissa / 10) scale).scale := by rw [← whole]
    next => simp

/-- Two numbers without needless zeros are equal in value only if they are written alike. -/
theorem Short.scale_le {left right : Decimal} (short : right.Short)
    (same : left.mantissa * 10 ^ right.scale = right.mantissa * 10 ^ left.scale) : right.scale ≤ left.scale := by
  rcases Nat.lt_or_ge left.scale right.scale with less | enough
  · obtain ⟨more, split⟩ := Nat.exists_eq_add_of_lt less
    have scaled : left.mantissa * 10 ^ more * 10 = right.mantissa := by
      have positive : (10 : Int) ^ left.scale ≠ 0 := Int.pow_ne_zero (by decide)
      apply Int.eq_of_mul_eq_mul_right positive
      calc left.mantissa * 10 ^ more * 10 * 10 ^ left.scale
          = left.mantissa * (10 ^ more * 10 * 10 ^ left.scale) := by rw [Int.mul_assoc, Int.mul_assoc, Int.mul_assoc]
        _ = left.mantissa * 10 ^ right.scale := by
          rw [split, ← Int.pow_succ, ← Int.pow_add]
          congr 2
          omega
        _ = right.mantissa * 10 ^ left.scale := same
    rcases short.2 with none | odd
    · omega
    · omega
  · exact enough

theorem Short.unique {left right : Decimal} (leftShort : left.Short) (rightShort : right.Short)
    (same : left.mantissa * 10 ^ right.scale = right.mantissa * 10 ^ left.scale) : left = right := by
  have scales : left.scale = right.scale := Nat.le_antisymm (leftShort.scale_le same.symm) (rightShort.scale_le same)
  have positive : (10 : Int) ^ right.scale ≠ 0 := Int.pow_ne_zero (by decide)
  rw [scales] at same
  rw [leftShort.1, rightShort.1, scales, Int.eq_of_mul_eq_mul_right positive same]

theorem same_iff (left right : Decimal) : left.same right = true ↔ left.canonical = right.canonical := by
  have powers : ∀ scale, ((tenPow scale : Nat) : Int) = 10 ^ scale := by simp [tenPow]
  have leftValue := withoutZeros_value left.mantissa left.scale
  have rightValue := withoutZeros_value right.mantissa right.scale
  have positive : ∀ scale, (10 : Int) ^ scale ≠ 0 := fun _ => Int.pow_ne_zero (by decide)
  simp only [same, beq_iff_eq, powers]
  constructor
  · intro same
    apply Short.unique (withoutZeros_short _ _) (withoutZeros_short _ _)
    apply Int.eq_of_mul_eq_mul_right (positive left.scale)
    apply Int.eq_of_mul_eq_mul_right (positive right.scale)
    grind
  · intro canonical
    simp only [Decimal.canonical] at canonical
    rw [canonical] at leftValue
    apply Int.eq_of_mul_eq_mul_right (positive (withoutZeros right.mantissa right.scale).scale)
    grind

end Decimal

namespace Value

/-- One form for each class of equal values. -/
def canonical : Value → Value
  | float64 value => float64 ⟨value.canonicalBits⟩
  | numeric value => numeric value.canonical
  | value => value

theorem same_iff (left right : Value) : left.same right = true ↔ left.canonical = right.canonical := by
  cases left <;> cases right <;> simp only [same, canonical, Bool.false_eq_true, reduceCtorEq]
  case bool.bool => simp
  case int64.int64 => simp [Int64.toInt_inj]
  case float64.float64 left right => simp [Double.same_iff]
  case numeric.numeric left right => simp [Decimal.same_iff]
  case string.string => simp
  case bytes.bytes => simp
  case date.date left right => cases left; cases right; simp
  case timestamp.timestamp left right => cases left; cases right; simp

theorem writes_of_same {left right : Value} (same : left.same right = true) : left.writes = right.writes := by
  have canonical := (same_iff left right).mp same
  cases left <;> cases right <;> try cases same
  case float64.float64 left right =>
    have bits : left.canonicalBits = right.canonicalBits := by simpa [Value.canonical] using canonical
    simp only [writes, typeNumber, payload, Double.digestWord, bits]
  case numeric.numeric left right =>
    have digits : left.canonical = right.canonical := by simpa [Value.canonical] using canonical
    simp only [writes, typeNumber, payload, Decimal.digestWords, digits]
  all_goals first | rfl | exact congrArg writes canonical

end Value

theorem sameCells_iff (lefts rights : List Value) :
    sameCells lefts rights = true ↔ lefts.map Value.canonical = rights.map Value.canonical := by
  induction lefts generalizing rights with
  | nil => cases rights <;> simp [sameCells]
  | cons left lefts ih => cases rights <;> simp [sameCells, Value.same_iff, ih]

theorem sameCells_append (lefts rights : List Value) (left right : Value) :
    sameCells (lefts ++ [left]) (rights ++ [right]) = (sameCells lefts rights && left.same right) := by
  rw [Bool.eq_iff_iff, Bool.and_eq_true, sameCells_iff, sameCells_iff, Value.same_iff]
  simp

theorem sameCells_map (left right : α → Value) (items : List α) :
    sameCells (items.map left) (items.map right) = items.all fun item => (left item).same (right item) := by
  induction items with
  | nil => rfl
  | cons item rest ih => rw [List.map_cons, List.map_cons, sameCells, ih, List.all_cons]

theorem keyWrites_of_sameCells {lefts rights : List Value} (same : sameCells lefts rights = true) :
    Value.keyWrites lefts = Value.keyWrites rights := by
  have cells : lefts.length = rights.length ∧ lefts.flatMap Value.writes = rights.flatMap Value.writes := by
    induction lefts generalizing rights with
    | nil =>
      cases rights with
      | nil => exact ⟨rfl, rfl⟩
      | cons => cases same
    | cons left lefts ih =>
      cases rights with
      | nil => cases same
      | cons right rights =>
        obtain ⟨first, rest⟩ := Bool.and_eq_true_iff.mp same
        obtain ⟨lengths, pieces⟩ := ih rest
        exact ⟨congrArg (· + 1) lengths, by rw [List.flatMap_cons, List.flatMap_cons, Value.writes_of_same first, pieces]⟩
  rw [Value.keyWrites, Value.keyWrites, cells.1, cells.2]

namespace Key

theorem beq_iff (left right : Key) :
    (left == right) = true ↔ left.cells.map Value.canonical = right.cells.map Value.canonical :=
  sameCells_iff _ _

instance : EquivBEq Key where
  rfl := (beq_iff _ _).mpr rfl
  symm same := (beq_iff _ _).mpr ((beq_iff _ _).mp same).symm
  trans first second := (beq_iff _ _).mpr (((beq_iff _ _).mp first).trans ((beq_iff _ _).mp second))

instance : LawfulHashable Key where
  hash_eq left right same := by
    change (Value.keyWrites left.cells).foldl _ _ = (Value.keyWrites right.cells).foldl _ _
    rw [keyWrites_of_sameCells same]

theorem stratumSeed_of_beq {left right : Key} (same : (left == right) = true) (seed : UInt64) :
    Stream.stratumSeed seed left.cells = Stream.stratumSeed seed right.cells := by
  rw [Stream.stratumSeed, Stream.stratumSeed, keyWrites_of_sameCells same]

end Key

end StratifiedSampling
