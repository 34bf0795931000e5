import StratifiedSampling.Proofs.ValueEquality
import StratifiedSampling.Proofs.ValueOrder

/-! Equality, order and hashing of the values of a column, and of keys made of them. A hash table
finds a key by its pieces and its equality, a sort puts equal values together by the order: all of
them go by the same classes of values, in which every NaN is one number, as are the two zeros and
decimals that differ in their places only. -/

namespace StratifiedSampling

namespace Double

theorem canonicalBits_eq_nan_iff (number : Double) : number.canonicalBits = nan.bits ↔ number.isNaN = true := by
  unfold canonicalBits
  split
  next isNaN => exact ⟨fun _ => isNaN, fun _ => rfl⟩
  next proper =>
    refine ⟨fun same => ?_, fun isNaN => absurd isNaN proper⟩
    split at same
    · exact absurd same (by decide)
    · cases number
      cases same
      decide

theorem canonicalBits_eq_zero_iff (number : Double) : number.canonicalBits = 0 ↔ number.magnitudeBits = 0 := by
  unfold canonicalBits
  split
  next isNaN =>
    refine ⟨fun same => absurd same (by decide), fun zero => ?_⟩
    simp [Double.isNaN, zero] at isNaN
  next =>
    split
    next zero => exact ⟨fun _ => zero, fun _ => rfl⟩
    next filled =>
      refine ⟨fun same => ?_, fun zero => absurd zero filled⟩
      cases number
      cases same
      decide

/-- Apart from equal bits only NaNs are equal, and zeros. -/
theorem same_iff_bits (left right : Double) : left.same right = true ↔
    (left.isNaN = true ∧ right.isNaN = true) ∨ (left.magnitudeBits = 0 ∧ right.magnitudeBits = 0) ∨
      left = right := by
  rw [same_iff]
  constructor
  · intro canonical
    have nans := canonicalBits_eq_nan_iff left
    have zeros := canonicalBits_eq_zero_iff left
    rw [canonical, canonicalBits_eq_nan_iff] at nans
    rw [canonical, canonicalBits_eq_zero_iff] at zeros
    by_cases leftNaN : left.isNaN = true
    · exact .inl ⟨leftNaN, nans.mpr leftNaN⟩
    by_cases leftZero : left.magnitudeBits = 0
    · exact .inr (.inl ⟨leftZero, zeros.mpr leftZero⟩)
    -- Any other number is its own form.
    rw [canonicalBits, canonicalBits, if_neg leftNaN, if_neg leftZero, if_neg (mt nans.mp leftNaN),
      if_neg (mt zeros.mp leftZero)] at canonical
    exact .inr (.inr (congrArg Double.mk canonical))
  · rintro (⟨leftNaN, rightNaN⟩ | ⟨leftZero, rightZero⟩ | rfl)
    · rw [(canonicalBits_eq_nan_iff left).mpr leftNaN, (canonicalBits_eq_nan_iff right).mpr rightNaN]
    · rw [(canonicalBits_eq_zero_iff left).mpr leftZero, (canonicalBits_eq_zero_iff right).mpr rightZero]
    · rfl

end Double

/-- Decimals are equal if they stand for one number, in however many places they are written. -/
theorem Decimal.same_iff_toRat (left right : Decimal) : left.same right = true ↔ left.toRat = right.toRat := by
  have order : left.order right = .eq ↔ left.same right = true := by
    rw [Decimal.order, Decimal.same, Int.compare_eq_eq, beq_iff_eq]
  rw [← order, order_eq_compare, compare_eq_iff_eq]

namespace Value

/-- An order on lists that goes by the codes of their items leaves only equal lists level. -/
theorem eq_iff_of_codes {α : Type} {code : α → Nat} (injective : Function.Injective code)
    {order : List α → List α → Ordering}
    (coded : ∀ lefts rights, order lefts rights = List.compareLex compare (lefts.map fun item => (code item : Rat))
      (rights.map fun item => (code item : Rat))) (lefts rights : List α) :
    order lefts rights = .eq ↔ lefts = rights := by
  have codes : Function.Injective fun item => (code item : Rat) := Nat.cast_injective.comp injective
  rw [coded, Std.LawfulEqCmp.compare_eq_iff_eq]
  exact List.map_inj_right fun _ _ same => codes same

theorem orderChars_eq_iff (lefts rights : List Char) : orderChars lefts rights = .eq ↔ lefts = rights :=
  eq_iff_of_codes (fun _ _ => Char.toNat_inj.mp) orderChars_eq lefts rights

theorem orderBytes_eq_iff (lefts rights : List UInt8) : orderBytes lefts rights = .eq ↔ lefts = rights :=
  eq_iff_of_codes (fun _ _ => UInt8.toNat_inj.mp) orderBytes_eq lefts rights

theorem orderBools_eq_iff (left right : Bool) : orderBools left right = .eq ↔ left = right := by
  cases left <;> cases right <;> decide

/-- Of the values of one type those are equal that the order does not tell apart. -/
theorem same_iff_order {dataType : DataType} {left right : Value} (leftTyped : left.OfType dataType)
    (rightTyped : right.OfType dataType) : left.same right = true ↔ left.order right = .eq := by
  rcases leftTyped with rfl | leftType
  · cases right <;> simp [same, order]
  rcases rightTyped with rfl | rightType
  · cases left <;> simp [same, order]
  have sameType := leftType.trans rightType.symm
  clear leftType rightType
  cases left <;> cases right <;> cases sameType
  all_goals simp only [same, order]
  case bool.bool.refl => rw [orderBools_eq_iff, beq_iff_eq]
  case int64.int64.refl => rw [Int.compare_eq_eq, beq_iff_eq]
  case float64.float64.refl => rw [Double.same, Double.order, Int.compare_eq_eq, beq_iff_eq]
  case numeric.numeric.refl => rw [Decimal.same, Decimal.order, Int.compare_eq_eq, beq_iff_eq]
  case string.string.refl => rw [orderChars_eq_iff, beq_iff_eq, String.toList_inj]
  case bytes.bytes.refl => rw [orderBytes_eq_iff, beq_iff_eq]
  case date.date.refl => rw [Int.compare_eq_eq, beq_iff_eq]
  case timestamp.timestamp.refl =>
    rw [Timestamp.order, Ordering.then_eq_eq, Int.compare_eq_eq, Nat.compare_eq_eq, Bool.and_eq_true, beq_iff_eq,
      beq_iff_eq]

theorem same_equivalence : Equivalence fun left right : Value => left.same right = true where
  refl value := (same_iff value value).mpr rfl
  symm equal := (same_iff _ _).mpr ((same_iff _ _).mp equal).symm
  trans first second := (same_iff _ _).mpr (((same_iff _ _).mp first).trans ((same_iff _ _).mp second))

theorem typeNumber_lt (value : Value) : value.typeNumber < 9 := by
  cases value <;> simp [typeNumber]

theorem dataType_of_typeNumber {left right : Value} (numbered : left.typeNumber = right.typeNumber) :
    left.dataType = right.dataType := by
  cases left <;> cases right <;> first | rfl | cases numbered

/-- The first piece that is written tells the type. -/
theorem dataType_of_writes {left right : Value} (written : left.writes = right.writes) :
    left.dataType = right.dataType := by
  have first := congrArg UInt8.toNat (List.cons.inj (List.cons.inj written).1).1
  have leftNumber := left.typeNumber_lt
  have rightNumber := right.typeNumber_lt
  refine dataType_of_typeNumber ?_
  rw [UInt8.toNat_ofNat', UInt8.toNat_ofNat'] at first
  omega

theorem same_of_dataType_ne {left right : Value} (apart : left.dataType ≠ right.dataType) :
    left.same right = false := by
  cases left <;> cases right <;> first | rfl | exact absurd rfl apart

end Value

namespace Key

/-- The cells of a row in the columns of some types. -/
def OfTypes (dataTypes : List DataType) (key : Key) : Prop :=
  List.Forall₂ (fun dataType cell => Value.OfType dataType cell) dataTypes key.cells

/-- Keys are equal if no cell is above or below the other key's. -/
theorem beq_iff_order {dataTypes : List DataType} {left right : Key} (leftTyped : left.OfTypes dataTypes)
    (rightTyped : right.OfTypes dataTypes) : (left == right) = true ↔
      List.Forall₂ (fun cell other => Value.order cell other = .eq) left.cells right.cells := by
  obtain ⟨lefts⟩ := left
  obtain ⟨rights⟩ := right
  change sameCells lefts rights = true ↔ _
  unfold OfTypes at leftTyped rightTyped
  dsimp only at *
  induction leftTyped generalizing rights with
  | nil =>
    cases rightTyped
    exact ⟨fun _ => .nil, fun _ => rfl⟩
  | cons cellTyped _ ih =>
    cases rightTyped with
    | cons otherTyped othersTyped =>
      rw [sameCells, Bool.and_eq_true, List.forall₂_cons, Value.same_iff_order cellTyped otherTyped, ih _ othersTyped]

theorem beq_equivalence : Equivalence fun left right : Key => (left == right) = true :=
  ⟨fun _ => BEq.rfl, BEq.symm, BEq.trans⟩

end Key

/-- The values of a column, NULL among them, are equal exactly if the order does not tell them apart.
Equality is an equivalence, of doubles all but that of bits since a NaN equals every NaN and the
zeros are equal, of decimals that of numbers; values of two types are never equal. Equal
values write the same pieces, and values of two types never do. Keys are equal, and write
the same pieces, cell by cell. -/
theorem equality_order_hashing_agree :
    (∀ (dataType : DataType) (left right : Value), left.OfType dataType → right.OfType dataType →
      (left.same right = true ↔ left.order right = .eq)) ∧
    Equivalence (fun left right : Value => left.same right = true) ∧
    (∀ left right : Double, (Value.float64 left).same (.float64 right) = true ↔
      (left.isNaN = true ∧ right.isNaN = true) ∨ (left.magnitudeBits = 0 ∧ right.magnitudeBits = 0) ∨
        left = right) ∧
    (∀ left right : Decimal, (Value.numeric left).same (.numeric right) = true ↔ left.toRat = right.toRat) ∧
    (∀ left right : Value, left.dataType ≠ right.dataType → left.same right = false) ∧
    (∀ left right : Value, left.same right = true → left.writes = right.writes) ∧
    (∀ left right : Value, left.writes = right.writes → left.dataType = right.dataType) ∧
    (∀ (dataTypes : List DataType) (left right : Key), left.OfTypes dataTypes → right.OfTypes dataTypes →
      ((left == right) = true ↔
        List.Forall₂ (fun cell other => Value.order cell other = .eq) left.cells right.cells)) ∧
    Equivalence (fun left right : Key => (left == right) = true) ∧
    ∀ left right : Key, (left == right) = true → Value.keyWrites left.cells = Value.keyWrites right.cells :=
  ⟨fun _ _ _ => Value.same_iff_order, Value.same_equivalence, Double.same_iff_bits, Decimal.same_iff_toRat,
    fun _ _ => Value.same_of_dataType_ne, fun _ _ => Value.writes_of_same, fun _ _ => Value.dataType_of_writes,
    fun _ _ _ => Key.beq_iff_order, Key.beq_equivalence, fun _ _ => keyWrites_of_sameCells⟩

namespace UnlikeKeys

def dataTypes : List DataType := [.float64, .float64, .numeric, .string]

def plain : Key :=
  ⟨[.float64 ⟨0x7FF8000000000000⟩, .float64 ⟨0⟩, .numeric ⟨false, 10, 1⟩, .null]⟩

/-- A NaN of other bits, the negative zero and a number of more places. -/
def odd : Key :=
  ⟨[.float64 ⟨0xFFF8000000000001⟩, .float64 ⟨0x8000000000000000⟩, .numeric ⟨false, 100, 2⟩, .null]⟩

theorem hashed_alike : plain.OfTypes dataTypes ∧ odd.OfTypes dataTypes ∧ (plain == odd) = true ∧
    Value.keyWrites plain.cells = Value.keyWrites odd.cells ∧
    (Value.int64 1).dataType ≠ (Value.float64 ⟨0x3FF0000000000000⟩).dataType ∧
    (Value.int64 1).same (.float64 ⟨0x3FF0000000000000⟩) = false := by
  have plainTyped : plain.OfTypes dataTypes :=
    .cons (.inr rfl) (.cons (.inr rfl) (.cons (.inr rfl) (.cons (.inl rfl) .nil)))
  have oddTyped : odd.OfTypes dataTypes :=
    .cons (.inr rfl) (.cons (.inr rfl) (.cons (.inr rfl) (.cons (.inl rfl) .nil)))
  have apart : (Value.int64 1).dataType ≠ (Value.float64 ⟨0x3FF0000000000000⟩).dataType := by decide
  obtain ⟨-, -, -, -, different, -, -, ordered, -, hashed⟩ := equality_order_hashing_agree
  have level : List.Forall₂ (fun cell other => Value.order cell other = .eq) plain.cells odd.cells :=
    .cons (by decide) (.cons (by decide) (.cons (by decide) (.cons (by decide) .nil)))
  have equal := (ordered dataTypes plain odd plainTyped oddTyped).mpr level
  exact ⟨plainTyped, oddTyped, equal, hashed plain odd equal, apart, different _ _ apart⟩

end UnlikeKeys

end StratifiedSampling
