import StratifiedSampling.Proofs.ColumnCells

/-! How columns store their cells: under the type of their field, beside a bitmap that is
as long as the data and has no bit set past its end. Values that are pushed, rows that are
gathered and data without NULL are all stored so. -/

namespace StratifiedSampling

/-- The type under which cells of a declared type are stored. -/
def DataType.stored : DataType → DataType
  | unknown => string
  | dataType => dataType

theorem NullBitmap.Tight.valid (length : Nat) : (valid length).Tight where
  words := by simp [NullBitmap.valid]
  clear index _ := bit_valid length index

namespace Cells

variable {α : Type}

/-- Cells whose bitmap is as long as the data and has no more words than that takes. -/
structure Packed (cells : Cells α) : Prop where
  tight : cells.nulls.Tight
  aligned : cells.nulls.length = cells.size

theorem Packed.empty : (empty : Cells α).Packed :=
  ⟨.empty, rfl⟩

theorem Packed.push {cells : Cells α} (packed : cells.Packed) (value : α) : (cells.push value).Packed :=
  ⟨packed.tight.push false, by simpa [Cells.push, size, NullBitmap.push] using packed.aligned⟩

theorem Packed.pushNull {cells : Cells α} (packed : cells.Packed) (placeholder : α) :
    (cells.pushNull placeholder).Packed :=
  ⟨packed.tight.push true, by simpa [Cells.pushNull, size, NullBitmap.push] using packed.aligned⟩

theorem packed_present (data : List α) : (Table.present data).Packed :=
  ⟨.valid _, by simp [Table.present, NullBitmap.valid, size]⟩

theorem packed_gather {cells : Cells α} {indices : List Nat} (inside : ∀ index ∈ indices, index < cells.size) :
    (cells.gather indices).Packed :=
  ⟨(cells.taken_gather inside).tight, (cells.taken_gather inside).nulls.trans (size_gather inside).symm⟩

end Cells

namespace Column

/-- A column that holds cells of a declared type. -/
structure Fits (column : Column) (dataType : DataType) : Prop where
  stored : column.dataType = dataType.stored
  aligned : column.nulls.length = column.size
  clear : ∀ index, column.size ≤ index → NullBitmap.bit column.nulls.words index = false

def Packed (column : Column) : Prop :=
  column.measure fun cells => cells.Packed

theorem Packed.tight {column : Column} (packed : column.Packed) : column.nulls.Tight := by
  cases column <;> exact Cells.Packed.tight packed

theorem Packed.aligned {column : Column} (packed : column.Packed) : column.nulls.length = column.size := by
  cases column <;> exact Cells.Packed.aligned packed

theorem Packed.fits {column : Column} {dataType : DataType} (packed : column.Packed)
    (stored : column.dataType = dataType.stored) : column.Fits dataType :=
  ⟨stored, packed.aligned, fun index beyond => packed.tight.clear index (packed.aligned ▸ beyond)⟩

theorem fits_float64 (data : List Double) : (float64 (Table.present data)).Fits .float64 :=
  Packed.fits (Cells.packed_present data) rfl

theorem fits_int64 (data : List Int64) : (int64 (Table.present data)).Fits .int64 :=
  Packed.fits (Cells.packed_present data) rfl

theorem stored_dataType (column : Column) : column.dataType.stored = column.dataType := by
  cases column <;> rfl

section Gather
variable {column : Column} {indices : List Nat}

theorem dataType_picked (column : Column) (indices : List Nat) : (column.picked indices).dataType = column.dataType := by
  cases column <;> rfl

theorem packed_picked (inside : ∀ index ∈ indices, index < column.size) : (column.picked indices).Packed := by
  cases column <;> exact Cells.packed_gather inside

theorem Fits.picked {dataType : DataType} (fits : column.Fits dataType)
    (inside : ∀ index ∈ indices, index < column.size) : (column.picked indices).Fits dataType :=
  (packed_picked inside).fits ((dataType_picked column indices).trans fits.stored)

/-- Rows are gathered only if they are all there. -/
theorem gather_eq_ok {gathered : Column} (chosen : column.gather indices = .ok gathered) :
    gathered = column.picked indices ∧ ∀ index ∈ indices, index < column.size := by
  have inside : ∀ index ∈ indices, index < column.size := by
    intro index member
    unfold gather at chosen
    dsimp only at chosen
    split at chosen
    next bounded =>
      have filled : indices.isEmpty = false := List.isEmpty_eq_false_iff.mpr (List.ne_nil_of_mem member)
      rw [filled, Bool.false_or, decide_eq_true_iff] at bounded
      have most := (le_foldl_max indices 0).2 index member
      omega
    next => cases chosen
  rw [gather_eq inside] at chosen
  cases chosen
  exact ⟨rfl, inside⟩

theorem gather_beyond (beyond : ∃ index ∈ indices, column.size ≤ index) : column.gather indices =
    .error (.internal s!"gather: index {indices.foldl max 0} out of bounds for column of length {column.size}") := by
  obtain ⟨index, member, outside⟩ := beyond
  have most := (le_foldl_max indices 0).2 index member
  have refused : ¬(indices.isEmpty || decide (indices.foldl max 0 < column.size)) = true := by
    simp [List.ne_nil_of_mem member]
    omega
  exact if_neg refused

end Gather

section Push
variable {column pushed : Column}

theorem packed_empty (dataType : DataType) : (empty dataType).Packed := by
  cases dataType <;> exact .empty

theorem dataType_empty (dataType : DataType) : (empty dataType).dataType = dataType.stored := by
  cases dataType <;> rfl

theorem size_empty (dataType : DataType) : (empty dataType).size = 0 := by
  cases dataType <;> rfl

theorem Packed.push {value : Value} (packed : column.Packed) (added : column.push value = .ok pushed) :
    pushed.Packed ∧ pushed.dataType = column.dataType ∧ pushed.size = column.size + 1 := by
  unfold Column.push at added
  split at added <;> cases added
  next => cases column <;> exact ⟨Cells.Packed.pushNull packed _, rfl, Array.size_push _⟩
  all_goals exact ⟨Cells.Packed.push packed _, rfl, Array.size_push _⟩

theorem Packed.pushAll {values : List Value} (packed : column.Packed) (added : column.pushAll values = .ok pushed) :
    pushed.Packed ∧ pushed.dataType = column.dataType ∧ pushed.size = column.size + values.length := by
  induction values generalizing column with
  | nil =>
    cases added
    exact ⟨packed, rfl, rfl⟩
  | cons value rest ih =>
    rw [Column.pushAll, List.foldlM_cons] at added
    obtain ⟨next, first, others⟩ := bind_eq_ok added
    obtain ⟨packed, sameType, size⟩ := packed.push first
    obtain ⟨packed, finalType, finalSize⟩ := ih packed others
    refine ⟨packed, finalType.trans sameType, ?_⟩
    rw [finalSize, size, List.length_cons]
    omega

end Push

end Column

end StratifiedSampling
