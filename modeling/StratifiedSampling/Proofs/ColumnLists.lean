import StratifiedSampling.Proofs.PackedBits
import StratifiedSampling.Proofs.RowForm

/-! Columns as lists of cells, some of them NULL. Data and bitmap are two lists that every call
changes together, so that a column stays a list of cells through any calls: values that are pushed
or refused, another column at its end, rows of its own, or nothing at all. It does not where a column is
put at its end that has more or fewer bits than rows: from there on bits and data are out of step. -/

namespace StratifiedSampling

namespace Column

variable {column other joined : Column} {indices : List Nat} {index : Nat}

theorem value_beyond (column : Column) (beyond : column.size ≤ index) : column.value index = .null := by
  cases column <;>
    simp only [value, Cells.cell?_eq_mark?, Cells.mark?_eq_none _ beyond, Option.bind_none, Option.map_none,
      Option.getD_none]

theorem value_eq_getD (column : Column) (index : Nat) : column.value index = column.values.getD index .null := by
  unfold values
  by_cases inside : index < column.size
  · simp [inside]
  · simp [inside, column.value_beyond (Nat.le_of_not_lt inside)]

/-- Rows past the end count as NULL and have the value NULL. -/
theorem isNull_eq_value (aligned : column.nulls.length = column.size) (index : Nat) :
    column.isNull index = (column.value index).isNull := by
  by_cases inside : index < column.size
  · exact (isNull_value inside).symm
  · have beyond : column.size ≤ index := Nat.le_of_not_lt inside
    rw [column.value_beyond beyond, isNull, NullBitmap.isNull, aligned, if_pos beyond]
    rfl

theorem countNull_eq (aligned : column.nulls.length = column.size) :
    column.countNull = column.values.countP Value.isNull := by
  rw [countNull, NullBitmap.countNull_eq, NullBitmap.bits, aligned, values, List.count, List.countP_map, List.countP_map]
  refine List.countP_congr fun index _ => ?_
  rw [Function.comp_apply, Function.comp_apply, ← isNull_eq_value aligned, beq_true]
  rfl

theorem value_append (clean : column.Clean) (made : column.append other = .ok joined) (index : Nat) :
    joined.value index = if index < column.size then column.value index else other.value (index - column.size) := by
  cases column <;> cases other <;> cases made <;>
    simp only [value, size, measure, Cells.cell?_eq_mark?, Cells.Clean.mark?_append clean] <;> split <;> rfl

theorem values_append (clean : column.Clean) (made : column.append other = .ok joined) :
    joined.values = column.values ++ other.values := by
  unfold values
  rw [size_append made, List.range_add, List.map_append, List.map_map]
  congr 1
  · refine List.map_congr_left fun index member => ?_
    rw [value_append clean made, if_pos (List.mem_range.mp member)]
  · refine List.map_congr_left fun index _ => ?_
    rw [Function.comp_apply, value_append clean made, if_neg (by omega), Nat.add_sub_cancel_left]

theorem values_picked (inside : ∀ index ∈ indices, index < column.size) :
    (column.picked indices).values = indices.map column.value := by
  refine List.ext_getElem (by simp [length_values, size_picked inside]) fun position first second => ?_
  rw [List.length_map] at second
  have listed : indices[position]? = some indices[position] := List.getElem?_eq_getElem second
  simp only [values, List.getElem_map, List.getElem_range]
  exact value_picked inside listed

theorem append_cases (column other : Column) :
    (column.dataType = other.dataType ∧ ∃ joined, column.append other = .ok joined) ∨
      column.dataType ≠ other.dataType ∧
        column.append other = .error (.typeMismatch column.dataType.name other.dataType.name) := by
  by_cases sameType : column.dataType = other.dataType
  · exact .inl ⟨sameType, exists_append sameType⟩
  · refine .inr ⟨sameType, ?_⟩
    cases column <;> cases other <;> first | rfl | exact absurd rfl sameType

theorem clear_eq (column : Column) : column.clear = empty column.dataType := by
  cases column <;> rfl

end Column

/-- A call that changes a column or puts another one in its place. -/
inductive ColumnCall where
  | push (value : Value)
  | ofValues (dataType : DataType) (values : List Value)
  | append (other : Column)
  | gather (indices : List Nat)
  | clear

/-- Cells of one type, some of them NULL. -/
structure CellList where
  dataType : DataType
  cells : List Value

namespace CellList

/-- Adds what the type makes of a value, unless it refuses the value. -/
def push (list : CellList) (value : Value) : Except Error CellList :=
  match list.dataType.coerce value with
  | some stored => .ok { list with cells := list.cells ++ [stored] }
  | none => .error (.typeMismatch list.dataType.name value.dataType.name)

def append (list : CellList) (dataType : DataType) (cells : List Value) : Except Error CellList :=
  if list.dataType = dataType then .ok { list with cells := list.cells ++ cells }
  else .error (.typeMismatch list.dataType.name dataType.name)

def gather (list : CellList) (indices : List Nat) : Except Error CellList :=
  if ∀ index ∈ indices, index < list.cells.length then
    .ok { list with cells := indices.map fun index => list.cells.getD index .null }
  else
    .error (.internal s!"gather: index {indices.foldl max 0} out of bounds for column of length {list.cells.length}")

end CellList

namespace ColumnCall

/-- A column that is appended has a bitmap as long as its data, as all columns have that calls lead to. -/
def Aligned : ColumnCall → Prop
  | append other => other.nulls.length = other.size
  | _ => True

def change (call : ColumnCall) (column : Column) : Except Error Column :=
  match call with
  | push value => column.push value
  | ofValues dataType values => Column.ofValues dataType values
  | append other => column.append other
  | gather indices => column.gather indices
  | clear => .ok column.clear

/-- What a call makes of a list of cells. -/
def changeList (call : ColumnCall) (list : CellList) : Except Error CellList :=
  match call with
  | push value => list.push value
  | ofValues dataType values => values.foldlM CellList.push ⟨dataType.stored, []⟩
  | append other => list.append other.dataType other.values
  | gather indices => list.gather indices
  | clear => .ok ⟨list.dataType, []⟩

/-- Makes calls one after the other, and leaves the state as it is after each that fails. -/
def runAll {σ : Type} (change : ColumnCall → σ → Except Error σ) :
    List ColumnCall → σ → List (Except Error Unit) × σ
  | [], state => ([], state)
  | call :: calls, state =>
    let (answer, state) := match change call state with
      | .ok after => (.ok (), after)
      | .error error => (.error error, state)
    let (answers, state) := runAll change calls state
    (answer :: answers, state)

end ColumnCall

/-- A column and the list of cells that it stands for. -/
structure Column.Lists (column : Column) (list : CellList) : Prop where
  packed : column.Packed
  dataType : column.dataType = list.dataType
  values : column.values = list.cells

/-- A column and a list that have been changed alike, or refused a change for one reason. -/
inductive Alike : Except Error Column → Except Error CellList → Prop where
  | changed {column : Column} {list : CellList} (lists : column.Lists list) : Alike (.ok column) (.ok list)
  | refused {error : Error} : Alike (.error error) (.error error)

namespace Column.Lists

variable {column : Column} {list : CellList}

theorem empty (dataType : DataType) : (Column.empty dataType).Lists ⟨dataType.stored, []⟩ where
  packed := packed_empty dataType
  dataType := dataType_empty dataType
  values := by rw [Column.values, size_empty]; rfl

theorem push (lists : column.Lists list) (value : Value) : Alike (column.push value) (list.push value) := by
  unfold CellList.push
  rw [← lists.dataType]
  rcases column.push_cases value with ⟨stored, pushed, coerced, added⟩ | ⟨refused, failed⟩
  · obtain ⟨packed, sameType, -⟩ := lists.packed.push added
    rw [coerced, added]
    refine .changed ⟨packed, sameType, ?_⟩
    rw [lists.packed.values_push coerced added, lists.values]
  · rw [refused, failed]
    exact .refused

theorem pushAll (lists : column.Lists list) (values : List Value) :
    Alike (column.pushAll values) (values.foldlM CellList.push list) := by
  induction values generalizing column list with
  | nil => exact .changed lists
  | cons value rest ih =>
    rw [pushAll_cons, List.foldlM_cons]
    have first := lists.push value
    generalize column.push value = changed at first ⊢
    generalize list.push value = expected at first ⊢
    cases first with
    | changed next => exact ih next
    | refused => exact .refused

theorem append (lists : column.Lists list) {other : Column} (aligned : other.nulls.length = other.size) :
    Alike (column.append other) (list.append other.dataType other.values) := by
  unfold CellList.append
  rw [← lists.dataType]
  rcases column.append_cases other with ⟨sameType, joined, made⟩ | ⟨different, failed⟩
  · rw [if_pos sameType, made]
    refine .changed ⟨lists.packed.append aligned made, (dataType_append made).2, ?_⟩
    rw [values_append lists.packed.clean made, lists.values]
  · rw [if_neg different, failed]
    exact .refused

theorem gather (lists : column.Lists list) (indices : List Nat) :
    Alike (column.gather indices) (list.gather indices) := by
  have size : list.cells.length = column.size := by rw [← lists.values, length_values]
  unfold CellList.gather
  rw [size]
  split
  next inside =>
    rw [gather_eq inside]
    refine .changed ⟨packed_picked inside, (dataType_picked column indices).trans lists.dataType, ?_⟩
    rw [values_picked inside, ← lists.values]
    exact List.map_congr_left fun index _ => column.value_eq_getD index
  next outside =>
    rw [gather_beyond (by simpa using outside)]
    exact .refused

theorem clear (lists : column.Lists list) : column.clear.Lists ⟨list.dataType, []⟩ := by
  have emptied := empty column.dataType
  rwa [← clear_eq, stored_dataType, lists.dataType] at emptied

theorem change (lists : column.Lists list) {call : ColumnCall} (aligned : call.Aligned) :
    Alike (call.change column) (call.changeList list) := by
  cases call with
  | push value => exact lists.push value
  -- The values go into a column of their own, so that the old one is still there if one is refused.
  | ofValues dataType values => exact (empty dataType).pushAll values
  | append other => exact lists.append aligned
  | gather indices => exact lists.gather indices
  | clear => exact .changed lists.clear

theorem runAll (lists : column.Lists list) {calls : List ColumnCall} (aligned : ∀ call ∈ calls, call.Aligned) :
    (ColumnCall.runAll ColumnCall.change calls column).1 = (ColumnCall.runAll ColumnCall.changeList calls list).1 ∧
      (ColumnCall.runAll ColumnCall.change calls column).2.Lists
        (ColumnCall.runAll ColumnCall.changeList calls list).2 := by
  induction calls generalizing column list with
  | nil => exact ⟨rfl, lists⟩
  | cons call calls ih =>
    obtain ⟨here, later⟩ := List.forall_mem_cons.mp aligned
    have first := lists.change here
    unfold ColumnCall.runAll
    generalize call.change column = changed at first ⊢
    generalize call.changeList list = expected at first ⊢
    cases first with
    | changed next =>
      obtain ⟨answers, last⟩ := ih next later
      exact ⟨congrArg _ answers, last⟩
    | refused =>
      obtain ⟨answers, last⟩ := ih lists later
      exact ⟨congrArg _ answers, last⟩

end Column.Lists

/-- A column is a list of cells, through any calls on it that append columns with a bit for each row. It
gives the answers that the list gives: values that its type takes come last as it stores them, cells of
another column follow its own, rows are the cells at their positions. Data and bitmap stay equally long,
and whatever is read off the column is read off the list; past the end everything is NULL. A call that
fails leaves the column as it is. None comes upon a missing word, unless a bitmap that is appended lacks it. -/
theorem column_is_list_of_cells (dataType : DataType) (calls : List ColumnCall)
    (aligned : ∀ call ∈ calls, call.Aligned) :
    let ran := ColumnCall.runAll ColumnCall.change calls (Column.empty dataType)
    let listed := ColumnCall.runAll ColumnCall.changeList calls (CellList.mk dataType.stored [])
    let column := ran.2
    let list := listed.2
    ran.1 = listed.1 ∧ column.dataType = list.dataType ∧ column.values = list.cells ∧
      column.size = list.cells.length ∧ column.nulls.length = column.size ∧
      (∀ index, column.value index = list.cells.getD index .null ∧
        column.isNull index = (list.cells.getD index .null).isNull) ∧
      column.countNull = list.cells.countP Value.isNull ∧
      (∀ call error, call.change column = .error error →
        ColumnCall.runAll ColumnCall.change [call] column = ([.error error], column)) ∧
      (∀ index, column.nulls.isNull? index = some (column.isNull index)) ∧
      column.nulls.countNull? = some column.countNull ∧
      (∀ isNull, column.nulls.push? isNull = some (column.nulls.push isNull)) ∧
      ∀ other : NullBitmap, other.Roomy → column.nulls.append? other = some (column.nulls.append other) := by
  intro ran listed column list
  obtain ⟨answers, lists⟩ := (Column.Lists.empty dataType).runAll aligned
  change column.Lists list at lists
  have bits := lists.packed.aligned
  have roomy : column.nulls.Roomy := lists.packed.tight.clean.room
  have size : column.size = list.cells.length := by rw [← column.length_values, lists.values]
  refine ⟨answers, lists.dataType, lists.values, size, bits, fun index => ?_, ?_, fun call error failed => ?_,
    roomy.isNull?_eq, roomy.countNull?_eq, roomy.push?_eq, fun _ => roomy.append?_eq⟩
  · rw [Column.isNull_eq_value bits, column.value_eq_getD, lists.values]
    exact ⟨rfl, rfl⟩
  · rw [Column.countNull_eq bits, lists.values]
  · simp only [ColumnCall.runAll, failed]

namespace Temperatures

/-- Two temperatures, the second of them unknown. -/
def later : Column := .float64 ⟨#[⟨0x4034000000000000⟩, .zero], ⟨#[0b10], 2⟩⟩

def calls : List ColumnCall :=
  [.push (.int64 18), .append later, .push (.string "mild"), .gather [2, 0, 0], .gather [3]]

/-- Temperatures that are put together and picked from; a text and a row past the end are refused. -/
theorem cells_of_calls : (∀ call ∈ calls, call.Aligned) ∧
    let column := (ColumnCall.runAll ColumnCall.change calls (Column.empty .float64)).2
    column.values = [.null, .float64 (.ofInt 18), .float64 (.ofInt 18)] ∧ column.nulls.length = 3 ∧
      column.countNull = 1 ∧ later.nulls.Roomy ∧
      column.nulls.append? later.nulls = some (column.nulls.append later.nulls) := by
  have aligned : ∀ call ∈ calls, call.Aligned := by
    simp only [calls, List.forall_mem_cons]
    exact ⟨trivial, rfl, trivial, trivial, trivial, nofun⟩
  have roomy : later.nulls.Roomy := by decide
  obtain ⟨-, -, values, size, bits, -, nulls, -, -, -, -, joined⟩ := column_is_list_of_cells .float64 calls aligned
  exact ⟨aligned, values, bits.trans size, nulls, roomy, joined _ roomy⟩

end Temperatures

/-- A column without a bit for its row shifts the bits of all rows after it: the cell that is pushed next
reads as NULL, and the row before it as known. A bitmap that lacks a word cannot be appended. -/
theorem unmarked_row_shifts_cells :
    let calls : List ColumnCall := [.append (.int64 ⟨#[1], .empty⟩), .push (.int64 5)]
    let ran := ColumnCall.runAll ColumnCall.change calls (Column.empty .int64)
    let listed := ColumnCall.runAll ColumnCall.changeList calls ⟨.int64, []⟩
    ran.1 = [.ok (), .ok ()] ∧ ran.2.size = 2 ∧ ran.2.nulls.length = 1 ∧ ran.2.values = [.int64 1, .null] ∧
      listed.2.cells = [.null, .int64 5] ∧ ran.2.countNull = 0 ∧ NullBitmap.append? .empty ⟨#[], 1⟩ = none := by
  intro calls ran listed
  exact ⟨rfl, rfl, rfl, rfl, rfl, by decide, rfl⟩

end StratifiedSampling
