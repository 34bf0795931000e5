import StratifiedSampling.Proofs.IntactTables

/-! Rows that are pushed one at a time. A row is written from left to right, and the columns
before the first that refuses its value keep the cells they were given. -/

namespace StratifiedSampling

/-- What a column of some type stores for a value, if it takes the value at all. -/
def DataType.coerce : DataType → Value → Option Value
  | _, .null => some .null
  | .float64, .int64 value => some (.float64 (.ofInt value.toInt))
  | .numeric, .int64 value => some (.numeric (.ofInt value.toInt))
  | dataType, value => if value.dataType = dataType then some value else none

namespace Cells

variable {α : Type} {cells : Cells α}

theorem Packed.cell?_push (packed : cells.Packed) (value : α) (index : Nat) :
    (cells.push value).cell? index = if index = cells.size then some value else cells.cell? index := by
  have null : (cells.push value).nulls.isNull index = if index = cells.size then false else cells.nulls.isNull index := by
    rw [← packed.aligned]
    exact packed.tight.clean.isNull_push false index
  unfold cell?
  rw [null]
  split
  next last => simp [Cells.push, last, size]
  next other =>
    have apart : index ≠ cells.data.size := other
    simp [Cells.push, Array.getElem?_push, apart]

theorem Packed.cell?_pushNull (packed : cells.Packed) (placeholder : α) (index : Nat) :
    (cells.pushNull placeholder).cell? index = if index = cells.size then none else cells.cell? index := by
  have null : (cells.pushNull placeholder).nulls.isNull index =
      if index = cells.size then true else cells.nulls.isNull index := by
    rw [← packed.aligned]
    exact packed.tight.clean.isNull_push true index
  unfold cell?
  rw [null]
  split
  next last => simp
  next other =>
    have apart : index ≠ cells.data.size := other
    simp [Cells.pushNull, Array.getElem?_push, apart]

end Cells

namespace Column

variable {column : Column}

/-- A column takes the values that its type coerces, and refuses all others. -/
theorem push_cases (column : Column) (value : Value) :
    (∃ stored pushed, column.dataType.coerce value = some stored ∧ column.push value = .ok pushed) ∨
      column.dataType.coerce value = none ∧
        column.push value = .error (.typeMismatch column.dataType.name value.dataType.name) := by
  cases column <;> cases value <;>
    first
    | exact .inl ⟨_, _, rfl, rfl⟩
    | exact .inr ⟨rfl, rfl⟩

theorem Packed.value_push {value stored : Value} {pushed : Column} (packed : column.Packed)
    (coerced : column.dataType.coerce value = some stored) (added : column.push value = .ok pushed) :
    pushed.value column.size = stored ∧ ∀ index, index ≠ column.size → pushed.value index = column.value index := by
  cases column <;> cases value <;> cases added <;> cases coerced <;>
    refine ⟨?_, fun index other => ?_⟩ <;>
    first
    | simp only [Column.value, pushNull, size, measure, Cells.Packed.cell?_push packed,
        Cells.Packed.cell?_pushNull packed, if_true]
      rfl
    | have apart : index ≠ Cells.size _ := other
      simp only [Column.value, pushNull, Cells.Packed.cell?_push packed, Cells.Packed.cell?_pushNull packed,
        if_neg apart]

/-- A value that is taken becomes the last of its column. -/
theorem Packed.values_push {value stored : Value} {pushed : Column} (packed : column.Packed)
    (coerced : column.dataType.coerce value = some stored) (added : column.push value = .ok pushed) :
    pushed.values = column.values ++ [stored] := by
  obtain ⟨-, -, size⟩ := packed.push added
  obtain ⟨last, others⟩ := packed.value_push coerced added
  unfold values
  rw [size, List.range_succ, List.map_append, List.map_singleton, last]
  congr 1
  refine List.map_congr_left fun index member => others index ?_
  exact Nat.ne_of_lt (List.mem_range.mp member)

theorem length_values (column : Column) : column.values.length = column.size := by
  simp [values]

theorem value_of_values {column pushed : Column} {stored : Value} (grown : pushed.values = column.values ++ [stored]) :
    pushed.size = column.size + 1 ∧ pushed.value column.size = stored ∧
      ∀ index < column.size, pushed.value index = column.value index := by
  have size : pushed.size = column.size + 1 := by
    rw [← pushed.length_values, grown, List.length_append, column.length_values, List.length_singleton]
  have cells : ∀ index < pushed.size, (column.values ++ [stored])[index]? = some (pushed.value index) := by
    intro index inside
    rw [← grown]
    simp [values, inside]
  refine ⟨size, ?_, fun index inside => ?_⟩
  · have last := cells column.size (by omega)
    rw [← column.length_values, List.getElem?_concat_length, column.length_values] at last
    exact (Option.some.inj last).symm
  · have here := cells index (by omega)
    rw [List.getElem?_append_left (column.length_values ▸ inside)] at here
    simpa [values, inside] using here.symm

end Column

namespace Table

def types (table : Table) : List DataType :=
  table.columns.map fun entry => entry.2.dataType

/-- The cells that columns of some types store of a row, up to the first value that is refused. -/
def coerceRow : List DataType → Row → Row
  | dataType :: types, value :: values =>
    match dataType.coerce value with
    | some stored => stored :: coerceRow types values
    | none => []
  | _, _ => []

/-- Whether columns of some types take a row, and which of them refuses it. -/
def judgeRow : List DataType → Row → Except Error Unit
  | dataType :: types, value :: values =>
    match dataType.coerce value with
    | some _ => judgeRow types values
    | none => .error (.typeMismatch dataType.name value.dataType.name)
  | _, _ => .ok ()

/-- The cells that a row leaves in a table; none if it is of the wrong length. -/
def written (table : Table) (row : Row) : Row :=
  if row.length = table.width then coerceRow table.types row else []

def verdict (table : Table) (row : Row) : Except Error Unit :=
  if row.length ≠ table.width then
    .error (.schemaMismatch s!"row has {row.length} values but table has {table.width} columns")
  else judgeRow table.types row

/-- Pushes rows one after the other, whatever becomes of each. -/
def pushEach : Table → List Row → Table × List (Except Error Unit)
  | table, [] => (table, [])
  | table, row :: rows =>
    let (table, outcome) := table.pushRow row
    let (table, outcomes) := table.pushEach rows
    (table, outcome :: outcomes)

/-- Columns of which the first few have got one more cell. -/
inductive Grows : List (String × Column) → Row → List (String × Column) → Prop where
  | stops {columns : List (String × Column)} : Grows columns [] columns
  | takes {name : String} {column pushed : Column} {stored : Value} {columns grown : List (String × Column)}
      {cells : Row} (packed : pushed.Packed) (sameType : pushed.dataType = column.dataType)
      (values : pushed.values = column.values ++ [stored]) (others : Grows columns cells grown) :
      Grows ((name, column) :: columns) (stored :: cells) ((name, pushed) :: grown)

theorem pushCells_grows {columns : List (String × Column)} (packed : ∀ entry ∈ columns, entry.2.Packed) (row : Row) :
    Grows columns (coerceRow (columns.map fun entry => entry.2.dataType) row) (pushCells columns row).1 := by
  induction columns generalizing row with
  | nil => exact .stops
  | cons entry columns ih =>
    obtain ⟨name, column⟩ := entry
    cases row with
    | nil => exact .stops
    | cons value row =>
      have others := ih (fun entry member => packed entry (List.mem_cons_of_mem _ member)) row
      have here : column.Packed := packed _ List.mem_cons_self
      rw [List.map_cons, coerceRow, pushCells]
      rcases column.push_cases value with ⟨stored, pushed, coerced, added⟩ | ⟨refused, failed⟩
      · rw [coerced, added]
        obtain ⟨packed, sameType, -⟩ := here.push added
        exact .takes packed sameType (here.values_push coerced added) others
      · rw [refused, failed]
        exact .stops

theorem pushCells_outcome (columns : List (String × Column)) (row : Row) :
    (pushCells columns row).2 = judgeRow (columns.map fun entry => entry.2.dataType) row := by
  induction columns generalizing row with
  | nil => rfl
  | cons entry columns ih =>
    obtain ⟨name, column⟩ := entry
    cases row with
    | nil => rfl
    | cons value row =>
      rw [List.map_cons, judgeRow, pushCells]
      rcases column.push_cases value with ⟨stored, pushed, coerced, added⟩ | ⟨refused, failed⟩
      · rw [coerced, added]
        exact ih row
      · rw [refused, failed]

theorem length_coerceRow {types : List DataType} {row : Row} (taken : judgeRow types row = .ok ())
    (even : row.length = types.length) : (coerceRow types row).length = types.length := by
  induction types generalizing row with
  | nil => rfl
  | cons dataType types ih =>
    obtain ⟨value, values, rfl⟩ := List.exists_cons_of_length_eq_add_one even
    rw [judgeRow] at taken
    rw [coerceRow]
    cases coerced : dataType.coerce value with
    | none =>
      rw [coerced] at taken
      cases taken
    | some stored =>
      rw [coerced] at taken
      exact congrArg (· + 1) (ih taken (Nat.succ.inj even))

namespace Grows

variable {columns grown : List (String × Column)} {cells : Row}

theorem names (grows : Grows columns cells grown) : grown.map Prod.fst = columns.map Prod.fst := by
  induction grows with
  | stops => rfl
  | takes _ _ _ _ ih => rw [List.map_cons, List.map_cons, ih]

theorem types (grows : Grows columns cells grown) :
    grown.map (fun entry => entry.2.dataType) = columns.map fun entry => entry.2.dataType := by
  induction grows with
  | stops => rfl
  | takes _ sameType _ _ ih => rw [List.map_cons, List.map_cons, ih, sameType]

theorem packed (grows : Grows columns cells grown) (before : ∀ entry ∈ columns, entry.2.Packed) :
    ∀ entry ∈ grown, entry.2.Packed := by
  induction grows with
  | stops => exact before
  | takes packed _ _ _ ih =>
    intro entry member
    rcases List.mem_cons.mp member with rfl | member
    · exact packed
    · exact ih (fun entry member => before entry (List.mem_cons_of_mem _ member)) entry member

/-- Each column has got the cell at its position, if the row came as far. -/
theorem values (grows : Grows columns cells grown) {position : Nat} {name : String} {column : Column}
    (found : columns[position]? = some (name, column)) :
    ∃ pushed, grown[position]? = some (name, pushed) ∧ pushed.values = column.values ++ (cells[position]?).toList := by
  induction grows generalizing position with
  | stops => exact ⟨column, found, by simp⟩
  | takes _ _ values _ ih =>
    cases position with
    | zero =>
      cases found
      exact ⟨_, rfl, values⟩
    | succ position => exact ih found

/-- Rows that all columns have are as they were. -/
theorem rowAt (grows : Grows columns cells grown) {index : Nat} (inside : ∀ entry ∈ columns, index < entry.2.size) :
    grown.map (fun entry => entry.2.value index) = columns.map fun entry => entry.2.value index := by
  induction grows with
  | stops => rfl
  | takes _ _ values _ ih =>
    obtain ⟨-, -, kept⟩ := Column.value_of_values values
    rw [List.map_cons, List.map_cons, ih fun entry member => inside entry (List.mem_cons_of_mem _ member)]
    exact congrArg (· :: _) (kept index (inside _ List.mem_cons_self))

/-- A row that all columns have taken is the next row. -/
theorem whole (grows : Grows columns cells grown) (full : cells.length = columns.length) {count : Nat}
    (even : ∀ entry ∈ columns, entry.2.size = count) :
    (∀ entry ∈ grown, entry.2.size = count + 1) ∧ grown.map (fun entry => entry.2.value count) = cells := by
  induction grows with
  | @stops columns =>
    obtain rfl := List.eq_nil_of_length_eq_zero full.symm
    exact ⟨by simp, rfl⟩
  | @takes name column pushed stored columns grown cells _ _ values _ ih =>
    obtain ⟨size, last, -⟩ := Column.value_of_values values
    have here : column.size = count := even _ List.mem_cons_self
    rw [here] at size last
    obtain ⟨sizes, row⟩ := ih (Nat.succ.inj full) fun entry member => even entry (List.mem_cons_of_mem _ member)
    refine ⟨fun entry member => ?_, by rw [List.map_cons, row, last]⟩
    rcases List.mem_cons.mp member with rfl | member
    · exact size
    · exact sizes entry member

theorem eq_iff (grows : Grows columns cells grown) : grown = columns ↔ cells = [] := by
  cases grows with
  | stops => exact ⟨fun _ => rfl, fun _ => rfl⟩
  | takes _ _ values _ =>
    refine ⟨fun same => ?_, nofun⟩
    obtain ⟨size, -⟩ := Column.value_of_values values
    rw [(Prod.mk.inj (List.cons.inj same).1).2] at size
    omega

end Grows

/-- A well-formed table whose columns are stored as pushing stores them. -/
structure Solid (table : Table) : Prop extends WellFormed table where
  packed : ∀ entry ∈ table.columns, entry.2.Packed

/-- Tables that are built from rows are solid. -/
theorem solid_ofRows {schema : Schema} {rows : List Row} {table : Table} (built : ofRows schema rows = .ok table) :
    table.Solid := by
  obtain ⟨formed, -, -⟩ := intact_ofRows built
  obtain ⟨entries, rfl, -, -, filled⟩ := filled_ofRows built
  refine ⟨formed.toWellFormed, fun column member => ?_⟩
  obtain ⟨entry, listed, rfl⟩ := List.mem_map.mp member
  exact (filled entry listed).packed

/-- What one push does: it judges the row, and it writes cells, whether it fails or not. -/
structure Pushed (before : Table) (row : Row) (after : Table) (outcome : Except Error Unit) : Prop where
  schema : after.schema = before.schema
  judged : outcome = before.verdict row
  grows : Grows before.columns (before.written row) after.columns
  rowCount : after.rowCount = before.rowCount + if outcome.toOption.isSome then 1 else 0

theorem pushRow_pushed {table : Table} (packed : ∀ entry ∈ table.columns, entry.2.Packed) (row : Row) :
    Pushed table row (table.pushRow row).1 (table.pushRow row).2 := by
  unfold pushRow
  split
  next uneven => exact ⟨rfl, (if_pos uneven).symm, by rw [written, if_neg uneven]; exact .stops, rfl⟩
  next even =>
    have even := not_not.mp even
    have grows := pushCells_grows packed row
    have outcome := pushCells_outcome table.columns row
    have judged : table.verdict row = judgeRow table.types row := if_neg (not_not.mpr even)
    have wrote : table.written row = coerceRow (table.columns.map fun entry => entry.2.dataType) row := if_pos even
    rw [← wrote] at grows
    generalize pushCells table.columns row = ran at grows outcome ⊢
    obtain ⟨columns, result⟩ := ran
    cases result with
    | ok done => exact ⟨rfl, outcome.trans judged.symm, grows, rfl⟩
    | error error => exact ⟨rfl, outcome.trans judged.symm, grows, rfl⟩

namespace Pushed

variable {before after : Table} {row : Row} {outcome : Except Error Unit}

theorem width (pushed : Pushed before row after outcome) : after.width = before.width := by
  have names := congrArg List.length pushed.grows.names
  simpa [Table.width] using names

theorem written (pushed : Pushed before row after outcome) : after.written = before.written := by
  funext other
  rw [Table.written, Table.written, pushed.width, types, types, pushed.grows.types]

theorem verdict (pushed : Pushed before row after outcome) : after.verdict = before.verdict := by
  funext other
  rw [Table.verdict, Table.verdict, pushed.width, types, types, pushed.grows.types]

theorem earlierRows (pushed : Pushed before row after outcome) (formed : before.WellFormed) :
    (List.range before.rowCount).map after.rowAt = before.rows := by
  refine List.map_congr_left fun index member => pushed.grows.rowAt fun entry listed => ?_
  rw [formed.even entry listed]
  exact List.mem_range.mp member

/-- A row that is refused adds no row, and leaves the others as they are. -/
theorem refused {error : Error} (pushed : Pushed before row after (.error error)) (formed : before.WellFormed) :
    after.rowCount = before.rowCount ∧ after.rows = before.rows ∧ (after = before ↔ before.written row = []) := by
  have earlier := pushed.earlierRows formed
  obtain ⟨schema, -, grows, rowCount⟩ := pushed
  refine ⟨rowCount, ?_, ?_⟩
  · rw [← earlier, rows, rowCount]
    rfl
  · rw [← grows.eq_iff]
    refine ⟨congrArg Table.columns, fun same => ?_⟩
    obtain ⟨_, _, _⟩ := after
    cases schema
    cases rowCount
    cases same
    rfl

/-- A row that is taken is the last row of the table. -/
theorem taken (pushed : Pushed before row after (.ok ())) (solid : before.Solid) :
    after.Solid ∧ after.rows = before.rows ++ [before.written row] := by
  have earlier := pushed.earlierRows solid.toWellFormed
  obtain ⟨schema, judged, grows, rowCount⟩ := pushed
  have even : row.length = before.width := by
    by_contra uneven
    rw [Table.verdict, if_pos uneven] at judged
    cases judged
  rw [Table.verdict, if_neg (not_not.mpr even)] at judged
  have full : (before.written row).length = before.columns.length := by
    rw [Table.written, if_pos even, length_coerceRow judged.symm (by simpa [types, Table.width] using even), types,
      List.length_map]
  obtain ⟨sizes, last⟩ := grows.whole full solid.even
  refine ⟨⟨⟨?_, ?_, ?_⟩, grows.packed solid.packed⟩, ?_⟩
  · rw [schema, grows.names]
    exact solid.named
  · rw [schema]
    exact solid.distinct
  · rw [rowCount]
    exact sizes
  · rw [← earlier, rows, rowCount]
    change (List.range (before.rowCount + 1)).map _ = _
    rw [List.range_succ, List.map_append, List.map_singleton]
    exact congrArg (fun cells => _ ++ [cells]) last

end Pushed

/-- The verdict on a row does not depend on the rows before it. -/
theorem pushEach_outcomes {table : Table} (packed : ∀ entry ∈ table.columns, entry.2.Packed) (rows : List Row) :
    (table.pushEach rows).2 = rows.map table.verdict := by
  induction rows generalizing table with
  | nil => rfl
  | cons row rows ih =>
    have pushed := pushRow_pushed packed row
    change (table.pushRow row).2 :: ((table.pushRow row).1.pushEach rows).2 = _
    rw [ih (pushed.grows.packed packed), pushed.verdict, List.map_cons, pushed.judged]

/-- Every column has got the cell of every row that came as far. -/
theorem pushEach_values {table : Table} (packed : ∀ entry ∈ table.columns, entry.2.Packed) (rows : List Row)
    {position : Nat} {name : String} {column : Column} (found : table.columns[position]? = some (name, column)) :
    ∃ grown, (table.pushEach rows).1.columns[position]? = some (name, grown) ∧
      grown.values = column.values ++ rows.filterMap fun row => (table.written row)[position]? := by
  induction rows generalizing table column with
  | nil => exact ⟨column, found, by simp⟩
  | cons row rows ih =>
    have pushed := pushRow_pushed packed row
    obtain ⟨middle, there, first⟩ := pushed.grows.values found
    obtain ⟨grown, last, rest⟩ := ih (pushed.grows.packed packed) there
    refine ⟨grown, last, ?_⟩
    rw [rest, first, pushed.written, List.append_assoc, List.filterMap_cons]
    cases (table.written row)[position]? <;> rfl

/-- As long as rows are refused whole, the rows of a table are those that it took. -/
theorem rows_pushEach {table : Table} (solid : table.Solid) {rows : List Row}
    (refusedWhole : ∀ row ∈ rows, (table.verdict row).toOption.isSome = false → table.written row = []) :
    (table.pushEach rows).1.rows =
      table.rows ++ (rows.filter fun row => (table.verdict row).toOption.isSome).map table.written := by
  induction rows generalizing table with
  | nil => simp [pushEach]
  | cons row rows ih =>
    have pushed := pushRow_pushed solid.packed row
    have others : ∀ other ∈ rows, ((table.pushRow row).1.verdict other).toOption.isSome = false →
        (table.pushRow row).1.written other = [] := by
      rw [pushed.verdict, pushed.written]
      exact fun other member => refusedWhole other (List.mem_cons_of_mem _ member)
    have judged := pushed.judged
    change ((table.pushRow row).1.pushEach rows).1.rows = _
    cases outcome : (table.pushRow row).2 with
    | ok done =>
      rw [outcome] at judged
      obtain ⟨after, last⟩ := (outcome ▸ pushed).taken solid
      rw [ih after others, last, pushed.verdict, pushed.written,
        List.filter_cons_of_pos (by rw [← judged]; rfl), List.map_cons, List.append_assoc]
      rfl
    | error error =>
      rw [outcome] at judged
      have nothing := refusedWhole row List.mem_cons_self (by rw [← judged]; rfl)
      have same := ((outcome ▸ pushed).refused solid.toWellFormed).2.2.mpr nothing
      rw [same] at others ⊢
      rw [ih solid others, List.filter_cons_of_neg (by rw [← judged]; simp [Except.toOption])]

end Table

/-- A row that is refused leaves the rows of a table as they are, but the table itself only if
no column before the one that refuses has stored its cell. Over many pushes, each column gets the
cells of all rows that came as far; where rows are refused whole, the rows of the table are
those that were taken, in their order and with their values coerced. -/
theorem pushes_leave {table : Table} (solid : table.Solid) :
    (∀ row error, (table.pushRow row).2 = .error error →
      (table.pushRow row).1.rowCount = table.rowCount ∧ (table.pushRow row).1.rows = table.rows ∧
      ((table.pushRow row).1 = table ↔ table.written row = [])) ∧
    ∀ rows, (table.pushEach rows).2 = rows.map table.verdict ∧
      (∀ (position : Nat) (name : String) (column : Column), table.columns[position]? = some (name, column) →
        ∃ grown, (table.pushEach rows).1.columns[position]? = some (name, grown) ∧
          grown.values = column.values ++ rows.filterMap fun row => (table.written row)[position]?) ∧
      ((∀ row ∈ rows, (table.verdict row).toOption.isSome = false → table.written row = []) →
        (table.pushEach rows).1.rows =
          table.rows ++ (rows.filter fun row => (table.verdict row).toOption.isSome).map table.written) := by
  refine ⟨fun row error failed => ?_, fun rows => ⟨Table.pushEach_outcomes solid.packed rows, ?_, ?_⟩⟩
  · have pushed := Table.pushRow_pushed solid.packed row
    exact (failed ▸ pushed).refused solid.toWellFormed
  · intro position name column found
    exact Table.pushEach_values solid.packed rows found
  · exact Table.rows_pushEach solid

namespace TwoNumbers

/-- A table of two columns of whole numbers, without rows. -/
def table : Table :=
  ⟨⟨[.nullable "left" .int64, .nullable "right" .int64]⟩, [("left", .int64 .empty), ("right", .int64 .empty)], 0⟩

theorem solid : table.Solid := by
  have built : Table.ofRows table.schema [] = .ok table := rfl
  exact Table.solid_ofRows built

/-- The first cell of a refused row stays, and the next row that is taken moves against it. -/
theorem refused_row_shows : (table.pushRow [.int64 1, .string "x"]).2 = .error (.typeMismatch "INT64" "STRING") ∧
    (table.pushRow [.int64 1, .string "x"]).1 ≠ table ∧
    (table.pushEach [[.int64 1, .string "x"], [.int64 2, .int64 3]]).2 = [.error (.typeMismatch "INT64" "STRING"), .ok ()] ∧
    (table.pushEach [[.int64 1, .string "x"], [.int64 2, .int64 3]]).1.rows = [[.int64 1, .int64 3]] := by
  refine ⟨rfl, fun same => ?_, rfl, rfl⟩
  have sizes := congrArg (fun table => table.columns.map fun entry => entry.2.size) same
  revert sizes
  decide

theorem refused_rows_vanish :
    (table.pushEach [[.int64 1], [.string "x", .int64 1], [.int64 2, .null]]).1.rows = [[.int64 2, .null]] := by
  have refusedWhole : ∀ row ∈ [[.int64 1], [.string "x", .int64 1], [.int64 2, .null]],
      (table.verdict row).toOption.isSome = false → table.written row = [] := by
    decide
  exact (((pushes_leave solid).2 _).2.2 refusedWhole).trans rfl

end TwoNumbers

end StratifiedSampling
