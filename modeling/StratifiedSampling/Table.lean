import StratifiedSampling.Column
import StratifiedSampling.Schema

/-! Tables: a schema, columns by name, and the number of rows. The column map keeps
the order of the schema and holds a name once. The row count is kept apart because a
table without columns has rows, too. -/

namespace StratifiedSampling

abbrev Row := List Value

namespace Schema

def valueOf? (schema : Schema) (row : Row) (name : String) : Option Value :=
  (schema.index? name).bind fun index => row[index]?

end Schema

structure Table where
  schema : Schema
  columns : List (String × Column)
  rowCount : Nat

namespace Table

/-- A name that is in the map keeps its place and gets the new column. -/
def insertColumn (columns : List (String × Column)) (name : String) (column : Column) : List (String × Column) :=
  if columns.any fun entry => entry.1 == name then
    columns.map fun entry => if entry.1 == name then (name, column) else entry
  else columns ++ [(name, column)]

def columnMap (entries : List (String × Column)) : List (String × Column) :=
  entries.foldl (fun columns entry => insertColumn columns entry.1 entry.2) []

def empty (schema : Schema) : Table :=
  ⟨schema, columnMap (schema.fields.map fun field => (field.name, .empty field.dataType)), 0⟩

def isEmpty (table : Table) : Bool :=
  table.rowCount == 0

def width (table : Table) : Nat :=
  table.columns.length

def columnAt? (table : Table) (index : Nat) : Option Column :=
  (table.columns[index]?).map Prod.snd

def columnAt (table : Table) (index : Nat) : Except Error Column :=
  match table.columnAt? index with
  | some column => .ok column
  | none => .error (.internal s!"column index {index} out of range")

def column? (table : Table) (name : String) : Option Column :=
  (table.columns.find? fun entry => entry.1 == name).map Prod.snd

def requireColumn (table : Table) (name : String) : Except Error Column :=
  match table.column? name with
  | some column => .ok column
  | none =>
    .error (.schemaMismatch ("column '" ++ name ++ "' not found (available: " ++
      String.intercalate ", " table.schema.names ++ ")"))

def firstUneven (expected : Nat) : List Field → List Column → Option (String × Nat)
  | field :: fields, column :: columns =>
    if column.size == expected then firstUneven expected fields columns else some (field.name, column.size)
  | _, _ => none

def ofColumns (schema : Schema) (columns : List Column) : Except Error Table := do
  schema.validate
  if schema.size ≠ columns.length then
    throw (.internal s!"schema has {schema.size} fields but {columns.length} columns were supplied")
  let rowCount := (columns.head?.map Column.size).getD 0
  match firstUneven rowCount schema.fields columns with
  | some (name, size) =>
    throw (.internal ("column '" ++ name ++ s!"' has {size} rows, expected {rowCount}"))
  | none => return ⟨schema, columnMap (schema.names.zip columns), rowCount⟩

/-- Adds a value to each column in turn. The columns before the first that refuses its
value keep what they were given. -/
def pushCells : List (String × Column) → Row → List (String × Column) × Except Error Unit
  | (name, column) :: columns, value :: values =>
    match column.push value with
    | .ok column =>
      let (pushed, outcome) := pushCells columns values
      ((name, column) :: pushed, outcome)
    | .error error => ((name, column) :: columns, .error error)
  | columns, _ => (columns, .ok ())

/-- Adds a row; returns the table as it is afterwards, also when the row was refused. -/
def pushRow (table : Table) (row : Row) : Table × Except Error Unit :=
  if row.length ≠ table.width then
    (table, .error (.schemaMismatch s!"row has {row.length} values but table has {table.width} columns"))
  else
    match pushCells table.columns row with
    | (columns, .ok ()) => ({ table with columns, rowCount := table.rowCount + 1 }, .ok ())
    | (columns, .error error) => ({ table with columns }, .error error)

def firstRagged (width start : Nat) : List Row → Option (Nat × Nat)
  | [] => none
  | row :: rows => if row.length == width then firstRagged width (start + 1) rows else some (start, row.length)

def pushColumns : List (String × Column) → List Row → Except Error (List (String × Column))
  | [], _ => .ok []
  | (name, column) :: columns, rows => do
    let column ← column.pushAll (rows.filterMap List.head?)
    let columns ← pushColumns columns (rows.map List.tail)
    return (name, column) :: columns

/-- Adds all rows or none. -/
def pushRows (table : Table) (rows : List Row) : Except Error Table :=
  match firstRagged table.width 0 rows with
  | some (position, size) =>
    .error (.schemaMismatch s!"row {position} has {size} values but table has {table.width} columns")
  | none => do
    let columns ← pushColumns table.columns rows
    return { table with columns, rowCount := table.rowCount + rows.length }

/-- A change of a table in place. It may fail, and then leaves the table as far as it got. -/
abbrev Change := ExceptT Error (StateM Table)

/-- Adds a batch in place. Copies of the columns take the rows, and when all are written they
stand in for the columns. -/
def extend (rows : List Row) : Change Unit := do
  let table ← get
  match firstRagged table.width 0 rows with
  | some (position, size) =>
    throw (.schemaMismatch s!"row {position} has {size} values but table has {table.width} columns")
  | none =>
    let copies ← liftExcept (pushColumns table.columns rows)
    modify fun table => { table with columns := copies }
    modify fun table => { table with rowCount := table.rowCount + rows.length }

def ofRows (schema : Schema) (rows : List Row) : Except Error Table := do
  schema.validate
  (empty schema).pushRows rows

def rowAt (table : Table) (index : Nat) : Row :=
  table.columns.map fun entry => entry.2.value index

def row (table : Table) (index : Nat) : Except Error Row :=
  if index < table.rowCount then .ok (table.rowAt index)
  else .error (.internal s!"Row index {index} out of bounds (count: {table.rowCount})")

def rows (table : Table) : List Row :=
  (List.range table.rowCount).map table.rowAt

/-- All rows, read one at a time. -/
def records (table : Table) : Except Error (List Row) :=
  (List.range table.rowCount).mapM table.row

/-- The rows at some positions, in that order. -/
def gather (table : Table) (indices : List Nat) : Except Error Table := do
  let columns ← table.columns.mapM fun entry => do
    return (entry.1, ← entry.2.gather indices)
  return { table with columns, rowCount := indices.length }

/-- Some columns, in that order, with all rows. -/
def project (table : Table) (names : List String) : Except Error Table := do
  let indices ← table.schema.resolve names
  let fields := indices.filterMap fun index => table.schema.fields[index]?
  let columns := indices.filterMap table.columnAt?
  let projected ← ofColumns ⟨fields⟩ columns
  return { projected with rowCount := table.rowCount }

def withColumn (table : Table) (field : Field) (column : Column) : Except Error Table := do
  if table.schema.contains field.name then
    throw (.schemaMismatch ("column '" ++ field.name ++ "' already exists"))
  if column.size ≠ table.rowCount then
    throw (.internal ("column '" ++ field.name ++ s!"' has {column.size} rows, table has {table.rowCount}"))
  return { table with
    columns := insertColumn table.columns field.name column
    schema := table.schema.add field }

def appendColumns : List (String × Column) → List (String × Column) → Except Error (List (String × Column))
  | (name, column) :: columns, (_, other) :: others => do
    let column ← column.append other
    let columns ← appendColumns columns others
    return (name, column) :: columns
  | _, _ => .ok []

/-- The rows of two tables with the same column names, one table after the other. -/
def concat (table other : Table) : Except Error Table := do
  if table.schema.names ≠ other.schema.names then
    throw (.schemaMismatch "cannot concatenate tables with different columns")
  let columns ← appendColumns table.columns other.columns
  return { table with columns, rowCount := table.rowCount + other.rowCount }

def resolveColumns (table : Table) (names : List String) : Except Error (List Column) := do
  let indices ← table.schema.resolve names
  indices.mapM table.columnAt

def resolveColumn (table : Table) (name : String) : Except Error Column :=
  match table.schema.index? name with
  | none => .error (.unknownColumns [name])
  | some index => table.columnAt index

def checkNewColumn (table : Table) (name : String) : Except Error Unit :=
  if table.schema.contains name then
    .error (.schemaMismatch ("column '" ++ name ++ "' already exists in the input relation"))
  else .ok ()

end Table

end StratifiedSampling
