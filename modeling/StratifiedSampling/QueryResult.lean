import StratifiedSampling.Table

/-! A relation as rows, for reading. Columns are found by the first name that matches. -/

namespace StratifiedSampling

structure ColumnInfo where
  name : String
  typeName : String
  deriving DecidableEq

structure QueryResult where
  columns : List ColumnInfo
  rows : List Row

def Row.toJson (row : Row) : Json :=
  .array (row.map Value.toJson)

namespace QueryResult

def ofTable (table : Table) : QueryResult :=
  ⟨table.schema.fields.map fun field => ⟨field.name, field.dataType.name⟩, table.rows⟩

def rowCount (result : QueryResult) : Nat :=
  result.rows.length

def columnCount (result : QueryResult) : Nat :=
  result.columns.length

def isEmpty (result : QueryResult) : Bool :=
  result.rows.isEmpty

def columnIndex? (result : QueryResult) (name : String) : Option Nat :=
  result.columns.findIdx? fun column => column.name == name

def cell? (result : QueryResult) (row column : Nat) : Option Value :=
  (result.rows[row]?).bind fun cells => cells[column]?

def cellByName? (result : QueryResult) (row : Nat) (name : String) : Option Value :=
  (result.columnIndex? name).bind fun column => result.cell? row column

def columnValues? (result : QueryResult) (name : String) : Option (List Value) :=
  (result.columnIndex? name).map fun column => result.rows.filterMap fun row => row[column]?

end QueryResult

end StratifiedSampling
