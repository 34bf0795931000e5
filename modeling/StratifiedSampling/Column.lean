import StratifiedSampling.Error
import StratifiedSampling.NullBitmap
import StratifiedSampling.Value.Basic

/-! Columns: cells of one type beside a bitmap of the NULL ones. A NULL cell holds a
placeholder, so that data and bitmap keep equal lengths. A column of doubles or
decimals also takes whole numbers; any other value of another type is refused. -/

namespace StratifiedSampling

structure Cells (α : Type) where
  data : Array α
  nulls : NullBitmap

namespace Cells

variable {α : Type}

def empty : Cells α := ⟨#[], .empty⟩

def size (cells : Cells α) : Nat :=
  cells.data.size

def cell? (cells : Cells α) (index : Nat) : Option α :=
  if cells.nulls.isNull index then none else cells.data[index]?

def push (cells : Cells α) (value : α) : Cells α :=
  ⟨cells.data.push value, cells.nulls.push false⟩

def pushNull (cells : Cells α) (placeholder : α) : Cells α :=
  ⟨cells.data.push placeholder, cells.nulls.push true⟩

def append (cells other : Cells α) : Cells α :=
  ⟨cells.data ++ other.data, cells.nulls.append other.nulls⟩

/-- Adds the row of another column as it stands there, whatever data a NULL cell holds. -/
def pushRow (cells other : Cells α) (index : Nat) : Cells α :=
  match other.data[index]? with
  | some value => ⟨cells.data.push value, cells.nulls.push (other.nulls.isNull index)⟩
  | none => cells

def gather (cells : Cells α) (indices : List Nat) : Cells α :=
  indices.foldl (fun chosen index => chosen.pushRow cells index) empty

end Cells

inductive Column where
  | bool (cells : Cells Bool)
  | int64 (cells : Cells Int64)
  | float64 (cells : Cells Double)
  | numeric (cells : Cells Decimal)
  | string (cells : Cells String)
  | bytes (cells : Cells (List UInt8))
  | date (cells : Cells Date)
  | timestamp (cells : Cells Timestamp)

namespace Column

/-- A column without rows. Cells of unknown type are stored as text. -/
def empty : DataType → Column
  | .bool => .bool .empty
  | .int64 => .int64 .empty
  | .float64 => .float64 .empty
  | .numeric => .numeric .empty
  | .string => .string .empty
  | .unknown => .string .empty
  | .bytes => .bytes .empty
  | .date => .date .empty
  | .timestamp => .timestamp .empty

def dataType : Column → DataType
  | bool _ => .bool
  | int64 _ => .int64
  | float64 _ => .float64
  | numeric _ => .numeric
  | string _ => .string
  | bytes _ => .bytes
  | date _ => .date
  | timestamp _ => .timestamp

def measure {β : Type} (take : {α : Type} → Cells α → β) : Column → β
  | bool cells => take cells
  | int64 cells => take cells
  | float64 cells => take cells
  | numeric cells => take cells
  | string cells => take cells
  | bytes cells => take cells
  | date cells => take cells
  | timestamp cells => take cells

def transform (change : {α : Type} → Cells α → Cells α) : Column → Column
  | bool cells => .bool (change cells)
  | int64 cells => .int64 (change cells)
  | float64 cells => .float64 (change cells)
  | numeric cells => .numeric (change cells)
  | string cells => .string (change cells)
  | bytes cells => .bytes (change cells)
  | date cells => .date (change cells)
  | timestamp cells => .timestamp (change cells)

def size (column : Column) : Nat :=
  column.measure fun cells => cells.size

def isEmpty (column : Column) : Bool :=
  column.size == 0

def nulls (column : Column) : NullBitmap :=
  column.measure fun cells => cells.nulls

def isNull (column : Column) (index : Nat) : Bool :=
  column.nulls.isNull index

def countNull (column : Column) : Nat :=
  column.nulls.countNull

/-- The value of a row; NULL where there is no such row. -/
def value (column : Column) (index : Nat) : Value :=
  match column with
  | bool cells => ((cells.cell? index).map Value.bool).getD .null
  | int64 cells => ((cells.cell? index).map Value.int64).getD .null
  | float64 cells => ((cells.cell? index).map Value.float64).getD .null
  | numeric cells => ((cells.cell? index).map Value.numeric).getD .null
  | string cells => ((cells.cell? index).map Value.string).getD .null
  | bytes cells => ((cells.cell? index).map Value.bytes).getD .null
  | date cells => ((cells.cell? index).map Value.date).getD .null
  | timestamp cells => ((cells.cell? index).map Value.timestamp).getD .null

def values (column : Column) : List Value :=
  (List.range column.size).map column.value

def pushNull : Column → Column
  | bool cells => .bool (cells.pushNull false)
  | int64 cells => .int64 (cells.pushNull 0)
  | float64 cells => .float64 (cells.pushNull .zero)
  | numeric cells => .numeric (cells.pushNull (.ofInt 0))
  | string cells => .string (cells.pushNull "")
  | bytes cells => .bytes (cells.pushNull [])
  | date cells => .date (cells.pushNull ⟨0⟩)
  | timestamp cells => .timestamp (cells.pushNull ⟨0, 0⟩)

def push (column : Column) (value : Value) : Except Error Column :=
  match column, value with
  | column, .null => .ok column.pushNull
  | bool cells, .bool value => .ok (.bool (cells.push value))
  | int64 cells, .int64 value => .ok (.int64 (cells.push value))
  | float64 cells, .float64 value => .ok (.float64 (cells.push value))
  | float64 cells, .int64 value => .ok (.float64 (cells.push (.ofInt value.toInt)))
  | numeric cells, .numeric value => .ok (.numeric (cells.push value))
  | numeric cells, .int64 value => .ok (.numeric (cells.push (.ofInt value.toInt)))
  | string cells, .string value => .ok (.string (cells.push value))
  | bytes cells, .bytes value => .ok (.bytes (cells.push value))
  | date cells, .date value => .ok (.date (cells.push value))
  | timestamp cells, .timestamp value => .ok (.timestamp (cells.push value))
  | column, value => .error (.typeMismatch column.dataType.name value.dataType.name)

def pushAll (column : Column) (values : List Value) : Except Error Column :=
  values.foldlM push column

def ofValues (dataType : DataType) (values : List Value) : Except Error Column :=
  (empty dataType).pushAll values

def append (column other : Column) : Except Error Column :=
  match column, other with
  | bool cells, bool others => .ok (.bool (cells.append others))
  | int64 cells, int64 others => .ok (.int64 (cells.append others))
  | float64 cells, float64 others => .ok (.float64 (cells.append others))
  | numeric cells, numeric others => .ok (.numeric (cells.append others))
  | string cells, string others => .ok (.string (cells.append others))
  | bytes cells, bytes others => .ok (.bytes (cells.append others))
  | date cells, date others => .ok (.date (cells.append others))
  | timestamp cells, timestamp others => .ok (.timestamp (cells.append others))
  | column, other => .error (.typeMismatch column.dataType.name other.dataType.name)

def gather (column : Column) (indices : List Nat) : Except Error Column :=
  let greatest := indices.foldl max 0
  if indices.isEmpty || decide (greatest < column.size) then
    .ok (column.transform fun cells => cells.gather indices)
  else
    .error (.internal s!"gather: index {greatest} out of bounds for column of length {column.size}")

def clear (column : Column) : Column :=
  column.transform fun _ => .empty

end Column

end StratifiedSampling
