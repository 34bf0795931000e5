import StratifiedSampling.Json.Values
import StratifiedSampling.QueryResult

/-! The JSON form of schemas, columns and tables. Reading checks the form only: columns may
have lengths of their own, and a bitmap any length beside its words. -/

namespace StratifiedSampling

open JsonForm

instance : JsonForm FieldMode where
  write
    | .nullable => .string "Nullable"
    | .required => .string "Required"
  read? tree := do
    let tagged ← Tagged.read? tree
    match tagged.name with
    | "Nullable" => tagged.bare? .nullable
    | "Required" => tagged.bare? .required
    | _ => none

instance : JsonForm Field where
  write field := .object [
    ("name", write field.name), ("data_type", write field.dataType), ("mode", write field.mode),
    ("description", write field.description)]
  read? tree := do
    let slots ← Slots.open? ["name", "data_type", "mode", "description"] tree
    return {
      name := ← slots.get "name"
      dataType := ← slots.get "data_type"
      mode := ← slots.get "mode"
      description := ← slots.get "description" }

instance : JsonForm Schema where
  write schema := .object [("fields", write schema.fields)]
  read? tree := do
    let slots ← Slots.open? ["fields"] tree
    return ⟨← slots.get "fields"⟩

instance : JsonForm NullBitmap where
  write bitmap := .object [("data", write bitmap.words), ("len", write bitmap.length)]
  read? tree := do
    let slots ← Slots.open? ["data", "len"] tree
    return ⟨← slots.get "data", ← slots.get "len"⟩

instance [JsonForm α] : JsonForm (Cells α) where
  write cells := .object [("data", write cells.data), ("nulls", write cells.nulls)]
  read? tree := do
    let slots ← Slots.open? ["data", "nulls"] tree
    return ⟨← slots.get "data", ← slots.get "nulls"⟩

namespace Column

def ofTagged? (tagged : Tagged) : Option Column :=
  match tagged.name with
  | "Bool" => tagged.content?.map bool
  | "Int64" => tagged.content?.map int64
  | "Float64" => tagged.content?.map float64
  | "Numeric" => tagged.content?.map numeric
  | "String" => tagged.content?.map string
  | "Bytes" => tagged.content?.map bytes
  | "Date" => tagged.content?.map date
  | "Timestamp" => tagged.content?.map timestamp
  | _ => none

def tagged (column : Column) : Json :=
  Tagged.write column.dataType.tag <|
    match column with
    | bool cells => write cells
    | int64 cells => write cells
    | float64 cells => write cells
    | numeric cells => write cells
    | string cells => write cells
    | bytes cells => write cells
    | date cells => write cells
    | timestamp cells => write cells

end Column

instance : JsonForm Column where
  write := Column.tagged
  read? tree := (Tagged.read? tree).bind Column.ofTagged?

/-- Named columns. The later of two with one name takes the place of the earlier. -/
structure ColumnMap where
  entries : List (String × Column)

namespace ColumnMap

def readEntry? : Option String × Json.Tree → Option (String × Column)
  | (some name, tree) => (read? tree).map fun column => (name, column)
  | (none, _) => none

def ofTree? : Json.Tree → Option ColumnMap
  | .object members => (members.mapM readEntry?).map fun entries => ⟨Table.columnMap entries⟩
  | _ => none

end ColumnMap

instance : JsonForm ColumnMap where
  write columns := .object (columns.entries.map fun entry => (entry.1, write entry.2))
  read? := ColumnMap.ofTree?

instance : JsonForm Table where
  write table := .object [
    ("schema", write table.schema), ("columns", write (ColumnMap.mk table.columns)),
    ("row_count", write table.rowCount)]
  read? tree := do
    let slots ← Slots.open? ["schema", "columns", "row_count"] tree
    let columns : ColumnMap ← slots.get "columns"
    return ⟨← slots.get "schema", columns.entries, ← slots.get "row_count"⟩

instance : JsonForm ColumnInfo where
  write column := .object [("name", write column.name), ("type", write column.typeName)]
  read? tree := do
    let slots ← Slots.open? ["name", "type"] tree
    return ⟨← slots.get "name", ← slots.get "type"⟩

end StratifiedSampling
