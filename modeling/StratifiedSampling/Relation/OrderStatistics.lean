import StratifiedSampling.Relation.RandomColumn
import StratifiedSampling.Value.Order

/-! Relations by the order of rows: the first rows by a column, the quantile of a
column in every group, the number of every row in its partition. Rows are compared
by value and then by position, so that no two rows are equal. -/

namespace StratifiedSampling.Table

abbrev Ordered := Value × Nat

def notAbove (left right : Ordered) : Bool :=
  match left.1.order right.1 with
  | .lt => true
  | .gt => false
  | .eq => decide (left.2 ≤ right.2)

def sortedRows (column : Column) (rows : List Nat) : List Nat :=
  ((rows.map fun row => ((column.value row, row) : Ordered)).mergeSort notAbove).map Prod.snd

/-- The first rows in ascending order of a column, NULL last, reduced to some columns. -/
def sortLimit (table : Table) (orderBy : String) (limit : Nat) (names : List String) : Except Error Table := do
  let projected ← table.project names
  let column ← table.resolveColumn orderBy
  projected.gather ((sortedRows column (List.range table.rowCount)).take limit)

/-- The row that holds the nearest-rank quantile of a column among some rows. NULL is left
out; where nothing else is there the first row stands in, whose cell is NULL. -/
def quantileRow (column : Column) (proportion : Double) (rows : List Nat) : Nat :=
  let known := rows.filter fun row => !column.isNull row
  let rank := Counts.nearestRank known.length proportion
  ((sortedRows column known)[rank - 1]?).getD (rows.headD 0)

def groupQuantile (table : Table) (groupBy : List String) (valueColumn : String) (proportion : Double)
    (outputColumn : String) : Except Error Table := do
  Counts.checkProportion proportion
  if groupBy.contains outputColumn then
    throw (.schemaMismatch ("output column '" ++ outputColumn ++ "' collides with a grouping column"))
  let values ← table.resolveColumn valueColumn
  let groups ← table.groups groupBy
  let keys ← (← table.project groupBy).gather (groups.map fun group => group.rows.headD 0)
  let chosen ← values.gather (groups.map fun group => quantileRow values proportion group.rows)
  keys.withColumn (.nullable outputColumn values.dataType) chosen

/-- Adds a column that numbers the rows of every partition from one, in row order. -/
def rowNumber (table : Table) (partitionBy : List String) (rankColumn : String) : Except Error Table := do
  table.checkNewColumn rankColumn
  let columns ← table.resolveColumns partitionBy
  let ranks :=
    if columns.isEmpty then (List.range table.rowCount).map (· + 1)
    else rankRows columns ∅ (List.range table.rowCount)
  table.withColumn (.required rankColumn .int64) (.int64 (present (ranks.map Int64.ofNat)))

end StratifiedSampling.Table
