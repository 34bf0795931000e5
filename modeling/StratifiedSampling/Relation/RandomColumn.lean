import StratifiedSampling.Counts
import StratifiedSampling.Random.Stream
import StratifiedSampling.Relation.Grouping

/-! Relations with a random column: a label for every row, or ranks drawn from every
group. The numbers depend on the seed, on positions and on keys only. -/

namespace StratifiedSampling.Table

def present (data : List α) : Cells α :=
  ⟨data.toArray, .valid data.length⟩

/-- Adds a column of uniform labels in the unit interval, one a row position. -/
def withRandomLabel (table : Table) (labelColumn : String) (seed : UInt64) : Except Error Table := do
  table.checkNewColumn labelColumn
  let labels := (List.range table.rowCount).map fun row => Stream.rowLabel seed (UInt64.ofNat row)
  table.withColumn (.required labelColumn .float64) (.float64 (present labels))

def groupDrawn (proportion : Double) (seed : UInt64) (group : Group) : List Nat :=
  let size := group.rows.length
  let groupSeed := Stream.stratumSeed seed group.key
  (List.range (Counts.drawCount size proportion)).map fun ordinal =>
    Stream.drawIndex groupSeed (UInt64.ofNat ordinal) size

/-- For every group the key of its first row beside each of its draws. -/
def groupDraws (table : Table) (groupBy : List String) (proportion : Double) (indexColumn : String)
    (seed : UInt64) : Except Error Table := do
  Counts.checkProportion proportion
  let keys ← table.project groupBy
  keys.checkNewColumn indexColumn
  let groups ← table.groups groupBy
  let drawn := groups.map fun group => (group.rows.headD 0, groupDrawn proportion seed group)
  let representatives := drawn.flatMap fun entry => List.replicate entry.2.length entry.1
  let indices := drawn.flatMap fun entry => entry.2.map Int64.ofNat
  let keys ← keys.gather representatives
  keys.withColumn (.required indexColumn .int64) (.int64 (present indices))

end StratifiedSampling.Table
