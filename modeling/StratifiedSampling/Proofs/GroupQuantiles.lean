import StratifiedSampling.Proofs.GroupPartition
import StratifiedSampling.Proofs.RowOrder

/-! Quantiles of groups. The quantile of a group is a value that one of its rows has: the one
at the nearest rank among the values that are not NULL, however that place is selected. -/

namespace StratifiedSampling

namespace Table

/-- The rows of some that have a value in a column. -/
def valuedRows (table : Table) (name : String) (rows : List Nat) : List Nat :=
  rows.filter fun row => !(table.cell name row).isNull

/-- A value that stands at a rank, counted from one, when the values of some rows are put in
order. Rows of equal values are in the order of their positions. -/
structure AtRank (table : Table) (name : String) (rank : Nat) (rows : List Nat) (value : Value) : Prop where
  low : 1 ≤ rank
  high : rank ≤ rows.length
  placed : ∃ row ∈ rows, value = table.cell name row ∧
    (sortBy (table.cellOrder name) rows)[rank - 1]? = some row ∧
    ∀ arranged, Selected (table.cellOrder name) (rank - 1) rows arranged → arranged[rank - 1]? = some row
  fewer : rows.countP (fun row => (table.cell name row).order value == .lt) < rank
  enough : rank ≤ rows.countP fun row => ((table.cell name row).order value).isLE

/-- The nearest-rank quantile of a column among some rows, NULL if none of them has a value. -/
structure IsQuantile (table : Table) (name : String) (proportion : Double) (rows : List Nat)
    (value : Value) : Prop where
  unknown : table.valuedRows name rows = [] → value = .null
  ranked : table.valuedRows name rows ≠ [] →
    table.AtRank name (Counts.nearestRank (table.valuedRows name rows).length proportion)
      (table.valuedRows name rows) value

section Quantiles
variable {entries : Entries} {rowCount : Nat} {name : String} {entry : Field × Column} {rows : List Nat}

theorem valuedRows_eq (sound : entries.Sound rowCount) (found : entries.lookup? name = some entry)
    (inside : ∀ row ∈ rows, row < rowCount) :
    (ofEntries entries rowCount).valuedRows name rows = knownRows entry.2 rows := by
  apply List.filter_congr
  intro row member
  rw [cell_eq rowCount found, Column.isNull_value (sound.inside (Entries.mem_of_lookup? found).1 inside row member)]

theorem countP_lt_le {column : Column} {place row : Nat} {arranged : List Nat}
    (selected : Selected (rowOrder column) place rows arranged) (found : arranged[place]? = some row) :
    rows.countP (fun other => (column.value other).order (column.value row) == .lt) ≤ place := by
  apply selected.countP_le found
  intro other above
  rw [order_swap column row other]
  rw [rowOrder] at above
  cases order : (column.value row).order (column.value other) with
  | lt => rfl
  | eq => rfl
  | gt =>
    rw [order] at above
    cases above

theorem lt_countP_isLE {column : Column} {place row : Nat} {arranged : List Nat}
    (selected : Selected (rowOrder column) place rows arranged) (found : arranged[place]? = some row) :
    place < rows.countP fun other => ((column.value other).order (column.value row)).isLE := by
  apply selected.lt_countP found
  intro other below
  rw [rowOrder] at below
  cases order : (column.value other).order (column.value row) with
  | lt => rfl
  | eq => rfl
  | gt =>
    rw [order] at below
    cases below

/-- The row at a place of the sorted rows has the value of that rank. -/
theorem atRank_of_sorted (found : entries.lookup? name = some entry) {rank row : Nat} (low : 1 ≤ rank)
    (high : rank ≤ rows.length) (placed : (sortedRows entry.2 rows)[rank - 1]? = some row) :
    (ofEntries entries rowCount).AtRank name rank rows (entry.2.value row) := by
  have order := cellOrder_eq rowCount found
  have cells := cell_eq rowCount found
  have selected : Selected (rowOrder entry.2) (rank - 1) rows (sortedRows entry.2 rows) := by
    rw [sortedRows_eq_sortBy]
    apply selected_sortBy
    omega
  have fewer := countP_lt_le selected placed
  have enough := lt_countP_isLE selected placed
  rw [sortedRows_eq_sortBy] at placed
  constructor
  case low => exact low
  case high => exact high
  case placed =>
    rw [order]
    refine ⟨row, (sortBy_perm _ rows).mem_iff.mp (List.mem_of_getElem? placed), (cells row).symm, placed, ?_⟩
    intro arranged other
    rw [other.getElem?, placed]
  case fewer =>
    simp only [cells]
    omega
  case enough =>
    simp only [cells]
    omega

theorem headD_mem (filled : rows ≠ []) : rows.headD 0 ∈ rows := by
  cases rows with
  | nil => exact absurd rfl filled
  | cons first rest => exact List.mem_cons_self

/-- Where no row has a value, the first row stands in. -/
theorem quantileRow_blank {column : Column} (proportion : Double) (blank : knownRows column rows = []) :
    quantileRow column proportion rows = rows.headD 0 := by
  have unsorted : sortedRows column [] = [] := (sortedRows_perm column []).eq_nil
  rw [quantileRow, ← knownRows, blank, unsorted, List.getElem?_nil]
  rfl

theorem quantileRow_mem (column : Column) (proportion : Double) (filled : rows ≠ []) :
    quantileRow column proportion rows ∈ rows := by
  by_cases blank : knownRows column rows = []
  · rw [quantileRow_blank proportion blank]
    exact headD_mem filled
  · have placed := List.mem_of_getElem? (getElem?_quantileRow proportion blank)
    exact List.mem_of_mem_filter ((sortedRows_perm column (knownRows column rows)).mem_iff.mp placed)

theorem isQuantile_quantileRow (sound : entries.Sound rowCount) (found : entries.lookup? name = some entry)
    (filled : rows ≠ []) (inside : ∀ row ∈ rows, row < rowCount) (proportion : Double) :
    (ofEntries entries rowCount).IsQuantile name proportion rows
      (entry.2.value (quantileRow entry.2 proportion rows)) := by
  have valued := valuedRows_eq sound found inside
  constructor
  case unknown =>
    intro none
    rw [valued] at none
    have unknown := List.filter_eq_nil_iff.mp none _ (headD_mem filled)
    have present := sound.inside (Entries.mem_of_lookup? found).1 inside _ (headD_mem filled)
    rw [Bool.not_not_eq, ← Column.isNull_value present] at unknown
    rw [quantileRow_blank proportion none]
    exact Value.eq_null unknown
  case ranked =>
    intro some
    rw [valued] at some ⊢
    have size : (knownRows entry.2 rows).length ≠ 0 := by simpa using some
    obtain ⟨low, high⟩ := Counts.nearestRank_bounds size proportion
    exact atRank_of_sorted found low high (getElem?_quantileRow proportion some)

end Quantiles

/-- The quantiles of groups: one row for each group, in order, with the keys of its first row. -/
theorem quantiles_of_groups {table : Table} (formed : table.WellFormed) {groupBy : List String}
    (known : ∀ name ∈ groupBy, name ∈ table.schema.names) (distinct : groupBy.Nodup) {valueColumn : String}
    (valued : valueColumn ∈ table.schema.names) {proportion : Double}
    (proper : Counts.isProportion proportion = true) {outputColumn : String} (new : outputColumn ∉ groupBy) :
    ∃ column groups result, ∃ quantile : Group → Value,
      table.column? valueColumn = some column ∧
      table.groups groupBy = .ok groups ∧ table.Partitions groupBy groups ∧
      (∀ group ∈ groups, table.IsQuantile valueColumn proportion group.rows (quantile group)) ∧
      table.groupQuantile groupBy valueColumn proportion outputColumn = .ok result ∧
      result.schema.fields.map some =
        groupBy.map table.schema.find? ++ [some (.nullable outputColumn column.dataType)] ∧
      result.rows = groups.map fun group => table.cellsAt groupBy (group.rows.headD 0) ++ [quantile group] := by
  obtain ⟨entries, rowCount, rfl, sound⟩ := formed.exists_entries
  rw [names_ofEntries] at known valued
  obtain ⟨entry, found⟩ := Entries.lookup?_of_mem_names valued
  let leading := leaders (entries.select groupBy).columns rowCount
  let groups := strata (entries.select groupBy).columns rowCount
  let chosen := leading.map fun leader =>
    quantileRow entry.2 proportion (stratum (entries.select groupBy).columns rowCount leader)
  have parted : (ofEntries entries rowCount).Partitions groupBy groups := partitions_strata known
  have inside : ∀ row ∈ chosen, row < rowCount := by
    intro row member
    obtain ⟨leader, leads, rfl⟩ := List.mem_map.mp member
    apply parted.inside (List.mem_map.mpr ⟨leader, leads, rfl⟩)
    exact quantileRow_mem entry.2 proportion (parted.filled _ (List.mem_map.mpr ⟨leader, leads, rfl⟩))
  refine ⟨entry.2, groups, _, fun group => entry.2.value (quantileRow entry.2 proportion group.rows), ?_,
    groups_eq known, parted, ?_, groupQuantile_eq sound known distinct proper found new rfl inside, ?_, ?_⟩
  · rw [column?_ofEntries, found]
    rfl
  · intro group member
    exact isQuantile_quantileRow sound found (parted.filled group member) (parted.inside member) proportion
  · rw [← fields_picked rowCount known leading, ofEntries, List.map_append, List.map_append, List.map_map]
    rfl
  · apply rows_ofEntries (List.length_map _)
    intro position group listed
    rw [List.getElem?_map, Option.map_eq_some_iff] at listed
    obtain ⟨leader, led, rfl⟩ := listed
    have leads : leader ∈ leading := List.mem_of_getElem? led
    have picked : chosen[position]? = some (quantileRow entry.2 proportion
        (stratum (entries.select groupBy).columns rowCount leader)) := by
      rw [List.getElem?_map, led, Option.map_some]
    rw [List.map_append, List.map_singleton, ← cells_keyAt, keyAt_picked (sound.select known distinct) leaders_lt led,
      sound.value_picked (Entries.mem_of_lookup? found).1 inside picked, head_stratum leads, cellsAt_eq rowCount known]

end Table

namespace Readings

/-- The unknown station has two zeros to choose from, the last one nothing but a NULL level. -/
theorem half_levels : ∃ (groups : List Group) (result : Table) (quantile : Group → Value),
    groups.map Group.rows = [[0, 2], [1, 3], [4]] ∧
    (∀ group ∈ groups, table.IsQuantile "level" ⟨0x3FE0000000000000⟩ group.rows (quantile group)) ∧
    table.groupQuantile ["station"] "level" ⟨0x3FE0000000000000⟩ "half" = .ok result ∧
    result.rows = groups.map fun group => table.cellsAt ["station"] (group.rows.headD 0) ++ [quantile group] := by
  have known : ∀ name ∈ ["station"], name ∈ table.schema.names := by decide
  have valued : "level" ∈ table.schema.names := by decide
  have proper : Counts.isProportion ⟨0x3FE0000000000000⟩ = true := by decide +kernel
  have new : "half" ∉ ["station"] := by decide
  obtain ⟨column, groups, result, quantile, -, grouped, -, quantiles, ran, -, rows⟩ :=
    Table.quantiles_of_groups formed known (List.nodup_singleton _) valued proper new
  have listed : table.groups ["station"] = .ok (Table.strata (entries.select ["station"]).columns 5) :=
    Table.groups_eq known
  rw [grouped, Except.ok.injEq] at listed
  subst listed
  exact ⟨_, result, quantile, by decide +kernel, quantiles, ran, rows⟩

end Readings

end StratifiedSampling
