import StratifiedSampling.Proofs.StagedTables
import StratifiedSampling.Proofs.TableCells

/-! Grouping is a partition of the rows. The groups, their counts and the numbers of the rows
in their groups are found in three ways, one of them with a shortcut for grouping by nothing;
all of them divide the rows alike. -/

namespace StratifiedSampling.Table

/-- Groups whose keys are different, which hold every row once, each in order and with the
keys of its rows, and which stand in the order of their first rows. -/
structure Partitions (table : Table) (groupBy : List String) (groups : List Group) : Prop where
  apart : groups.Pairwise fun first second => sameCells first.key second.key = false
  covers : (groups.flatMap Group.rows).Perm (List.range table.rowCount)
  filled : ∀ group ∈ groups, group.rows ≠ []
  ascending : ∀ group ∈ groups, group.rows.Pairwise (· < ·)
  keyed : ∀ group ∈ groups, ∀ row ∈ group.rows, sameCells (table.cellsAt groupBy row) group.key = true
  ordered : groups.Pairwise fun first second => first.rows.headD 0 < second.rows.headD 0
  represented : ∀ group ∈ groups, group.key = table.cellsAt groupBy (group.rows.headD 0)

theorem Partitions.inside {table : Table} {groupBy : List String} {groups : List Group}
    (parted : table.Partitions groupBy groups) {group : Group} (member : group ∈ groups) :
    ∀ row ∈ group.rows, row < table.rowCount := by
  intro row listed
  apply List.mem_range.mp
  apply parted.covers.mem_iff.mp
  exact List.mem_flatMap.mpr ⟨group, member, listed⟩

/-- How many rows up to a row have its key. -/
def rankIn (table : Table) (groupBy : List String) (row : Nat) : Nat :=
  (List.range row).countP (fun earlier => sameCells (table.cellsAt groupBy earlier) (table.cellsAt groupBy row)) + 1

section Groups
variable {entries : Entries} {rowCount : Nat} {groupBy : List String}

theorem mem_strata {columns : List Column} {count : Nat} {group : Group} (member : group ∈ strata columns count) :
    ∃ leader ∈ leaders columns count, group.key = (keyAt columns leader).cells ∧
      group.rows = stratum columns count leader := by
  obtain ⟨leader, leading, rfl⟩ := List.mem_map.mp member
  exact ⟨leader, leading, rfl, rfl⟩

theorem partitions_strata (known : ∀ name ∈ groupBy, name ∈ entries.names) :
    (ofEntries entries rowCount).Partitions groupBy (strata (entries.select groupBy).columns rowCount) where
  apart := by
    rw [strata, List.pairwise_map]
    refine (List.nodup_range.filter _).imp_of_mem ?_
    intro first second firstMember secondMember different
    rw [← Bool.not_eq_true]
    intro same
    exact different (leader_unique (List.mem_filter.mp firstMember).2 (List.mem_filter.mp secondMember).2 same)
  covers := by
    rw [strata, List.flatMap_map]
    exact strata_perm _ rowCount
  filled := by
    intro group member
    obtain ⟨leader, leading, -, rows⟩ := mem_strata member
    rw [rows]
    exact List.ne_nil_of_mem (self_mem_stratum _ (leaders_lt leader leading))
  ascending := by
    intro group member
    obtain ⟨leader, -, -, rows⟩ := mem_strata member
    rw [rows]
    exact List.pairwise_lt_range.filter _
  keyed := by
    intro group member row listed
    obtain ⟨leader, -, key, rows⟩ := mem_strata member
    rw [rows] at listed
    rw [cellsAt_eq rowCount known, key]
    exact (mem_stratum.mp listed).2
  ordered := by
    rw [strata, List.pairwise_map]
    refine (List.pairwise_lt_range.filter _).imp_of_mem ?_
    intro first second firstMember secondMember before
    rw [head_stratum firstMember, head_stratum secondMember]
    exact before
  represented := by
    intro group member
    obtain ⟨leader, leading, key, rows⟩ := mem_strata member
    rw [key, rows, head_stratum leading, cellsAt_eq rowCount known]

theorem rankIn_eq (known : ∀ name ∈ groupBy, name ∈ entries.names) (row : Nat) :
    (ofEntries entries rowCount).rankIn groupBy row = rankOf (entries.select groupBy).columns row := by
  simp only [rankIn, cellsAt_eq rowCount known]
  rfl

theorem rows_ranked (columns : List Column) (field : Field) :
    (ofEntries (entries ++ [(field, rankColumn columns rowCount)]) rowCount).rows =
      (List.range rowCount).map fun row =>
        (ofEntries entries rowCount).rowAt row ++ [.int64 (Int64.ofNat (rankOf columns row))] := by
  apply rows_ofEntries List.length_range
  intro position row listed
  obtain ⟨inside, same⟩ := List.getElem?_eq_some_iff.mp listed
  rw [List.length_range] at inside
  rw [List.getElem_range] at same
  subst same
  rw [List.map_append, List.map_singleton, value_rankColumn columns inside, rowAt_ofEntries]

end Groups

/-- Grouping divides the rows into groups, counting has the same keys with the sizes of the
groups, and numbering gives the rows of every group the numbers from one to its size. -/
theorem grouping_partitions_rows {table : Table} (formed : table.WellFormed) {groupBy : List String}
    (known : ∀ name ∈ groupBy, name ∈ table.schema.names) (filled : table.rowCount ≠ 0 ∨ groupBy ≠ [])
    {rankColumn : String} (new : rankColumn ∉ table.schema.names) :
    ∃ groups counts ranked,
      table.groups groupBy = .ok groups ∧ table.Partitions groupBy groups ∧
      table.groupCounts groupBy = .ok counts ∧
      counts = groups.map (fun group => ⟨group.key, group.rows.length⟩) ∧
      GroupCount.total counts = table.rowCount ∧
      table.rowNumber groupBy rankColumn = .ok ranked ∧
      ranked.schema = table.schema.add (.required rankColumn .int64) ∧
      ranked.rows = (List.range table.rowCount).map (fun row =>
        table.rowAt row ++ [.int64 (Int64.ofNat (table.rankIn groupBy row))]) ∧
      ∀ group ∈ groups, group.rows.map (table.rankIn groupBy) = List.range' 1 group.rows.length := by
  obtain ⟨entries, rowCount, rfl, sound⟩ := formed.exists_entries
  rw [names_ofEntries] at known new
  refine ⟨strata (entries.select groupBy).columns rowCount, strataSizes (entries.select groupBy).columns rowCount, _,
    groups_eq known, partitions_strata known, groupCounts_eq known filled, ?_, total_strataSizes _ _,
    rowNumber_eq known new, ?_, ?_, ?_⟩
  · rw [strata, strataSizes, List.map_map]
    rfl
  · rw [ofEntries, List.map_append]
    rfl
  · simp only [rankIn_eq known]
    exact rows_ranked _ _
  · intro group member
    obtain ⟨leader, -, -, rows⟩ := mem_strata member
    rw [rows, ← ranks_stratum]
    exact List.map_congr_left fun row _ => rankIn_eq known row

end StratifiedSampling.Table

namespace StratifiedSampling.Readings

/-- Zeros of both signs are in one group, and so are the NULL levels. -/
theorem grouped_by_level : ∃ groups counts,
    table.groups ["level"] = .ok groups ∧ table.Partitions ["level"] groups ∧
    groups.map Group.rows = [[0], [1, 3], [2, 4]] ∧
    table.groupCounts ["level"] = .ok counts ∧ GroupCount.total counts = 5 ∧
    (List.range 5).map (table.rankIn ["level"]) = [1, 1, 1, 2, 2] := by
  have known : ∀ name ∈ ["level"], name ∈ table.schema.names := by decide
  have new : "place" ∉ table.schema.names := by decide
  obtain ⟨groups, counts, ranked, grouped, partitioned, counted, -, total, -⟩ :=
    Table.grouping_partitions_rows formed known (.inr (List.cons_ne_nil _ _)) new
  have listed : table.groups ["level"] = .ok (Table.strata (entries.select ["level"]).columns 5) :=
    Table.groups_eq known
  rw [grouped, Except.ok.injEq] at listed
  subst listed
  exact ⟨_, counts, grouped, partitioned, by decide +kernel, counted, total, by decide +kernel⟩

end StratifiedSampling.Readings
