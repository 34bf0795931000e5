import StratifiedSampling.Proofs.GroupPartition
import StratifiedSampling.Proofs.StratumSelection

/-! Draws from groups. What is drawn from a group depends on the seed, on its key and on its
size, and not on the table that the group is in: equal keys lead to one seed, however their
values are written. -/

namespace StratifiedSampling

namespace Table

/-- A table and some of its columns to group it by, beside which the index column is new. -/
structure Drawable (table : Table) (groupBy : List String) (indexColumn : String) : Prop where
  formed : table.WellFormed
  known : ∀ name ∈ groupBy, name ∈ table.schema.names
  distinct : groupBy.Nodup
  new : indexColumn ∉ groupBy

/-- What is drawn from a group at an ordinal. -/
def drawAt (seed : UInt64) (group : Group) (ordinal : Nat) : Nat :=
  Stream.drawIndex (Stream.stratumSeed seed group.key) (UInt64.ofNat ordinal) group.rows.length

/-- The draws of a table: group by group as many rows as the proportion draws from the size of
the group, the cells of its first row beside one index of a row of the group after the other. -/
structure Drawn (table : Table) (groupBy : List String) (proportion : Double) (indexColumn : String)
    (seed : UInt64) (groups : List Group) (draws : Table) : Prop where
  grouped : table.groups groupBy = .ok groups
  parted : table.Partitions groupBy groups
  ran : table.groupDraws groupBy proportion indexColumn seed = .ok draws
  fields : draws.schema.fields.map some = groupBy.map table.schema.find? ++ [some (.required indexColumn .int64)]
  rows : draws.rows = groups.flatMap fun group =>
    (List.range (Counts.drawCount group.rows.length proportion)).map fun ordinal =>
      table.cellsAt groupBy (group.rows.headD 0) ++ [.int64 (Int64.ofNat (drawAt seed group ordinal))]
  inside : ∀ group ∈ groups, ∀ ordinal, 1 ≤ drawAt seed group ordinal ∧ drawAt seed group ordinal ≤ group.rows.length
  whole : ∀ group ∈ groups, group.rows.length < 2 ^ 63 →
    ∀ ordinal, (Int64.ofNat (drawAt seed group ordinal)).toInt = drawAt seed group ordinal

/-- The last cells of the rows of draws whose other cells are those of a key. -/
def drawnUnder (draws : Table) (key : List Value) : List Value :=
  (draws.rows.filter fun row => sameCells row.dropLast key).map fun row => row.getLastD .null

section Draws
variable {table : Table} {groupBy : List String} {indexColumn : String} {proportion : Double} {seed : UInt64}

theorem rows_drawn {entries : Entries} {rowCount : Nat} (sound : entries.Sound rowCount)
    (known : ∀ name ∈ groupBy, name ∈ entries.names) (distinct : groupBy.Nodup) (field : Field)
    {draws : List (Nat × Nat)} (inside : ∀ row ∈ draws.map Prod.fst, row < rowCount) :
    (ofEntries ((entries.select groupBy).picked (draws.map Prod.fst) ++ [(field, drawColumn draws)])
      draws.length).rows =
      draws.map fun draw => (ofEntries entries rowCount).cellsAt groupBy draw.1 ++ [.int64 (Int64.ofNat draw.2)] := by
  apply rows_ofEntries rfl
  intro position draw listed
  have picked : (draws.map Prod.fst)[position]? = some draw.1 := by rw [List.getElem?_map, listed, Option.map_some]
  rw [List.map_append, List.map_singleton, value_drawColumn listed, ← cells_keyAt,
    keyAt_picked (sound.select known distinct) inside picked, cellsAt_eq rowCount known]

theorem drawAt_bounds (seed : UInt64) {group : Group} (filled : group.rows ≠ []) (ordinal : Nat) :
    1 ≤ drawAt seed group ordinal ∧ drawAt seed group ordinal ≤ group.rows.length := by
  apply drawIndex_bounds
  exact Nat.ne_of_gt (List.length_pos_iff.mpr filled)

theorem exists_drawn (ready : table.Drawable groupBy indexColumn) (proper : Counts.isProportion proportion = true)
    (seed : UInt64) : ∃ groups draws, table.Drawn groupBy proportion indexColumn seed groups draws := by
  obtain ⟨entries, rowCount, rfl, sound⟩ := ready.formed.exists_entries
  have known := ready.known
  rw [names_ofEntries] at known
  let columns := (entries.select groupBy).columns
  let drawn := drawnRows columns rowCount proportion seed
  have parted : (ofEntries entries rowCount).Partitions groupBy (strata columns rowCount) := partitions_strata known
  refine ⟨strata columns rowCount, _, groups_eq known, parted,
    groupDraws_eq sound known ready.distinct proper ready.new seed rfl, ?_, ?_, ?_, ?_⟩
  · rw [← fields_picked rowCount known (drawn.map Prod.fst), ofEntries, List.map_append, List.map_append, List.map_map]
    rfl
  · rw [rows_drawn sound known ready.distinct _ drawnRows_lt, drawnRows, strata, List.map_flatMap, List.flatMap_map]
    apply List.flatMap_congr
    intro leader leads
    rw [List.map_map, head_stratum leads, stratumDraws, groupDrawn, List.map_map]
    rfl
  · intro group member
    exact drawAt_bounds seed (parted.filled group member)
  · intro group member small ordinal
    have last := (drawAt_bounds seed (parted.filled group member) ordinal).2
    exact Int64.toInt_ofNat_of_lt (Nat.lt_of_le_of_lt last small)

/-- Of groups with different keys only the one with a given key is kept by it. -/
theorem flatMap_keyed {groups : List Group}
    (apart : groups.Pairwise fun first second => sameCells first.key second.key = false) {group : Group}
    (member : group ∈ groups) (items : Group → List α) :
    (groups.flatMap fun other => if sameCells other.key group.key then items other else []) = items group := by
  induction groups with
  | nil => cases member
  | cons first rest ih =>
    obtain ⟨others, apart⟩ := List.pairwise_cons.mp apart
    rw [List.flatMap_cons]
    rcases List.mem_cons.mp member with rfl | later
    · have self : sameCells group.key group.key = true := (sameCells_iff _ _).mpr rfl
      have none : (rest.flatMap fun other => if sameCells other.key group.key then items other else []) = [] := by
        apply List.flatMap_eq_nil_iff.mpr
        intro other listed
        have turned : sameCells other.key group.key = false := by
          have different := others other listed
          rw [← Bool.not_eq_true, sameCells_iff] at different ⊢
          exact fun same => different same.symm
        rw [turned]
        rfl
      rw [self, none, List.append_nil]
      rfl
    · rw [others group later, ih apart later]
      rfl

theorem Drawn.groups_strata {entries : Entries} {rowCount : Nat} {groups : List Group} {draws : Table}
    (drawn : (ofEntries entries rowCount).Drawn groupBy proportion indexColumn seed groups draws)
    (known : ∀ name ∈ groupBy, name ∈ entries.names) : groups = strata (entries.select groupBy).columns rowCount := by
  have grouped := drawn.grouped
  rw [groups_eq known, Except.ok.injEq] at grouped
  exact grouped.symm

/-- What is read back under the key of a group are its own indices. -/
theorem Drawn.drawnUnder_key {groups : List Group} {draws : Table}
    (drawn : table.Drawn groupBy proportion indexColumn seed groups draws) {group : Group} (member : group ∈ groups) :
    draws.drawnUnder group.key = (List.range (Counts.drawCount group.rows.length proportion)).map fun ordinal =>
      .int64 (Int64.ofNat (drawAt seed group ordinal)) := by
  have kept : (draws.rows.filter fun row => sameCells row.dropLast group.key) =
      groups.flatMap fun other => if sameCells other.key group.key then
        (List.range (Counts.drawCount other.rows.length proportion)).map fun ordinal =>
          other.key ++ [.int64 (Int64.ofNat (drawAt seed other ordinal))] else [] := by
    rw [drawn.rows, List.filter_flatMap]
    apply List.flatMap_congr
    intro other listed
    rw [← drawn.parted.represented other listed, List.filter_map]
    simp only [Function.comp_def, List.dropLast_concat]
    cases sameCells other.key group.key with
    | true => rw [List.filter_true]; rfl
    | false => rw [List.filter_false]; rfl
  rw [drawnUnder, kept, flatMap_keyed drawn.parted.apart member, List.map_map]
  simp only [Function.comp_def, List.getLastD_concat]

end Draws

/-- Both tables have the draws of their groups, and a group that is in both, with an equal key
and in one size, is drawn from alike. -/
theorem draws_follow_groups {first second : Table} {firstBy secondBy : List String} {firstColumn secondColumn : String}
    (firstReady : first.Drawable firstBy firstColumn) (secondReady : second.Drawable secondBy secondColumn)
    {proportion : Double} (proper : Counts.isProportion proportion = true) (seed : UInt64) :
    ∃ firstGroups firstDraws secondGroups secondDraws,
      first.Drawn firstBy proportion firstColumn seed firstGroups firstDraws ∧
      second.Drawn secondBy proportion secondColumn seed secondGroups secondDraws ∧
      ∀ group ∈ firstGroups, ∀ twin ∈ secondGroups, sameCells group.key twin.key = true →
        group.rows.length = twin.rows.length →
        firstDraws.drawnUnder group.key = secondDraws.drawnUnder twin.key := by
  obtain ⟨firstGroups, firstDraws, firstDrawn⟩ := exists_drawn firstReady proper seed
  obtain ⟨secondGroups, secondDraws, secondDrawn⟩ := exists_drawn secondReady proper seed
  refine ⟨firstGroups, firstDraws, secondGroups, secondDraws, firstDrawn, secondDrawn, ?_⟩
  intro group member twin listed same sizes
  have seeds := keyWrites_of_sameCells same
  rw [firstDrawn.drawnUnder_key member, secondDrawn.drawnUnder_key listed]
  simp only [drawAt, Stream.stratumSeed, seeds, sizes]

end Table

namespace Readings

/-- Depths with two zeros of different signs, the negative one first, and no number between them. -/
def soundings : Entries :=
  [(.nullable "depth" .float64, .float64 (Table.present [⟨0x8000000000000000⟩, .nan, .zero]))]

theorem soundings_drawable : (Table.ofEntries soundings 3).Drawable ["depth"] "place" := by
  constructor
  case formed =>
    apply Table.wellFormed_ofEntries
    exact ⟨by decide, by decide⟩
  all_goals decide

/-- The zeros of two tables are drawn from alike, though their first zeros are written differently. -/
theorem zeros_drawn_alike : ∃ levels depths : Table,
    table.groupDraws ["level"] ⟨0x3FF0000000000000⟩ "place" 7 = .ok levels ∧
    (Table.ofEntries soundings 3).groupDraws ["depth"] ⟨0x3FF0000000000000⟩ "place" 7 = .ok depths ∧
    (levels.drawnUnder [.float64 .zero]).length = 2 ∧
    levels.drawnUnder [.float64 .zero] = depths.drawnUnder [.float64 ⟨0x8000000000000000⟩] := by
  have ready : table.Drawable ["level"] "place" := ⟨formed, by decide, by decide, by decide⟩
  have proper : Counts.isProportion ⟨0x3FF0000000000000⟩ = true := by decide +kernel
  obtain ⟨groups, levels, others, depths, first, second, alike⟩ :=
    Table.draws_follow_groups ready soundings_drawable proper 7
  have zeros : ⟨[.float64 .zero], [1, 3]⟩ ∈ groups := by
    rw [first.groups_strata ready.known]
    exact List.mem_map.mpr ⟨1, by decide +kernel, rfl⟩
  have twins : ⟨[.float64 ⟨0x8000000000000000⟩], [0, 2]⟩ ∈ others := by
    rw [second.groups_strata soundings_drawable.known]
    exact List.mem_map.mpr ⟨0, by decide +kernel, rfl⟩
  have counted : Counts.drawCount 2 ⟨0x3FF0000000000000⟩ = 2 := by decide +kernel
  refine ⟨levels, depths, first.ran, second.ran, ?_, alike _ zeros _ twins (by decide +kernel) rfl⟩
  rw [first.drawnUnder_key zeros, List.length_map, List.length_range]
  exact counted

end Readings

end StratifiedSampling
