import StratifiedSampling.Proofs.RowOrder
import StratifiedSampling.Proofs.StagedTables

/-! The first rows of a table in the order of a column. Selecting the last place to keep,
cutting after it and sorting what is left comes to the same as a stable sort of all rows,
of which the first are taken. -/

namespace StratifiedSampling

section Sifting
variable {α : Type} {cmp : α → α → Ordering} {items sorted : List α} {limit : Nat}

/-- What can be left of some items when no more than a limit are kept: nothing, all of them,
or those up to the selected place of the last one to keep. They are then put in order. -/
inductive Sifted (cmp : α → α → Ordering) (items : List α) : Nat → List α → Prop where
  | none : Sifted cmp items 0 []
  | whole {limit : Nat} {sorted : List α} (short : items.length ≤ limit) (perm : sorted.Perm items)
      (ascending : Ascending cmp sorted) : Sifted cmp items limit sorted
  | part {place : Nat} {arranged sorted : List α} (long : place + 1 < items.length)
      (selected : Selected cmp place items arranged) (perm : sorted.Perm (arranged.take (place + 1)))
      (ascending : Ascending cmp sorted) : Sifted cmp items (place + 1) sorted

variable [Std.TransCmp cmp] [Std.LawfulEqCmp cmp]

theorem Sifted.eq_take (sifted : Sifted cmp items limit sorted) :
    sorted = (sortBy cmp items).take limit := by
  have all : Ascending cmp (sortBy cmp items) := ascending_sortBy items
  cases sifted with
  | none => rfl
  | whole short perm ascending =>
    rw [List.take_of_length_le (by rwa [(sortBy_perm cmp items).length_eq])]
    exact ascending.eq_of_perm all (perm.trans (sortBy_perm cmp items).symm)
  | part long selected perm ascending =>
    apply ascending.eq_of_perm (all.sublist (List.take_sublist _ _))
    exact perm.trans selected.take

theorem sifted_take (cmp : α → α → Ordering) [Std.TransCmp cmp] (items : List α) (limit : Nat) :
    Sifted cmp items limit ((sortBy cmp items).take limit) := by
  have all : Ascending cmp (sortBy cmp items) := ascending_sortBy items
  by_cases short : items.length ≤ limit
  · rw [List.take_of_length_le (by rwa [(sortBy_perm cmp items).length_eq])]
    exact .whole short (sortBy_perm cmp items) all
  · cases limit with
    | zero => exact .none
    | succ place =>
      apply Sifted.part (Nat.lt_of_not_le short) (selected_sortBy (by omega)) (.refl _)
      exact all.sublist (List.take_sublist _ _)

end Sifting

namespace Table

/-- The rows of a table in the order of a column, rows of equal values staying in order. -/
def stableOrder (table : Table) (name : String) : List Nat :=
  sortBy (fun first second => (table.cell name first).order (table.cell name second)) (List.range table.rowCount)

section Rows
variable {entries : Entries} {rowCount : Nat} {name : String} {entry : Field × Column}

theorem stableOrder_perm (table : Table) (name : String) :
    (table.stableOrder name).Perm (List.range table.rowCount) :=
  sortBy_perm _ _

theorem stableOrder_eq (found : entries.lookup? name = some entry) :
    (ofEntries entries rowCount).stableOrder name = sortedRows entry.2 (List.range rowCount) := by
  rw [← sortBy_value, stableOrder]
  simp only [cell_eq rowCount found]
  rfl

/-- Taking no more rows than there are takes as many as the limit allows. -/
theorem take_stableOrder (found : entries.lookup? name = some entry) (limit : Nat) :
    ((ofEntries entries rowCount).stableOrder name).take (min limit rowCount) =
      (sortedRows entry.2 (List.range rowCount)).take limit := by
  have length := (stableOrder_perm (ofEntries entries rowCount) name).length_eq
  rw [← stableOrder_eq found, List.take_eq_take_iff, length, List.length_range]
  exact (Nat.min_assoc _ _ _).trans (congrArg _ (Nat.min_self rowCount))

theorem take_sortedRows_lt (column : Column) (limit : Nat) :
    ∀ row ∈ (sortedRows column (List.range rowCount)).take limit, row < rowCount := by
  intro row member
  rw [← List.mem_range, ← (sortedRows_perm column (List.range rowCount)).mem_iff]
  exact List.mem_of_mem_take member

theorem ascending_stableOrder (found : entries.lookup? name = some entry) :
    Ascending ((ofEntries entries rowCount).cellOrder name) ((ofEntries entries rowCount).stableOrder name) := by
  rw [cellOrder_eq rowCount found, stableOrder_eq found]
  exact ascending_sortedRows entry.2 _

/-- Rows in ascending order have the NULL values last. -/
theorem nulls_last {table : Table} {rows : List Nat} (ascending : Ascending (table.cellOrder name) rows) :
    rows.Pairwise fun first second =>
      (table.cell name first).isNull = true → (table.cell name second).isNull = true := by
  apply ascending.imp
  intro first second before blank
  by_contra known
  rw [Bool.not_eq_true] at known
  rw [cellOrder, Value.eq_null blank, Value.order_null known] at before
  cases before

end Rows

/-- The first rows of a table are those that a stable sort by the column puts first, in that
order, and so are any that are sifted out. -/
theorem sortLimit_takes_first {table : Table} (formed : table.WellFormed) {orderBy : String}
    (ordered : orderBy ∈ table.schema.names) {names : List String} (known : ∀ name ∈ names, name ∈ table.schema.names)
    (distinct : names.Nodup) (limit : Nat) :
    ∃ projected result,
      table.project names = .ok projected ∧ table.sortLimit orderBy limit names = .ok result ∧
      projected.gather ((table.stableOrder orderBy).take (min limit table.rowCount)) = .ok result ∧
      result.rowCount = min limit table.rowCount ∧
      result.schema.fields.map some = names.map table.schema.find? ∧
      result.rows = ((table.stableOrder orderBy).take (min limit table.rowCount)).map (table.cellsAt names) ∧
      (table.stableOrder orderBy).Perm (List.range table.rowCount) ∧
      Ascending (table.cellOrder orderBy) (table.stableOrder orderBy) ∧
      (table.stableOrder orderBy).Pairwise (fun first second =>
        (table.cell orderBy first).isNull = true → (table.cell orderBy second).isNull = true) ∧
      ∀ rows, Sifted (table.cellOrder orderBy) (List.range table.rowCount) limit rows ↔
        rows = (table.stableOrder orderBy).take (min limit table.rowCount) := by
  obtain ⟨entries, rowCount, rfl, sound⟩ := formed.exists_entries
  rw [names_ofEntries] at ordered known
  obtain ⟨entry, found⟩ := Entries.lookup?_of_mem_names ordered
  let first := (sortedRows entry.2 (List.range rowCount)).take limit
  have taken : ((ofEntries entries rowCount).stableOrder orderBy).take
    (min limit (ofEntries entries rowCount).rowCount) = first := take_stableOrder found limit
  have inside : ∀ row ∈ first, row < rowCount := take_sortedRows_lt entry.2 limit
  have counted : first.length = min limit rowCount := by
    rw [List.length_take, (sortedRows_perm entry.2 (List.range rowCount)).length_eq, List.length_range]
  have ascending : Ascending ((ofEntries entries rowCount).cellOrder orderBy) _ := ascending_stableOrder found
  rw [taken]
  refine ⟨_, _, project_eq sound known distinct, sortLimit_eq sound known distinct found limit rfl,
    gather_eq (sound.select known distinct) inside, counted, ?_, rows_picked sound known distinct inside,
    stableOrder_perm _ _, ascending, nulls_last ascending, ?_⟩
  · rw [← fields_picked rowCount known first, ofEntries, List.map_map]
    rfl
  · intro rows
    have sorted : first = (sortBy (rowOrder entry.2) (List.range rowCount)).take limit := by
      rw [← sortedRows_eq_sortBy]
    rw [cellOrder_eq rowCount found, sorted]
    constructor
    · intro sifted
      exact sifted.eq_take
    · rintro rfl
      exact sifted_take (rowOrder entry.2) (List.range rowCount) limit

end Table

namespace Readings

/-- Row 0 stands at its place, with the zeros before it and the NULL levels after it. -/
theorem selected_level : Selected (table.cellOrder "level") 2 (List.range 5) [3, 1, 0, 4, 2] where
  perm := by decide
  parted := ⟨[3, 1], 0, [4, 2], rfl, rfl, by decide +kernel, by decide +kernel⟩

/-- The stations of the three lowest levels; the two zeros are in order. -/
theorem lowest_levels : ∃ result, table.sortLimit "level" 3 ["station"] = .ok result ∧
    result.rowCount = 3 ∧ result.rows = [1, 3, 0].map (table.cellsAt ["station"]) := by
  have ordered : "level" ∈ table.schema.names := by decide
  have known : ∀ name ∈ ["station"], name ∈ table.schema.names := by decide
  obtain ⟨projected, result, -, ran, -, counted, -, rows, -, -, -, sifted⟩ :=
    Table.sortLimit_takes_first formed ordered known (List.nodup_singleton _) 3
  have ascending : Ascending (table.cellOrder "level") [1, 3, 0] := by
    unfold Ascending
    decide +kernel
  rw [← (sifted _).mp (.part (by decide) selected_level (by decide) ascending)] at rows
  exact ⟨result, ran, counted, rows⟩

end Readings

end StratifiedSampling
