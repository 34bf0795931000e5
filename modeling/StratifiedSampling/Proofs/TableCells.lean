import StratifiedSampling.Proofs.TableEntries
import StratifiedSampling.Relation.Grouping

/-! Tables by their cells. A cell is found by the name of its column and the position of its
row; results of operations are described by the cells of their rows. -/

namespace StratifiedSampling.Table

/-- The value of a row in the column of a name; NULL where there is no such column. -/
def cell (table : Table) (name : String) (row : Nat) : Value :=
  ((table.column? name).map fun column => column.value row).getD .null

/-- The values of a row in some columns. -/
def cellsAt (table : Table) (names : List String) (row : Nat) : List Value :=
  names.map fun name => table.cell name row

section Entries
variable {entries : Entries} {rowCount : Nat}

theorem column?_ofEntries (entries : Entries) (rowCount : Nat) (name : String) :
    (ofEntries entries rowCount).column? name = (entries.lookup? name).map Prod.snd := by
  rw [column?, ofEntries, List.find?_map, Option.map_map]
  rfl

theorem find?_ofEntries (entries : Entries) (rowCount : Nat) (name : String) :
    (ofEntries entries rowCount).schema.find? name = (entries.lookup? name).map Prod.fst := by
  rw [Schema.find?, ofEntries, List.find?_map]
  rfl

theorem cell_eq (rowCount : Nat) {name : String} {entry : Field × Column} (found : entries.lookup? name = some entry)
    (row : Nat) : (ofEntries entries rowCount).cell name row = entry.2.value row := by
  rw [cell, column?_ofEntries, found]
  rfl

theorem cells_keyAt (entries : Entries) (row : Nat) :
    (keyAt entries.columns row).cells = entries.map fun entry => entry.2.value row := by
  rw [keyAt, Entries.columns, List.map_map]
  rfl

theorem cellsAt_eq (rowCount : Nat) {names : List String} (known : ∀ name ∈ names, name ∈ entries.names) (row : Nat) :
    (ofEntries entries rowCount).cellsAt names row = (keyAt (entries.select names).columns row).cells := by
  induction names with
  | nil => rfl
  | cons name rest ih =>
    obtain ⟨entry, found⟩ := Entries.lookup?_of_mem_names (known name List.mem_cons_self)
    have others := ih fun other member => known other (List.mem_cons_of_mem _ member)
    simp only [cellsAt, keyAt, Entries.select, Entries.columns] at others ⊢
    rw [List.map_cons, List.filterMap_cons_some found, List.map_cons, List.map_cons, others, cell_eq rowCount found]

/-- Selected entries have the fields of their names. -/
theorem fields_select (rowCount : Nat) {names : List String} (known : ∀ name ∈ names, name ∈ entries.names) :
    (entries.select names).map (fun entry => some entry.1) =
      names.map (ofEntries entries rowCount).schema.find? := by
  induction names with
  | nil => rfl
  | cons name rest ih =>
    obtain ⟨entry, found⟩ := Entries.lookup?_of_mem_names (known name List.mem_cons_self)
    have others := ih fun other member => known other (List.mem_cons_of_mem _ member)
    simp only [Entries.select] at others ⊢
    rw [List.filterMap_cons_some found, List.map_cons, List.map_cons, others, find?_ofEntries, found]
    rfl

theorem rowAt_ofEntries (entries : Entries) (rowCount row : Nat) :
    (ofEntries entries rowCount).rowAt row = entries.map fun entry => entry.2.value row := by
  rw [rowAt, ofEntries, List.map_map]
  rfl

/-- A table with one row for each of some items, whose cells are known by position. -/
theorem rows_ofEntries {items : List α} {rowOf : α → Row} (counted : items.length = rowCount)
    (each : ∀ position item, items[position]? = some item →
      entries.map (fun entry => entry.2.value position) = rowOf item) :
    (ofEntries entries rowCount).rows = items.map rowOf := by
  subst counted
  apply List.ext_getElem (by simp [rows, ofEntries])
  intro position _ second
  rw [List.length_map] at second
  have listed : items[position]? = some items[position] := List.getElem?_eq_getElem second
  simp only [rows, List.getElem_map, List.getElem_range]
  rw [rowAt_ofEntries, each position _ listed]

/-- The key at a position of picked rows is that of the row that was picked there. -/
theorem keyAt_picked (sound : entries.Sound rowCount) {indices : List Nat}
    (inside : ∀ index ∈ indices, index < rowCount) {position row : Nat} (listed : indices[position]? = some row) :
    keyAt (Entries.columns (entries.picked indices)) position = keyAt entries.columns row := by
  have cells : (keyAt (Entries.columns (entries.picked indices)) position).cells =
      (keyAt entries.columns row).cells := by
    rw [cells_keyAt, cells_keyAt, Entries.picked, List.map_map]
    apply List.map_congr_left
    intro entry member
    exact sound.value_picked member inside listed
  exact congrArg Key.mk cells

theorem fields_picked (rowCount : Nat) {names : List String} (known : ∀ name ∈ names, name ∈ entries.names)
    (indices : List Nat) : ((entries.select names).picked indices).map (fun entry => some entry.1) =
      names.map (ofEntries entries rowCount).schema.find? := by
  rw [← fields_select rowCount known, Entries.picked, List.map_map]
  rfl

theorem rows_picked (sound : entries.Sound rowCount) {names : List String}
    (known : ∀ name ∈ names, name ∈ entries.names) (distinct : names.Nodup) {indices : List Nat}
    (inside : ∀ index ∈ indices, index < rowCount) :
    (ofEntries ((entries.select names).picked indices) indices.length).rows =
      indices.map ((ofEntries entries rowCount).cellsAt names) := by
  apply rows_ofEntries rfl
  intro position row listed
  rw [← cells_keyAt, keyAt_picked (sound.select known distinct) inside listed, cellsAt_eq rowCount known]

end Entries

end StratifiedSampling.Table

namespace StratifiedSampling.Readings

/-- Readings of a level at two stations and at an unknown one, with two zeros of different signs. -/
def entries : Entries := [
  (.nullable "station" .string, .string ⟨#["a", "", "a", "", "b"], ⟨#[0b01010], 5⟩⟩),
  (.nullable "level" .float64,
    .float64 ⟨#[⟨0x3FF0000000000000⟩, .zero, .zero, ⟨0x8000000000000000⟩, .zero], ⟨#[0b10100], 5⟩⟩)]

def table : Table :=
  .ofEntries entries 5

theorem formed : table.WellFormed := by
  apply Table.wellFormed_ofEntries
  exact ⟨by decide, by decide⟩

end StratifiedSampling.Readings
