import StratifiedSampling.Proofs.NearestRank
import StratifiedSampling.Proofs.TableCells
import StratifiedSampling.Proofs.ValueOrder

/-! Rows in the order of a column, rows of equal values by position. No two rows are equal in
this order, so that there is one way to put rows in it, however it is found: by a stable sort
by value alone, or by selecting a place and then sorting the rows that come before it. -/

namespace StratifiedSampling

section Selection
variable {α : Type} {cmp : α → α → Ordering}

def Ascending (cmp : α → α → Ordering) (items : List α) : Prop :=
  items.Pairwise fun first second => (cmp first second).isLE = true

/-- The items in ascending order. Merge sort is stable: equal items stay in their order. -/
def sortBy (cmp : α → α → Ordering) (items : List α) : List α :=
  items.mergeSort fun first second => (cmp first second).isLE

theorem sortBy_perm (cmp : α → α → Ordering) (items : List α) : (sortBy cmp items).Perm items :=
  List.mergeSort_perm _ _

/-- What selecting a place in a list leaves there: the items rearranged, with none before the
place above the item that stands there, and none after it below. -/
structure Selected (cmp : α → α → Ordering) (place : Nat) (items arranged : List α) : Prop where
  perm : arranged.Perm items
  parted : ∃ lower chosen upper, arranged = lower ++ chosen :: upper ∧ lower.length = place ∧
    (∀ item ∈ lower, (cmp item chosen).isLE = true) ∧ ∀ item ∈ upper, (cmp chosen item).isLE = true

theorem Selected.split {place : Nat} {items arranged : List α} {chosen : α}
    (selected : Selected cmp place items arranged) (found : arranged[place]? = some chosen) :
    ∃ lower upper, arranged = lower ++ chosen :: upper ∧ lower.length = place ∧
      (∀ item ∈ lower, (cmp item chosen).isLE = true) ∧ ∀ item ∈ upper, (cmp chosen item).isLE = true := by
  obtain ⟨lower, other, upper, rfl, rfl, below, above⟩ := selected.parted
  rw [List.getElem?_append_right (Nat.le_refl _), Nat.sub_self, List.getElem?_cons_zero, Option.some.injEq] at found
  subst found
  exact ⟨lower, upper, rfl, rfl, below, above⟩

variable [Std.TransCmp cmp]

theorem ascending_sortBy (items : List α) : Ascending cmp (sortBy cmp items) := by
  apply List.pairwise_mergeSort
  · intro first second third before after
    exact Std.TransCmp.isLE_trans before after
  · intro first second
    have swapped : cmp second first = (cmp first second).swap := Std.OrientedCmp.eq_swap
    rw [swapped]
    cases cmp first second <;> rfl

/-- Sorting leaves at every place what selecting it does. -/
theorem selected_sortBy {place : Nat} {items : List α} (inside : place < items.length) :
    Selected cmp place items (sortBy cmp items) := by
  have ascending : Ascending cmp (sortBy cmp items) := ascending_sortBy items
  have perm := sortBy_perm cmp items
  have long : place < (sortBy cmp items).length := by rwa [perm.length_eq]
  have split : (sortBy cmp items).take place ++ (sortBy cmp items)[place] :: (sortBy cmp items).drop (place + 1) =
      sortBy cmp items := by
    rw [← List.drop_eq_getElem_cons long, List.take_append_drop]
  rw [Ascending, ← split, List.pairwise_append, List.pairwise_cons] at ascending
  obtain ⟨-, ⟨above, -⟩, across⟩ := ascending
  refine ⟨perm, _, _, _, split.symm, ?_, ?_, above⟩
  · rw [List.length_take]
    omega
  · intro item member
    exact across item member _ List.mem_cons_self

namespace Selected

variable {place : Nat} {items arranged : List α} {chosen : α} {property : α → Bool}

/-- No more items than the place have a property that none has from the chosen one on. -/
theorem countP_le (selected : Selected cmp place items arranged) (found : arranged[place]? = some chosen)
    (above : ∀ item, (cmp chosen item).isLE = true → property item = false) :
    items.countP property ≤ place := by
  obtain ⟨lower, upper, rfl, rfl, -, after⟩ := selected.split found
  have none : (chosen :: upper).countP property = 0 := by
    apply List.countP_eq_zero.mpr
    intro item member
    rw [Bool.not_eq_true]
    rcases List.mem_cons.mp member with rfl | member
    · exact above item Std.ReflCmp.isLE_rfl
    · exact above item (after item member)
  rw [← selected.perm.countP_eq, List.countP_append, none]
  exact List.countP_le_length

/-- More items than the place have a property that all have up to the chosen one. -/
theorem lt_countP (selected : Selected cmp place items arranged) (found : arranged[place]? = some chosen)
    (below : ∀ item, (cmp item chosen).isLE = true → property item = true) :
    place < items.countP property := by
  obtain ⟨lower, upper, rfl, rfl, before, -⟩ := selected.split found
  have all : lower.countP property = lower.length :=
    List.countP_eq_length.mpr fun item member => below item (before item member)
  rw [← selected.perm.countP_eq, List.countP_append, List.countP_cons_of_pos (below chosen Std.ReflCmp.isLE_rfl), all]
  omega

end Selected

variable [Std.LawfulEqCmp cmp]

theorem Ascending.eq_of_perm {items others : List α} (first : Ascending cmp items) (second : Ascending cmp others)
    (perm : items.Perm others) : items = others := by
  apply perm.eq_of_pairwise _ first second
  intro left right _ _ below above
  exact Std.LawfulEqCmp.eq_of_compare (Std.OrientedCmp.isLE_antisymm below above)

namespace Selected

variable {place : Nat} {items arranged : List α}

/-- Sorted items are those before the place, sorted, the one at the place, and the others. -/
theorem sorted (selected : Selected cmp place items arranged) :
    ∃ lower chosen upper sortedLower sortedUpper, arranged = lower ++ chosen :: upper ∧ lower.length = place ∧
      sortedLower.Perm lower ∧ sortBy cmp items = sortedLower ++ chosen :: sortedUpper := by
  obtain ⟨lower, chosen, upper, rfl, length, below, above⟩ := selected.parted
  refine ⟨lower, chosen, upper, sortBy cmp lower, sortBy cmp upper, rfl, length, sortBy_perm cmp lower, ?_⟩
  apply Ascending.eq_of_perm (ascending_sortBy items)
  · apply List.pairwise_append.mpr
    refine ⟨ascending_sortBy lower, ?_, ?_⟩
    · apply List.pairwise_cons.mpr
      refine ⟨?_, ascending_sortBy upper⟩
      intro item member
      exact above item ((sortBy_perm cmp upper).mem_iff.mp member)
    · intro item member other listed
      have reached := below item ((sortBy_perm cmp lower).mem_iff.mp member)
      rcases List.mem_cons.mp listed with rfl | listed
      · exact reached
      · exact Std.TransCmp.isLE_trans reached (above other ((sortBy_perm cmp upper).mem_iff.mp listed))
  · calc sortBy cmp items
      _ |>.Perm items := sortBy_perm cmp items
      _ |>.Perm (lower ++ chosen :: upper) := selected.perm.symm
      _ |>.Perm (sortBy cmp lower ++ chosen :: sortBy cmp upper) :=
        ((sortBy_perm cmp lower).append ((sortBy_perm cmp upper).cons chosen)).symm

/-- The item at the selected place is the one that sorting puts there. -/
theorem getElem? (selected : Selected cmp place items arranged) :
    arranged[place]? = (sortBy cmp items)[place]? := by
  obtain ⟨lower, chosen, upper, sortedLower, sortedUpper, rfl, rfl, perm, sorted⟩ := selected.sorted
  rw [sorted, ← perm.length_eq]
  simp [perm.length_eq]

/-- Up to the selected place stand the items that sorting puts there, in some order. -/
theorem take (selected : Selected cmp place items arranged) :
    (arranged.take (place + 1)).Perm ((sortBy cmp items).take (place + 1)) := by
  obtain ⟨lower, chosen, upper, sortedLower, sortedUpper, rfl, rfl, perm, sorted⟩ := selected.sorted
  rw [sorted, List.take_length_add_append, ← perm.length_eq, List.take_length_add_append]
  exact (perm.append_right _).symm

end Selected

end Selection

namespace Table

/-- The order of rows by the values of a column, then by position. -/
def rowOrder (column : Column) (first second : Nat) : Ordering :=
  ((column.value first).order (column.value second)).then (compare first second)

instance (column : Column) : Std.TransCmp (rowOrder column) := by
  have keyed : rowOrder column =
      compareLex (fun first second => (column.value first).keyOrder (column.value second)) compare := by
    funext first second
    rw [rowOrder, column.order_value]
    rfl
  have values : Std.TransCmp fun first second : Nat => (column.value first).keyOrder (column.value second) := {
    eq_swap := Std.OrientedCmp.eq_swap
    isLE_trans := Std.TransCmp.isLE_trans }
  rw [keyed]
  infer_instance

instance (column : Column) : Std.LawfulEqCmp (rowOrder column) where
  eq_of_compare := by
    intro first second same
    exact Nat.compare_eq_eq.mp (Ordering.then_eq_eq.mp same).2

theorem order_swap (column : Column) (first second : Nat) :
    (column.value second).order (column.value first) = ((column.value first).order (column.value second)).swap := by
  rw [column.order_value, column.order_value]
  exact Std.OrientedCmp.eq_swap

theorem isLE_rowOrder (column : Column) (first second : Nat) :
    (rowOrder column first second).isLE = notAbove (column.value first, first) (column.value second, second) := by
  unfold rowOrder notAbove
  cases (column.value first).order (column.value second)
  · rfl
  · rw [Bool.eq_iff_iff, decide_eq_true_iff]
    exact Nat.isLE_compare
  · rfl

theorem sortedRows_eq_sortBy (column : Column) (rows : List Nat) :
    sortedRows column rows = sortBy (rowOrder column) rows := by
  have sorted : (rows.mergeSort fun first second => (rowOrder column first second).isLE).map
      (fun row => ((column.value row, row) : Ordered)) =
      (rows.map fun row => ((column.value row, row) : Ordered)).mergeSort notAbove :=
    List.map_mergeSort fun first _ second _ => isLE_rowOrder column first second
  rw [sortedRows, ← sorted, List.map_map, sortBy]
  exact List.map_id' _

theorem ascending_sortedRows (column : Column) (rows : List Nat) :
    Ascending (rowOrder column) (sortedRows column rows) := by
  rw [sortedRows_eq_sortBy]
  exact ascending_sortBy rows

/-- Sorting all rows by value alone, stably, comes to comparing positions where values are equal. -/
theorem sortBy_value (column : Column) (count : Nat) :
    sortBy (fun first second => (column.value first).order (column.value second)) (List.range count) =
      sortedRows column (List.range count) := by
  have numbered : (List.range count).zipIdx = (List.range count).map fun row => (row, row) := by
    apply List.ext_getElem (by simp)
    intro position _ _
    simp
  have sorted : ((List.range count).mergeSort fun first second => (rowOrder column first second).isLE).map
      (fun row => (row, row)) = ((List.range count).map fun row => (row, row)).mergeSort
        (List.zipIdxLE fun first second => ((column.value first).order (column.value second)).isLE) := by
    apply List.map_mergeSort
    intro first _ second _
    simp only [List.zipIdxLE, order_swap column first second, isLE_rowOrder, notAbove]
    cases (column.value first).order (column.value second) <;> rfl
  rw [sortBy, ← List.mergeSort_zipIdx, numbered, ← sorted, List.map_map, sortedRows_eq_sortBy, sortBy]
  exact List.map_id' _

/-- The order of the rows of a table by their values in a column, then by position. -/
def cellOrder (table : Table) (name : String) (first second : Nat) : Ordering :=
  ((table.cell name first).order (table.cell name second)).then (compare first second)

theorem cellOrder_eq {entries : Entries} (rowCount : Nat) {name : String} {entry : Field × Column}
    (found : entries.lookup? name = some entry) :
    (ofEntries entries rowCount).cellOrder name = rowOrder entry.2 := by
  funext first second
  rw [cellOrder, cell_eq rowCount found, cell_eq rowCount found, rowOrder]

end Table

end StratifiedSampling
