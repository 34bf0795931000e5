import StratifiedSampling.Relation.OrderStatistics

/-! Nearest-rank order statistics. The row at a rank holds the number of that rank, and
at least as many numbers as the rank are up to it, exactly as many if no two are equal. -/

namespace StratifiedSampling

/-- The number at a place, counted from one, when the numbers are put in order. -/
def smallest (place : Nat) (numbers : List Int) : Int :=
  (numbers.mergeSort fun left right => decide (left ≤ right)).getD (place - 1) 0

theorem pairwise_sorted (numbers : List Int) :
    (numbers.mergeSort fun left right => decide (left ≤ right)).Pairwise (· ≤ ·) := by
  have sorted : (numbers.mergeSort fun left right => decide (left ≤ right)).Pairwise
      fun left right => decide (left ≤ right) = true := List.pairwise_mergeSort
    (fun a b c first second => by simp at *; omega) (fun a b => by simp; omega) numbers
  simpa using sorted

/-- A larger place never holds a smaller number. -/
theorem smallest_mono {numbers : List Int} {first second : Nat} (low : 1 ≤ first) (ordered : first ≤ second)
    (high : second ≤ numbers.length) : smallest first numbers ≤ smallest second numbers := by
  have length := (List.mergeSort_perm numbers fun left right => decide (left ≤ right)).length_eq
  have order := List.pairwise_iff_getElem.mp (pairwise_sorted numbers)
  rcases Nat.lt_or_eq_of_le ordered with less | same
  · have firstLong : first - 1 < (numbers.mergeSort fun left right => decide (left ≤ right)).length := by omega
    have secondLong : second - 1 < (numbers.mergeSort fun left right => decide (left ≤ right)).length := by omega
    unfold smallest
    rw [List.getD_eq_getElem?_getD, List.getD_eq_getElem?_getD, List.getElem?_eq_getElem firstLong,
      List.getElem?_eq_getElem secondLong]
    exact order _ _ firstLong secondLong (by omega)
  · exact same ▸ Int.le_refl _

section Count
variable {numbers : List Int} {place : Nat}

theorem exists_cut (low : 1 ≤ place) (high : place ≤ numbers.length) :
    ∃ lower upper : List Int, (lower ++ upper).Perm numbers ∧ lower.length = place ∧
      (∀ number ∈ lower, number ≤ smallest place numbers) ∧ smallest place numbers ∈ lower ∧
      ∀ number ∈ upper, smallest place numbers ≤ number := by
  let sorted := numbers.mergeSort fun left right => decide (left ≤ right)
  have order : sorted.Pairwise (· ≤ ·) := pairwise_sorted numbers
  have perm : sorted.Perm numbers := List.mergeSort_perm _ _
  have long : place - 1 < sorted.length := by rw [perm.length_eq]; omega
  have split : sorted = sorted.take (place - 1) ++ sorted[place - 1] :: sorted.drop (place - 1 + 1) := by
    rw [← List.drop_eq_getElem_cons long, List.take_append_drop]
  have found : smallest place numbers = sorted[place - 1] := by
    rw [smallest, List.getD_eq_getElem?_getD, List.getElem?_eq_getElem long]
    rfl
  rw [split, List.pairwise_append] at order
  obtain ⟨-, upperOrder, between⟩ := order
  refine ⟨sorted.take (place - 1) ++ [sorted[place - 1]], sorted.drop (place - 1 + 1), ?_, ?_, ?_, ?_, ?_⟩
  · rw [List.append_assoc, List.singleton_append, ← split]
    exact perm
  · simp only [List.length_append, List.length_take, List.length_singleton]
    omega
  · intro number member
    rw [found]
    rcases List.mem_append.mp member with member | member
    · exact between number member _ List.mem_cons_self
    · exact Int.le_of_eq (List.mem_singleton.mp member)
  · rw [found]
    exact List.mem_append_right _ List.mem_cons_self
  · intro number member
    rw [found]
    exact (List.pairwise_cons.mp upperOrder).1 number member

theorem place_le_countP (low : 1 ≤ place) (high : place ≤ numbers.length) :
    place ≤ numbers.countP fun number => decide (number ≤ smallest place numbers) := by
  obtain ⟨lower, upper, perm, length, below, -, -⟩ := exists_cut low high
  rw [← perm.countP_eq, List.countP_append]
  have all : lower.countP (fun number => decide (number ≤ smallest place numbers)) = lower.length :=
    List.countP_eq_length.mpr fun number member => by simpa using below number member
  omega

theorem countP_eq_place (low : 1 ≤ place) (high : place ≤ numbers.length) (distinct : numbers.Nodup) :
    (numbers.countP fun number => decide (number ≤ smallest place numbers)) = place := by
  obtain ⟨lower, upper, perm, length, below, member, above⟩ := exists_cut low high
  have apart := (List.nodup_append.mp (perm.nodup_iff.mpr distinct)).2.2
  rw [← perm.countP_eq, List.countP_append]
  have all : lower.countP (fun number => decide (number ≤ smallest place numbers)) = lower.length :=
    List.countP_eq_length.mpr fun number listed => by simpa using below number listed
  have none : upper.countP (fun number => decide (number ≤ smallest place numbers)) = 0 := by
    refine List.countP_eq_zero.mpr fun number listed => ?_
    have different := apart _ member number listed
    have least := above number listed
    simp only [decide_eq_true_eq]
    omega
  omega
end Count

namespace Counts

/-- A rank is the position of a row unless there is none. -/
theorem nearestRank_bounds {size : Nat} (positive : size ≠ 0) (proportion : Double) :
    1 ≤ nearestRank size proportion ∧ nearestRank size proportion ≤ size := by
  unfold nearestRank
  split
  · rw [ceilRank, if_neg positive]
    omega
  · split <;> omega

end Counts

namespace Table

def notAfter (left right : Int × Nat) : Bool :=
  decide (left.1 < right.1 ∨ left.1 = right.1 ∧ left.2 ≤ right.2)

theorem sortedRows_perm (column : Column) (rows : List Nat) : (sortedRows column rows).Perm rows := by
  have perm := (List.mergeSort_perm (rows.map fun row => ((column.value row, row) : Ordered)) notAbove).map Prod.snd
  rw [List.map_map] at perm
  simpa [sortedRows, Function.comp_def] using perm

/-- Rows that hold labels are put in order by label, and by position where labels are equal. -/
theorem sortedRows_eq {column : Column} {rows : List Nat} {label : Nat → Double}
    (labeled : ∀ row ∈ rows, column.value row = .float64 (label row)) :
    sortedRows column rows =
      rows.mergeSort fun first second => notAfter ((label first).rank, first) ((label second).rank, second) := by
  have alike : ∀ first ∈ rows.map (fun row => ((column.value row, row) : Ordered)),
      ∀ second ∈ rows.map (fun row => ((column.value row, row) : Ordered)),
        notAbove first second = notAfter ((label first.2).rank, first.2) ((label second.2).rank, second.2) := by
    intro first firstMember second secondMember
    obtain ⟨left, leftMember, rfl⟩ := List.mem_map.mp firstMember
    obtain ⟨right, rightMember, rfl⟩ := List.mem_map.mp secondMember
    simp only [notAbove, notAfter, labeled left leftMember, labeled right rightMember, Value.order, Double.order]
    rcases Int.lt_trichotomy (label left).rank (label right).rank with less | equal | more
    · simp [Int.compare_eq_lt.mpr less, less]
    · simp [equal]
    · simp [Int.compare_eq_gt.mpr more, Int.le_of_lt more, Int.ne_of_gt more]
  have sorted : ((rows.map fun row => ((column.value row, row) : Ordered)).mergeSort notAbove).map Prod.snd =
      ((rows.map fun row => ((column.value row, row) : Ordered)).map Prod.snd).mergeSort
        fun first second => notAfter ((label first).rank, first) ((label second).rank, second) :=
    List.map_mergeSort alike
  rw [List.map_map] at sorted
  simpa [sortedRows, Function.comp_def] using sorted

theorem notAfter_trans (first second third : Int × Nat) (before : notAfter first second = true)
    (after : notAfter second third = true) : notAfter first third = true := by
  simp only [notAfter, decide_eq_true_eq] at before after ⊢
  omega

theorem notAfter_total (first second : Int × Nat) : (notAfter first second || notAfter second first) = true := by
  simp only [notAfter, Bool.or_eq_true, decide_eq_true_eq]
  omega

/-- Positions in the order of some ranks, and in their own order where ranks are equal. -/
theorem pairwise_notAfter (rank : Nat → Int) (rows : List Nat) :
    (rows.mergeSort fun first second => notAfter (rank first, first) (rank second, second)).Pairwise
      fun first second => notAfter (rank first, first) (rank second, second) = true := by
  refine List.pairwise_mergeSort ?_ ?_ rows
  · exact fun first second third => notAfter_trans (rank first, first) (rank second, second) (rank third, third)
  · exact fun first second => notAfter_total (rank first, first) (rank second, second)

theorem map_sortedRows {column : Column} {rows : List Nat} {label : Nat → Double}
    (labeled : ∀ row ∈ rows, column.value row = .float64 (label row)) :
    (sortedRows column rows).map (fun row => (label row).rank) =
      (rows.map fun row => (label row).rank).mergeSort fun left right => decide (left ≤ right) := by
  have ordered : ((sortedRows column rows).map fun row => (label row).rank).Pairwise (· ≤ ·) := by
    rw [sortedRows_eq labeled]
    refine (pairwise_notAfter (fun row => (label row).rank) rows).map _ fun first second before => ?_
    simp only [notAfter, decide_eq_true_eq] at before
    omega
  have perm : ((sortedRows column rows).map fun row => (label row).rank).Perm
      ((rows.map fun row => (label row).rank).mergeSort fun left right => decide (left ≤ right)) := by
    refine .trans ?_ (List.mergeSort_perm _ _).symm
    exact (sortedRows_perm column rows).map _
  exact perm.eq_of_pairwise (fun _ _ _ _ => Int.le_antisymm) ordered (pairwise_sorted _)

/-- The rows of some that have a value in a column. -/
def knownRows (column : Column) (rows : List Nat) : List Nat :=
  rows.filter fun row => !column.isNull row

/-- A quantile is taken at a place that some row with a value has. -/
theorem getElem?_quantileRow {column : Column} {rows : List Nat} (proportion : Double)
    (filled : knownRows column rows ≠ []) :
    (sortedRows column (knownRows column rows))[Counts.nearestRank (knownRows column rows).length proportion - 1]? =
      some (quantileRow column proportion rows) := by
  have size : (knownRows column rows).length ≠ 0 := by simpa using filled
  obtain ⟨low, high⟩ := Counts.nearestRank_bounds size proportion
  have long : Counts.nearestRank (knownRows column rows).length proportion - 1 <
      (sortedRows column (knownRows column rows)).length := by
    rw [(sortedRows_perm column (knownRows column rows)).length_eq]
    omega
  rw [List.getElem?_eq_getElem long, quantileRow, ← knownRows, List.getElem?_eq_getElem long]
  rfl

/-- The row at the quantile of known labels is one of the rows, and its label has the rank's place. -/
theorem quantileRow_spec {column : Column} {rows : List Nat} {label : Nat → Double} (proportion : Double)
    (filled : rows ≠ []) (present : ∀ row ∈ rows, column.isNull row = false)
    (labeled : ∀ row ∈ rows, column.value row = .float64 (label row)) :
    quantileRow column proportion rows ∈ rows ∧
      (label (quantileRow column proportion rows)).rank =
        smallest (Counts.nearestRank rows.length proportion) (rows.map fun row => (label row).rank) := by
  have known : knownRows column rows = rows :=
    List.filter_eq_self.mpr fun row member => by simp [present row member]
  have chosen := @getElem?_quantileRow column rows proportion (known.symm ▸ filled)
  rw [known] at chosen
  refine ⟨(sortedRows_perm column rows).mem_iff.mp (List.mem_of_getElem? chosen), ?_⟩
  rw [smallest, ← map_sortedRows labeled, List.getD_eq_getElem?_getD, List.getElem?_map, chosen]
  rfl

end Table

end StratifiedSampling
