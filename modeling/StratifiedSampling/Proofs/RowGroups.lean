import Mathlib.Algebra.Ring.Nat
import Mathlib.Data.List.Nodup
import StratifiedSampling.Proofs.Traversals
import StratifiedSampling.Proofs.ValueEquality

/-! Rows in groups. The rows that a key table keeps under a key are the rows of that key,
every row is in one group, and its rank is its position there. -/

namespace StratifiedSampling

namespace KeyTable

theorem rows_add (table : KeyTable) (key other : Key) (row : Nat) :
    (table.add key row).rows other = table.rows other ++ if key == other then [row] else [] := by
  unfold add rows
  rw [Std.HashMap.getD_alter]
  by_cases same : key == other
  · rw [if_pos same, if_pos same, Std.HashMap.getElem?_congr same, Std.HashMap.getD_eq_getD_getElem?]
    cases table[other]? <;> simp
  · rw [if_neg same, if_neg same, List.append_nil]

theorem rows_build (keyOf : Nat → Option Key) (count : Nat) (key : Key) :
    (build keyOf count).rows key = (List.range count).filter fun row => (keyOf row).any (· == key) := by
  unfold build
  induction count with
  | zero => simp [rows]
  | succ count ih =>
    rw [List.range_succ, List.foldl_append, List.filter_append, ← ih]
    cases keyed : keyOf count with
    | none => simp [keyed]
    | some found =>
      simp only [List.foldl_cons, List.foldl_nil, keyed, rows_add]
      by_cases same : found == key <;> simp [keyed, same]

theorem first?_eq_head? (table : KeyTable) (key : Key) : table.first? key = (table.rows key).head? := by
  simp [first?, rows, List.head?_eq_getElem?]

end KeyTable

namespace Table

section Rows
variable (columns : List Column) (count : Nat)

/-- The rows with the key of a row, in order. -/
def stratum (row : Nat) : List Nat :=
  (List.range count).filter fun other => keyAt columns other == keyAt columns row

def leads (row : Nat) : Bool :=
  (List.range row).all fun other => !(keyAt columns other == keyAt columns row)

def leaders : List Nat :=
  (List.range count).filter (leads columns)

/-- The position of a row among the rows with its key, from one. -/
def rankOf (row : Nat) : Nat :=
  (List.range row).countP (fun other => keyAt columns other == keyAt columns row) + 1

/-- The groups, in the order of their first rows. -/
def strata : List Group :=
  (leaders columns count).map fun row => ⟨(keyAt columns row).cells, stratum columns count row⟩

variable {columns count}

theorem mem_stratum {row other : Nat} :
    other ∈ stratum columns count row ↔ other < count ∧ (keyAt columns other == keyAt columns row) = true := by
  simp [stratum]

theorem self_mem_stratum (columns : List Column) {row : Nat} (inside : row < count) : row ∈ stratum columns count row :=
  mem_stratum.mpr ⟨inside, BEq.rfl⟩

theorem stratum_congr (count : Nat) {row other : Nat} (same : (keyAt columns row == keyAt columns other) = true) :
    stratum columns count row = stratum columns count other := by
  unfold stratum
  congr 1
  funext third
  rw [BEq.congr_right same]

theorem leads_iff {row : Nat} :
    leads columns row = true ↔ ∀ other < row, (keyAt columns other == keyAt columns row) = false := by
  simp [leads]

theorem head?_stratum (columns : List Column) {row : Nat} (inside : row < count) :
    (stratum columns count row).head? = some row ↔ leads columns row = true := by
  rw [stratum, List.head?_filter, List.find?_range_eq_some, leads_iff]
  simp [inside]

theorem leaders_lt : ∀ row ∈ leaders columns count, row < count :=
  fun _ member => List.mem_range.mp (List.mem_filter.mp member).1

/-- A leader is the first row of its own group. -/
theorem head_stratum {row : Nat} (member : row ∈ leaders columns count) : (stratum columns count row).headD 0 = row := by
  obtain ⟨inside, first⟩ := List.mem_filter.mp member
  rw [List.headD_eq_head?_getD, (head?_stratum columns (List.mem_range.mp inside)).mpr first]
  rfl

theorem groupsOf_eq : groupsOf columns count = strata columns count := by
  have rows : ∀ row, (KeyTable.build (fun other => some (keyAt columns other)) count).rows (keyAt columns row) =
      stratum columns count row := by
    intro row
    rw [KeyTable.rows_build]
    rfl
  unfold groupsOf strata leaders
  have inside : ∀ row ∈ List.range count, row < count := fun _ => List.mem_range.mp
  revert inside
  generalize List.range count = positions
  intro inside
  induction positions with
  | nil => rfl
  | cons row rest ih =>
    have others := ih fun other member => inside other (List.mem_cons_of_mem _ member)
    have first := head?_stratum columns (inside row List.mem_cons_self)
    simp only [KeyTable.first?_eq_head?, rows] at others ⊢
    rw [List.filterMap_cons, List.filter_cons, others]
    by_cases leading : leads columns row = true
    · rw [if_pos (first.mpr leading), if_pos leading, List.map_cons]
    · rw [if_neg (fun shown => leading (first.mp shown)), if_neg leading]

/-- The rows that are counted with a key, one after the other, are numbered by their ranks. -/
theorem rankRows_eq (start : Nat) {more : Nat} {counts : Std.HashMap Key Nat}
    (counted : ∀ key, counts.getD key 0 = (List.range start).countP fun other => keyAt columns other == key) :
    rankRows columns counts (List.range' start more) = (List.range' start more).map (rankOf columns) := by
  induction more generalizing start counts with
  | zero => rfl
  | succ more ih =>
    rw [List.range'_succ, rankRows, List.map_cons]
    rw [counted, rankOf, ih (start + 1) fun key => ?_]
    rw [Std.HashMap.getD_insert, List.range_succ, List.countP_append, List.countP_singleton]
    by_cases same : keyAt columns start == key
    · rw [if_pos same, if_pos same]
      congr 1
      refine List.countP_congr fun other _ => ?_
      rw [BEq.congr_right same]
    · rw [if_neg same, if_neg same, counted]
      rfl

theorem rankRows_range : rankRows columns ∅ (List.range count) = (List.range count).map (rankOf columns) := by
  rw [List.range_eq_range']
  exact rankRows_eq 0 (by simp)

/-- The elements of a range with a property are numbered from one by how many come before. -/
theorem countP_filter_range (property : Nat → Bool) (count : Nat) :
    ((List.range count).filter property).map (fun row => (List.range row).countP property + 1) =
      List.range' 1 ((List.range count).countP property) := by
  induction count with
  | zero => rfl
  | succ count ih =>
    rw [List.range_succ, List.filter_append, List.map_append, ih, List.countP_append]
    by_cases holds : property count = true
    · rw [List.filter_cons_of_pos holds, List.countP_cons_of_pos holds, List.filter_nil, List.countP_nil,
        Nat.zero_add, List.range'_concat]
      simp [Nat.add_comm]
    · rw [List.filter_cons_of_neg holds, List.countP_cons_of_neg holds]
      simp

/-- The ranks in a group are the numbers from one to its size, in order. -/
theorem ranks_stratum (row : Nat) :
    (stratum columns count row).map (rankOf columns) = List.range' 1 (stratum columns count row).length := by
  have ranks : (stratum columns count row).map (rankOf columns) = (stratum columns count row).map fun member =>
      (List.range member).countP (fun other => keyAt columns other == keyAt columns row) + 1 := by
    refine List.map_congr_left fun member listed => ?_
    rw [rankOf]
    congr 1
    refine List.countP_congr fun other _ => ?_
    rw [BEq.congr_right (mem_stratum.mp listed).2]
  rw [ranks, stratum, countP_filter_range, List.countP_eq_length_filter]

theorem exists_leader (columns : List Column) {row : Nat} (inside : row < count) :
    ∃ leader ∈ leaders columns count, (keyAt columns leader == keyAt columns row) = true := by
  induction row using Nat.strongRecOn with
  | ind row ih =>
    by_cases first : leads columns row = true
    · exact ⟨row, List.mem_filter.mpr ⟨List.mem_range.mpr inside, first⟩, BEq.rfl⟩
    · have earlier : ∃ other < row, (keyAt columns other == keyAt columns row) = true := by
        simpa [leads] using first
      obtain ⟨other, before, same⟩ := earlier
      obtain ⟨leader, member, found⟩ := ih other before (by omega)
      exact ⟨leader, member, BEq.trans found same⟩

theorem leader_unique {first second : Nat} (firstLeads : leads columns first = true)
    (secondLeads : leads columns second = true) (same : (keyAt columns first == keyAt columns second) = true) :
    first = second := by
  rcases Nat.lt_trichotomy first second with before | equal | after
  · rw [leads_iff.mp secondLeads first before] at same
    cases same
  · exact equal
  · have back := BEq.symm same
    rw [leads_iff.mp firstLeads second after] at back
    cases back

/-- The groups are a partition of the rows. -/
theorem strata_perm (columns : List Column) (count : Nat) :
    ((leaders columns count).flatMap (stratum columns count)).Perm (List.range count) := by
  have leading : ∀ row ∈ leaders columns count, leads columns row = true := fun row member =>
    (List.mem_filter.mp member).2
  have distinct : ((leaders columns count).flatMap (stratum columns count)).Nodup := by
    refine List.nodup_flatMap.mpr ⟨fun row _ => List.nodup_range.filter _, ?_⟩
    refine (List.nodup_range.filter _).imp_of_mem fun {first second} firstMember secondMember different => ?_
    intro row inFirst inSecond
    have same := BEq.trans (BEq.symm (mem_stratum.mp inFirst).2) (mem_stratum.mp inSecond).2
    exact different (leader_unique (leading first firstMember) (leading second secondMember) same)
  refine (List.perm_ext_iff_of_nodup distinct List.nodup_range).mpr fun row => ?_
  rw [List.mem_flatMap, List.mem_range]
  constructor
  · rintro ⟨leader, -, member⟩
    exact (mem_stratum.mp member).1
  · intro inside
    obtain ⟨leader, member, same⟩ := exists_leader columns inside
    exact ⟨leader, member, mem_stratum.mpr ⟨inside, BEq.symm same⟩⟩

theorem sum_strata (weight : Nat → Nat) :
    ((leaders columns count).map fun row => ((stratum columns count row).map weight).sum).sum =
      ((List.range count).map weight).sum := by
  have sums := ((strata_perm columns count).map weight).sum_nat
  rw [List.map_flatMap, List.flatMap_def, List.sum_flatten, List.map_map] at sums
  exact sums

theorem length_leaders (columns : List Column) (count : Nat) :
    (leaders columns count).length = ((List.range count).map (keyAt columns)).eraseDups.length := by
  induction count with
  | zero => rfl
  | succ count ih =>
    have first : leads columns count = !((List.range count).map (keyAt columns)).any (· == keyAt columns count) := by
      rw [leads, List.any_map, List.not_any_eq_all_not]
      rfl
    rw [List.range_succ, List.map_append, List.map_singleton, eraseDups_concat, List.length_append, ← ih, leaders,
      List.range_succ, List.filter_append, List.length_append, List.filter_singleton, first]
    cases ((List.range count).map (keyAt columns)).any (· == keyAt columns count) <;> rfl

end Rows

end Table

end StratifiedSampling
