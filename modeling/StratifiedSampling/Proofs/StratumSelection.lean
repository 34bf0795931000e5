import StratifiedSampling.Proofs.StagedTables

/-! The rows that a sample takes from each stratum: without replacement those up to the
nearest-rank label of their stratum, with replacement each as often as its rank is drawn. -/

namespace StratifiedSampling.Table

section Selections
variable (columns : List Column) (count : Nat) (seed : UInt64) (proportion : Double)

/-- The place of a row's label among all labels. -/
def labelRank (row : Nat) : Int :=
  (Stream.rowLabel seed (UInt64.ofNat row)).rank

/-- The number of rows that a proportion of a row's stratum comes to. -/
def quota (row : Nat) : Nat :=
  Counts.nearestRank (stratum columns count row).length proportion

def isNearest (row : Nat) : Bool :=
  decide (labelRank seed row ≤
    smallest (quota columns count proportion row) ((stratum columns count row).map (labelRank seed)))

def nearestRows : List Nat :=
  (List.range count).filter (isNearest columns count seed proportion)

/-- How often the rank of a row is drawn in its stratum. -/
def timesDrawn (row : Nat) : Nat :=
  let size := (stratum columns count row).length
  (List.range (Counts.drawCount size proportion)).countP fun ordinal =>
    Stream.drawIndex (Stream.stratumSeed seed (keyAt columns row).cells) (UInt64.ofNat ordinal) size ==
      rankOf columns row

def drawnSelection : List Nat :=
  (List.range count).flatMap fun row => List.replicate (timesDrawn columns count seed proportion row) row

/-- How many rows of a selection are of a row's stratum. -/
def contribution (selection : List Nat) (row : Nat) : Nat :=
  selection.countP fun other => keyAt columns other == keyAt columns row

variable {columns count seed proportion}

theorem mem_nearestRows {row : Nat} : row ∈ nearestRows columns count seed proportion ↔
    row < count ∧ labelRank seed row ≤
      smallest (quota columns count proportion row) ((stratum columns count row).map (labelRank seed)) := by
  rw [nearestRows, List.mem_filter, List.mem_range, isNearest, decide_eq_true_eq]

theorem nearestRows_ascending : (nearestRows columns count seed proportion).Pairwise (· < ·) :=
  List.pairwise_lt_range.filter _

theorem contribution_filter (property : Nat → Bool) (row : Nat) :
    contribution columns ((List.range count).filter property) row = (stratum columns count row).countP property := by
  rw [contribution, List.countP_filter, stratum, List.countP_filter]
  simp only [Bool.and_comm]

theorem contribution_nearestRows (row : Nat) :
    contribution columns (nearestRows columns count seed proportion) row =
      ((stratum columns count row).map (labelRank seed)).countP fun label =>
        decide (label ≤
          smallest (quota columns count proportion row) ((stratum columns count row).map (labelRank seed))) := by
  rw [nearestRows, contribution_filter, List.countP_map]
  refine List.countP_congr fun other member => ?_
  have same := stratum_congr count (mem_stratum.mp member).2
  rw [isNearest, quota, same]
  rfl

theorem quota_bounds (columns : List Column) (proportion : Double) {row : Nat} (inside : row < count) :
    1 ≤ quota columns count proportion row ∧
      quota columns count proportion row ≤ (stratum columns count row).length := by
  refine Counts.nearestRank_bounds ?_ proportion
  have filled := List.length_pos_of_mem (self_mem_stratum columns inside)
  omega

theorem quota_le_contribution {row : Nat} (inside : row < count) :
    quota columns count proportion row ≤ contribution columns (nearestRows columns count seed proportion) row := by
  obtain ⟨low, high⟩ := quota_bounds columns proportion inside
  rw [contribution_nearestRows]
  exact place_le_countP low (by rwa [List.length_map])

theorem contribution_eq_quota {row : Nat} (inside : row < count)
    (distinct : ((stratum columns count row).map (labelRank seed)).Nodup) :
    contribution columns (nearestRows columns count seed proportion) row = quota columns count proportion row := by
  obtain ⟨low, high⟩ := quota_bounds columns proportion inside
  rw [contribution_nearestRows]
  exact countP_eq_place low (by rwa [List.length_map]) distinct

theorem timesDrawn_eq (row : Nat) :
    timesDrawn columns count seed proportion row =
      (stratumDraws columns count seed proportion row).count (rankOf columns row) := by
  rw [timesDrawn, stratumDraws, groupDrawn, List.count_eq_countP, List.countP_map]
  rfl

theorem stratumDraws_congr {row other : Nat} (same : (keyAt columns row == keyAt columns other) = true) :
    stratumDraws columns count seed proportion row = stratumDraws columns count seed proportion other := by
  rw [stratumDraws, stratumDraws, groupDrawn, groupDrawn]
  simp only [stratum_congr count same, Key.stratumSeed_of_beq same]

theorem length_stratumDraws (row : Nat) : (stratumDraws columns count seed proportion row).length =
    Counts.drawCount (stratum columns count row).length proportion := by
  simp [stratumDraws, groupDrawn]

theorem drawIndex_bounds (groupSeed ordinal : UInt64) {size : Nat} (positive : size ≠ 0) :
    1 ≤ Stream.drawIndex groupSeed ordinal size ∧ Stream.drawIndex groupSeed ordinal size ≤ size := by
  unfold Stream.drawIndex Stream.scaledWord
  generalize Stream.fairWord (Stream.keyed groupSeed ordinal) size Stream.searchLimit 0 = word
  have below : word.toNat * size < twoPow 64 * size :=
    Nat.mul_lt_mul_of_pos_right word.toNat_lt (Nat.pos_of_ne_zero positive)
  exact ⟨Nat.le_add_left 1 _, Nat.succ_le_of_lt (Nat.div_lt_of_lt_mul below)⟩

theorem stratumDraws_bounds {row : Nat} (inside : row < count) :
    ∀ draw ∈ stratumDraws columns count seed proportion row, 1 ≤ draw ∧ draw ≤ (stratum columns count row).length := by
  intro draw member
  obtain ⟨ordinal, -, rfl⟩ := List.mem_map.mp member
  refine drawIndex_bounds _ _ ?_
  have filled := List.length_pos_of_mem (self_mem_stratum columns inside)
  exact Nat.ne_of_gt filled

/-- Every draw is the rank of one row of its stratum. -/
theorem exists_row_of_draw {row draw : Nat} (inside : row < count)
    (drawn : draw ∈ stratumDraws columns count seed proportion row) :
    ∃! other, other ∈ stratum columns count row ∧ rankOf columns other = draw := by
  obtain ⟨low, high⟩ := stratumDraws_bounds inside draw drawn
  have ranks := @ranks_stratum columns count row
  have listed : draw ∈ (stratum columns count row).map (rankOf columns) := by
    rw [ranks, List.mem_range'_1]
    omega
  have distinct : ((stratum columns count row).map (rankOf columns)).Nodup := by
    rw [ranks]
    exact List.nodup_range'
  obtain ⟨other, member, same⟩ := List.mem_map.mp listed
  refine ⟨other, ⟨member, same⟩, fun another found => ?_⟩
  exact List.inj_on_of_nodup_map distinct found.1 member (found.2.trans same.symm)

theorem sum_count_range' (numbers : List Nat) (size : Nat) :
    ((List.range' 1 size).map fun number => numbers.count number).sum =
      numbers.countP fun number => decide (1 ≤ number ∧ number ≤ size) := by
  induction size with
  | zero =>
    have none : numbers.countP (fun number => decide (1 ≤ number ∧ number ≤ 0)) = 0 := by
      refine List.countP_eq_zero.mpr fun number _ => ?_
      simp only [decide_eq_true_eq]
      omega
    rw [none]
    rfl
  | succ size ih =>
    rw [List.range'_concat, List.map_append, List.sum_append_nat, ih, List.map_singleton, List.sum_singleton]
    clear ih
    induction numbers with
    | nil => rfl
    | cons number rest ih =>
      rw [List.countP_cons, List.countP_cons, List.count_cons, ← ih]
      simp only [decide_eq_true_eq, beq_iff_eq]
      split <;> split <;> split <;> omega

/-- The ranks that are drawn in a stratum are those of its rows. -/
theorem sum_timesDrawn {row : Nat} (inside : row < count) :
    ((stratum columns count row).map (timesDrawn columns count seed proportion)).sum =
      Counts.drawCount (stratum columns count row).length proportion := by
  -- By ranks instead of rows: the ranks of a stratum are the numbers from one to its size.
  have times : (stratum columns count row).map (timesDrawn columns count seed proportion) =
      ((stratum columns count row).map (rankOf columns)).map fun rank =>
        (stratumDraws columns count seed proportion row).count rank := by
    rw [List.map_map]
    refine List.map_congr_left fun other member => ?_
    rw [timesDrawn_eq, stratumDraws_congr (mem_stratum.mp member).2]
    rfl
  have all : (stratumDraws columns count seed proportion row).countP (fun draw =>
      decide (1 ≤ draw ∧ draw ≤ (stratum columns count row).length)) =
      (stratumDraws columns count seed proportion row).length :=
    List.countP_eq_length.mpr fun draw member => by simpa using stratumDraws_bounds inside draw member
  rw [times, ranks_stratum, sum_count_range', all, length_stratumDraws]

theorem countP_repeated (times : Nat → Nat) (property : Nat → Bool) (rows : List Nat) :
    (rows.flatMap fun row => List.replicate (times row) row).countP property =
      ((rows.filter property).map times).sum := by
  induction rows with
  | nil => rfl
  | cons row rest ih =>
    rw [List.flatMap_cons, List.countP_append, ih, List.countP_replicate]
    by_cases holds : property row = true
    · rw [if_pos holds, List.filter_cons_of_pos holds, List.map_cons, List.sum_cons]
    · rw [if_neg holds, List.filter_cons_of_neg holds, Nat.zero_add]

theorem mem_drawnSelection {row : Nat} (member : row ∈ drawnSelection columns count seed proportion) : row < count := by
  obtain ⟨other, inside, repeated⟩ := List.mem_flatMap.mp member
  rw [List.eq_of_mem_replicate repeated]
  exact List.mem_range.mp inside

theorem drawnSelection_ascending : (drawnSelection columns count seed proportion).Pairwise (· ≤ ·) := by
  refine List.pairwise_flatMap.mpr ⟨fun row _ => ?_, ?_⟩
  · exact List.pairwise_replicate.mpr (.inr (Nat.le_refl row))
  · refine List.pairwise_lt_range.imp fun {first second} before left inFirst right inSecond => ?_
    rw [List.eq_of_mem_replicate inFirst, List.eq_of_mem_replicate inSecond]
    exact Nat.le_of_lt before

theorem count_drawnSelection {row : Nat} (inside : row < count) :
    (drawnSelection columns count seed proportion).count row = timesDrawn columns count seed proportion row := by
  have once : (List.range count).count row = 1 :=
    List.count_eq_one_of_mem List.nodup_range (List.mem_range.mpr inside)
  rw [List.count_eq_countP, drawnSelection, countP_repeated, List.filter_beq, once]
  exact Nat.add_zero _

theorem contribution_drawnSelection {row : Nat} (inside : row < count) :
    contribution columns (drawnSelection columns count seed proportion) row =
      Counts.drawCount (stratum columns count row).length proportion := by
  have total : ((stratum columns count row).map (timesDrawn columns count seed proportion)).sum = _ :=
    sum_timesDrawn inside
  rw [← total, contribution, drawnSelection, countP_repeated, stratum]

theorem length_drawnRows (columns : List Column) (count : Nat) (proportion : Double) (seed : UInt64) :
    (drawnRows columns count proportion seed).length = ((leaders columns count).map fun leader =>
      Counts.drawCount (stratum columns count leader).length proportion).sum := by
  rw [drawnRows, List.length_flatMap]
  simp [length_stratumDraws]

/-- No draw is lost and none counts twice. -/
theorem length_drawnSelection :
    (drawnSelection columns count seed proportion).length = (drawnRows columns count proportion seed).length := by
  have each : (leaders columns count).map (fun leader =>
      Counts.drawCount (stratum columns count leader).length proportion) =
      (leaders columns count).map fun leader =>
        ((stratum columns count leader).map (timesDrawn columns count seed proportion)).sum :=
    List.map_congr_left fun leader member => (sum_timesDrawn (leaders_lt leader member)).symm
  rw [length_drawnRows, each, sum_strata, drawnSelection, List.length_flatMap]
  simp

end Selections

end StratifiedSampling.Table
