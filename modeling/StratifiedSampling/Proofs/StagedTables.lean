import StratifiedSampling.Proofs.NearestRank
import StratifiedSampling.Proofs.RowGroups
import StratifiedSampling.Proofs.TableEntries
import StratifiedSampling.Relation.RandomColumn

/-! The tables that a run stages, as entries: the labeled and the ranked source, the
thresholds and the draws of its groups. -/

namespace StratifiedSampling

namespace Table

def labelColumn (seed : UInt64) (count : Nat) : Column :=
  .float64 (present ((List.range count).map fun row => Stream.rowLabel seed (UInt64.ofNat row)))

theorem size_labelColumn (seed : UInt64) (count : Nat) : (labelColumn seed count).size = count := by
  simp [labelColumn, Column.size, Column.measure, Cells.size, present]

theorem value_labelColumn (seed : UInt64) {count row : Nat} (inside : row < count) :
    (labelColumn seed count).value row = .float64 (Stream.rowLabel seed (UInt64.ofNat row)) := by
  have listed : ((List.range count).map fun row => Stream.rowLabel seed (UInt64.ofNat row))[row]? =
      some (Stream.rowLabel seed (UInt64.ofNat row)) := by
    rw [List.getElem?_map, List.getElem?_range inside]
    rfl
  simp only [labelColumn, Column.value, Cells.cell?_present listed, Option.map_some, Option.getD_some]

theorem isNull_labelColumn (seed : UInt64) {count row : Nat} (inside : row < count) :
    (labelColumn seed count).isNull row = false := by
  simp only [labelColumn, Column.isNull, Column.nulls, Column.measure, present]
  exact NullBitmap.isNull_valid (by simpa using inside)

/-- The ranks of the rows of a table in their groups. -/
def rankColumn (columns : List Column) (count : Nat) : Column :=
  .int64 (present (((List.range count).map (rankOf columns)).map Int64.ofNat))

theorem size_rankColumn (columns : List Column) (count : Nat) : (rankColumn columns count).size = count := by
  simp [rankColumn, Column.size, Column.measure, Cells.size, present]

theorem value_rankColumn (columns : List Column) {count row : Nat} (inside : row < count) :
    (rankColumn columns count).value row = .int64 (Int64.ofNat (rankOf columns row)) := by
  have listed : (((List.range count).map (rankOf columns)).map Int64.ofNat)[row]? =
      some (Int64.ofNat (rankOf columns row)) := by
    rw [List.getElem?_map, List.getElem?_map, List.getElem?_range inside]
    rfl
  simp only [rankColumn, Column.value, Cells.cell?_present listed, Option.map_some, Option.getD_some]

/-- The draws of a row's group. -/
def stratumDraws (columns : List Column) (count : Nat) (seed : UInt64) (proportion : Double) (row : Nat) : List Nat :=
  groupDrawn proportion seed ⟨(keyAt columns row).cells, stratum columns count row⟩

/-- The draws of all groups, each with the first row of its group. -/
def drawnRows (columns : List Column) (count : Nat) (proportion : Double) (seed : UInt64) : List (Nat × Nat) :=
  (leaders columns count).flatMap fun leader =>
    (stratumDraws columns count seed proportion leader).map fun rank => (leader, rank)

def drawColumn (draws : List (Nat × Nat)) : Column :=
  .int64 (present ((draws.map Prod.snd).map Int64.ofNat))

theorem size_drawColumn (draws : List (Nat × Nat)) : (drawColumn draws).size = draws.length := by
  simp [drawColumn, Column.size, Column.measure, Cells.size, present]

theorem value_drawColumn {draws : List (Nat × Nat)} {index : Nat} {draw : Nat × Nat}
    (listed : draws[index]? = some draw) : (drawColumn draws).value index = .int64 (Int64.ofNat draw.2) := by
  have number : ((draws.map Prod.snd).map Int64.ofNat)[index]? = some (Int64.ofNat draw.2) := by
    rw [List.getElem?_map, List.getElem?_map, listed]
    rfl
  simp only [drawColumn, Column.value, Cells.cell?_present number, Option.map_some, Option.getD_some]

theorem drawnRows_lt {columns : List Column} {count : Nat} {proportion : Double} {seed : UInt64} :
    ∀ row ∈ (drawnRows columns count proportion seed).map Prod.fst, row < count := by
  intro row member
  obtain ⟨draw, listed, rfl⟩ := List.mem_map.mp member
  obtain ⟨leader, leading, drawn⟩ := List.mem_flatMap.mp listed
  obtain ⟨rank, -, rfl⟩ := List.mem_map.mp drawn
  exact leaders_lt leader leading

theorem stratum_nil (count row : Nat) : stratum [] count row = List.range count :=
  List.filter_eq_self.mpr fun _ _ => rfl

theorem leaders_nil {count : Nat} (filled : count ≠ 0) : leaders [] count = [0] := by
  obtain ⟨more, rfl⟩ := Nat.exists_eq_succ_of_ne_zero filled
  have first : leads [] 0 = true := rfl
  have others : ((List.range more).map Nat.succ).filter (leads []) = [] := by
    refine List.filter_eq_nil_iff.mpr fun row member leading => ?_
    obtain ⟨before, -, rfl⟩ := List.mem_map.mp member
    have apart := leads_iff.mp leading 0 (Nat.succ_pos before)
    cases apart
  rw [leaders, List.range_succ_eq_map, List.filter_cons_of_pos first, others]

theorem rankOf_nil (row : Nat) : rankOf [] row = row + 1 := by
  have all : (List.range row).countP (fun other => keyAt [] other == keyAt [] row) = (List.range row).length :=
    List.countP_eq_length.mpr fun _ _ => rfl
  rw [rankOf, all, List.length_range]

/-- The key and the size of every group. -/
def strataSizes (columns : List Column) (count : Nat) : List GroupCount :=
  (leaders columns count).map fun row => ⟨(keyAt columns row).cells, (stratum columns count row).length⟩

theorem totalBy_strataSizes (measure : GroupCount → Nat) (columns : List Column) (count : Nat) :
    GroupCount.totalBy measure (strataSizes columns count) = ((leaders columns count).map fun row =>
      measure ⟨(keyAt columns row).cells, (stratum columns count row).length⟩).sum := by
  unfold strataSizes
  induction leaders columns count with
  | nil => rfl
  | cons row rest ih => rw [List.map_cons, GroupCount.totalBy, ih, List.map_cons, List.sum_cons]

theorem total_strataSizes (columns : List Column) (count : Nat) :
    GroupCount.total (strataSizes columns count) = count := by
  have ones : ∀ rows : List Nat, (rows.map fun _ => 1).sum = rows.length := by simp
  have sums := @sum_strata columns count fun _ => 1
  simp only [ones, List.length_range] at sums
  rw [GroupCount.total, totalBy_strataSizes]
  exact sums

section Operations
variable {entries : Entries} {rowCount : Nat} {keys : List String}

theorem withRandomLabel_eq {name : String} (new : name ∉ entries.names) (seed : UInt64) :
    (ofEntries entries rowCount).withRandomLabel name seed =
      .ok (ofEntries (entries ++ [(.required name .float64, labelColumn seed rowCount)]) rowCount) := by
  have added := withColumn_eq entries (.required name .float64) new (size_labelColumn seed rowCount)
  unfold withRandomLabel
  rw [checkNewColumn_eq new]
  exact added

theorem groups_eq (known : ∀ name ∈ keys, name ∈ entries.names) :
    (ofEntries entries rowCount).groups keys = .ok (strata (entries.select keys).columns rowCount) := by
  unfold groups
  rw [resolveColumns_eq known, ← groupsOf_eq]
  rfl

theorem groupCounts_eq (known : ∀ name ∈ keys, name ∈ entries.names) (filled : rowCount ≠ 0 ∨ keys ≠ []) :
    (ofEntries entries rowCount).groupCounts keys =
      .ok (strataSizes (entries.select keys).columns rowCount) := by
  unfold groupCounts strataSizes
  cases keys with
  | nil =>
    have columns : (entries.select []).columns = [] := rfl
    have rows : rowCount ≠ 0 := filled.resolve_right fun keyed => keyed rfl
    rw [columns, leaders_nil rows]
    simp [stratum_nil, keyAt, ofEntries]
  | cons key rest =>
    rw [groups_eq known]
    simp [strata, bind, Except.bind, pure, Except.pure]

theorem rowNumber_eq (known : ∀ name ∈ keys, name ∈ entries.names) {name : String} (new : name ∉ entries.names) :
    (ofEntries entries rowCount).rowNumber keys name =
      .ok (ofEntries (entries ++ [(.required name .int64, rankColumn (entries.select keys).columns rowCount)])
        rowCount) := by
  have added := withColumn_eq entries (.required name .int64) new (size_rankColumn (entries.select keys).columns rowCount)
  have ranks : (if (entries.select keys).columns.isEmpty then (List.range rowCount).map (· + 1)
      else rankRows (entries.select keys).columns ∅ (List.range rowCount)) =
      (List.range rowCount).map (rankOf (entries.select keys).columns) := by
    split
    next empty =>
      have none := List.isEmpty_iff.mp empty
      rw [none]
      exact List.map_congr_left fun row _ => (rankOf_nil row).symm
    next => exact rankRows_range
  unfold rowNumber
  rw [checkNewColumn_eq new, resolveColumns_eq known]
  simp only [bind, Except.bind]
  rw [← added, rankColumn, ← ranks]
  rfl

theorem checkProportion_eq {proportion : Double} (proper : Counts.isProportion proportion = true) :
    Counts.checkProportion proportion = .ok () := by
  rw [Counts.checkProportion, if_pos proper]

theorem groupQuantile_eq (sound : entries.Sound rowCount) (known : ∀ name ∈ keys, name ∈ entries.names)
    (distinct : keys.Nodup) {proportion : Double} (proper : Counts.isProportion proportion = true)
    {valueName name : String} {entry : Field × Column} (found : entries.lookup? valueName = some entry)
    (new : name ∉ keys) {rows : List Nat}
    (chosen : rows = (leaders (entries.select keys).columns rowCount).map fun leader =>
      quantileRow entry.2 proportion (stratum (entries.select keys).columns rowCount leader))
    (inside : ∀ row ∈ rows, row < rowCount) :
    (ofEntries entries rowCount).groupQuantile keys valueName proportion name =
      .ok (ofEntries ((entries.select keys).picked (leaders (entries.select keys).columns rowCount) ++
        [(.nullable name entry.2.dataType, entry.2.picked rows)])
        (leaders (entries.select keys).columns rowCount).length) := by
  have keysSound := sound.select known distinct
  have representatives : (strata (entries.select keys).columns rowCount).map (fun group => group.rows.headD 0) =
      leaders (entries.select keys).columns rowCount := by
    rw [strata, List.map_map]
    exact (List.map_congr_left fun row member => head_stratum member).trans (List.map_id' _)
  have quantiles : (strata (entries.select keys).columns rowCount).map
      (fun group => quantileRow entry.2 proportion group.rows) = rows := by
    rw [chosen, strata, List.map_map]
    rfl
  have bounded : ∀ row ∈ rows, row < entry.2.size := sound.inside (Entries.mem_of_lookup? found).1 inside
  have counted : rows.length = (leaders (entries.select keys).columns rowCount).length := by simp [chosen]
  have added := withColumn_eq ((entries.select keys).picked (leaders (entries.select keys).columns rowCount))
    (.nullable name entry.2.dataType)
    (by rw [Entries.names_picked, Entries.names_select known]; exact new)
    ((Column.size_picked bounded).trans counted)
  unfold groupQuantile
  rw [checkProportion_eq proper]
  simp only [bind, Except.bind, List.contains_eq_mem, new, decide_false, Bool.false_eq_true, if_false]
  rw [resolveColumn_eq found, groups_eq known, project_eq sound known distinct]
  simp only [representatives, quantiles]
  rw [gather_eq keysSound leaders_lt, Column.gather_eq bounded]
  exact added

theorem groupDraws_eq (sound : entries.Sound rowCount) (known : ∀ name ∈ keys, name ∈ entries.names)
    (distinct : keys.Nodup) {proportion : Double} (proper : Counts.isProportion proportion = true) {name : String}
    (new : name ∉ keys) (seed : UInt64) {draws : List (Nat × Nat)}
    (drawn : draws = drawnRows (entries.select keys).columns rowCount proportion seed) :
    (ofEntries entries rowCount).groupDraws keys proportion name seed =
      .ok (ofEntries ((entries.select keys).picked (draws.map Prod.fst) ++
        [(.required name .int64, drawColumn draws)]) draws.length) := by
  have keysSound := sound.select known distinct
  have inside : ∀ row ∈ draws.map Prod.fst, row < rowCount := by
    rw [drawn]
    exact drawnRows_lt
  have keysNew : name ∉ (entries.select keys).names := by rwa [Entries.names_select known]
  have byLeader : (strata (entries.select keys).columns rowCount).map (fun group =>
      (group.rows.headD 0, groupDrawn proportion seed group)) =
      (leaders (entries.select keys).columns rowCount).map fun leader =>
        (leader, stratumDraws (entries.select keys).columns rowCount seed proportion leader) := by
    rw [strata, List.map_map]
    exact List.map_congr_left fun leader member => congrArg (·, _) (head_stratum member)
  have representatives : ((leaders (entries.select keys).columns rowCount).map fun leader =>
      (leader, stratumDraws (entries.select keys).columns rowCount seed proportion leader)).flatMap
        (fun entry => List.replicate entry.2.length entry.1) = draws.map Prod.fst := by
    rw [drawn, drawnRows, List.map_flatMap, List.flatMap_map]
    refine List.flatMap_congr fun leader member => ?_
    simp [Function.comp_def, List.map_const']
  have ranks : ((leaders (entries.select keys).columns rowCount).map fun leader =>
      (leader, stratumDraws (entries.select keys).columns rowCount seed proportion leader)).flatMap
        (fun entry => entry.2.map Int64.ofNat) = (draws.map Prod.snd).map Int64.ofNat := by
    rw [drawn, drawnRows, List.map_flatMap, List.map_flatMap, List.flatMap_map]
    refine List.flatMap_congr fun leader member => ?_
    simp [Function.comp_def]
  have added := withColumn_eq ((entries.select keys).picked (draws.map Prod.fst))
    (.required name .int64) (by rwa [Entries.names_picked]) (size_drawColumn draws)
  unfold groupDraws
  rw [checkProportion_eq proper, project_eq sound known distinct, groups_eq known]
  simp only [bind, Except.bind, checkNewColumn_eq keysNew, byLeader, representatives, ranks]
  rw [gather_eq keysSound inside]
  simpa [drawColumn] using added

theorem sortLimit_eq (sound : entries.Sound rowCount) {names : List String} (known : ∀ name ∈ names, name ∈ entries.names)
    (distinct : names.Nodup) {orderBy : String} {entry : Field × Column} (found : entries.lookup? orderBy = some entry)
    (limit : Nat) {rows : List Nat} (first : rows = (sortedRows entry.2 (List.range rowCount)).take limit) :
    (ofEntries entries rowCount).sortLimit orderBy limit names =
      .ok (ofEntries ((entries.select names).picked rows) rows.length) := by
  have inside : ∀ row ∈ rows, row < rowCount := by
    rw [first]
    intro row member
    have listed := (sortedRows_perm entry.2 (List.range rowCount)).mem_iff.mp (List.mem_of_mem_take member)
    exact List.mem_range.mp listed
  unfold sortLimit
  rw [project_eq sound known distinct, resolveColumn_eq found]
  simp only [bind, Except.bind]
  have gathered := gather_eq (sound.select known distinct) inside
  rw [first] at gathered ⊢
  exact gathered

end Operations

end Table

end StratifiedSampling
