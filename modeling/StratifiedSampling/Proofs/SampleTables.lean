import StratifiedSampling.Proofs.JoinRows
import StratifiedSampling.Proofs.StratumSelection
import StratifiedSampling.Proofs.TableCells

/-! The last join of each strategy. Joining the labeled source with the thresholds keeps
the nearest rows of every stratum; joining the ranked source with the draws takes every
row as often as it was drawn. -/

namespace StratifiedSampling.Table

theorem leaders_of_key (columns : List Column) {count row : Nat} (inside : row < count) :
    ∃ leader ∈ leaders columns count, (keyAt columns leader == keyAt columns row) = true ∧
      (leaders columns count).filter (fun other => keyAt columns other == keyAt columns row) = [leader] := by
  obtain ⟨leader, member, same⟩ := exists_leader columns inside
  refine ⟨leader, member, same, ?_⟩
  have distinct : ((leaders columns count).filter fun other => keyAt columns other == keyAt columns row).Nodup :=
    (List.nodup_range.filter _).filter _
  refine List.perm_singleton.mp ((List.perm_ext_iff_of_nodup distinct (by simp)).mpr fun other => ?_)
  rw [List.mem_filter, List.mem_singleton]
  constructor
  · rintro ⟨otherMember, otherSame⟩
    exact leader_unique (List.mem_filter.mp otherMember).2 (List.mem_filter.mp member).2
      (BEq.trans otherSame (BEq.symm same))
  · rintro rfl
    exact ⟨member, same⟩

/-- Counting over the leaders with a row's key is a look at the one there is. -/
theorem exists_countP_leaders (columns : List Column) {count row : Nat} (inside : row < count) (holds : Nat → Bool) :
    ∃ leader ∈ leaders columns count, (keyAt columns leader == keyAt columns row) = true ∧
      (leaders columns count).countP (fun other => keyAt columns other == keyAt columns row && holds other) =
        if holds leader then 1 else 0 := by
  obtain ⟨leader, member, same, only⟩ := leaders_of_key columns inside
  refine ⟨leader, member, same, ?_⟩
  simp only [Bool.and_comm (keyAt columns _ == keyAt columns row)]
  rw [← List.countP_filter, only, List.countP_singleton]

theorem flatMap_kept (property : Nat → Bool) (rows : List Nat) :
    (rows.flatMap fun row => List.replicate (if property row then 1 else 0) row) = rows.filter property := by
  induction rows with
  | nil => rfl
  | cons row rest ih =>
    rw [List.flatMap_cons, ih]
    by_cases holds : property row = true
    · rw [if_pos holds, List.filter_cons_of_pos holds]
      rfl
    · rw [if_neg holds, List.filter_cons_of_neg holds]
      rfl

/-- The source with one more column, joined with keys of its rows and a column of the run's own. -/
theorem join_extended {entries : Entries} {rowCount rightCount : Nat} (sound : entries.Sound rowCount)
    {keys : List String} (keysKnown : ∀ name ∈ keys, name ∈ entries.names) (keysDistinct : keys.Nodup)
    (leftField : Field) {leftColumn : Column} (leftNew : leftField.name ∉ entries.names)
    (leftSized : leftColumn.size = rowCount) (rightField : Field) {rightColumn : Column}
    (rightNew : rightField.name ∉ keys) (rightSized : rightColumn.size = rightCount) {indices : List Nat}
    (inside : ∀ index ∈ indices, index < rowCount) (counted : indices.length = rightCount)
    {project : List String} (known : ∀ name ∈ project, name ∈ entries.names) (distinct : project.Nodup)
    (filled : project ≠ []) {comparison : Comparison} {selection : List Nat}
    (selected : (matchedPairs comparison ((entries.select keys).columns, leftColumn)
      (Entries.columns ((entries.select keys).picked indices), rightColumn) rowCount rightCount).map Prod.fst =
        selection) :
    (ofEntries (entries ++ [(leftField, leftColumn)]) rowCount).join
      (ofEntries ((entries.select keys).picked indices ++ [(rightField, rightColumn)]) rightCount)
      keys (some ⟨comparison, leftField.name, rightField.name⟩) project =
      .ok (ofEntries ((entries.select project).picked selection) selection.length) := by
  subst counted
  have rightNames : ((entries.select keys).picked indices).names = keys := by
    rw [Entries.names_picked, Entries.names_select keysKnown]
  have rightFresh : rightField.name ∉ ((entries.select keys).picked indices).names := by rwa [rightNames]
  have rightSound := ((sound.select keysKnown keysDistinct).picked inside).append rightFresh rightSized
  have wider : ∀ name ∈ project, name ∈ Entries.names (entries ++ [(leftField, leftColumn)]) := fun name member =>
    Entries.mem_names_append (known name member) _
  have found : pairing (ofEntries (entries ++ [(leftField, leftColumn)]) rowCount)
      (ofEntries ((entries.select keys).picked indices ++ [(rightField, rightColumn)]) indices.length)
      keys (some ⟨comparison, leftField.name, rightField.name⟩) = .ok _ :=
    pairing_some (fun name member => Entries.mem_names_append (keysKnown name member) _)
      (fun name member => Entries.mem_names_append (by rwa [rightNames]) _)
      (Entries.lookup?_append_new leftNew) (Entries.lookup?_append_new rightFresh)
  have joined := join_eq (sound.append leftNew leftSized) rightSound found
    (fun name member => mem_names_pairedEntries (.inl (wider name member))) distinct filled
  rw [select_pairedEntries wider, Entries.select_append_of_mem keysKnown, Entries.select_append_of_mem known,
    Entries.select_keys keysKnown keysDistinct, ← List.length_map Prod.fst, selected] at joined
  exact joined

section Nearest
variable {entries : Entries} {rowCount : Nat} {keys : List String} {seed : UInt64} {proportion : Double}

def thresholdRows (columns : List Column) (count : Nat) (seed : UInt64) (proportion : Double) : List Nat :=
  (leaders columns count).map fun leader =>
    quantileRow (labelColumn seed count) proportion (stratum columns count leader)

theorem threshold_spec (columns : List Column) (seed : UInt64) (proportion : Double) {count leader : Nat}
    (inside : leader < count) :
    quantileRow (labelColumn seed count) proportion (stratum columns count leader) < count ∧
      labelRank seed (quantileRow (labelColumn seed count) proportion (stratum columns count leader)) =
        smallest (quota columns count proportion leader) ((stratum columns count leader).map (labelRank seed)) := by
  obtain ⟨member, place⟩ := quantileRow_spec proportion
    (List.ne_nil_of_mem (self_mem_stratum columns inside))
    (fun row member => isNull_labelColumn seed (mem_stratum.mp member).1)
    (fun row member => value_labelColumn seed (mem_stratum.mp member).1)
  exact ⟨(mem_stratum.mp member).1, place⟩

theorem thresholdRows_lt {columns : List Column} {count : Nat} :
    ∀ row ∈ thresholdRows columns count seed proportion, row < count := by
  intro row member
  obtain ⟨leader, leading, rfl⟩ := List.mem_map.mp member
  exact (threshold_spec columns seed proportion (leaders_lt leader leading)).1

theorem thresholdRows_inside {columns : List Column} {count : Nat} {seed : UInt64} {proportion : Double} :
    ∀ row ∈ thresholdRows columns count seed proportion, row < (labelColumn seed count).size := by
  rw [size_labelColumn]
  exact thresholdRows_lt

theorem inOrder_labels {left right : Column} {leftRow rightRow : Nat} {leftLabel rightLabel : Double}
    (leftValue : left.value leftRow = .float64 leftLabel) (rightValue : right.value rightRow = .float64 rightLabel) :
    inOrder (left, right) leftRow rightRow = decide (leftLabel.rank ≤ rightLabel.rank) := by
  simp only [inOrder, leftValue, rightValue, Value.isNull, Value.order, Double.order, Bool.not_false, Bool.true_and]
  rw [Bool.eq_iff_iff]
  simp only [bne_iff_ne, ne_eq, Int.compare_eq_gt, decide_eq_true_eq]
  omega

/-- A labeled row has one match if it is among the nearest of its stratum, and none otherwise. -/
theorem countP_matched_nearest (keysSound : entries.Sound rowCount) {row : Nat} (inside : row < rowCount) :
    (List.range (leaders entries.columns rowCount).length).countP (matched ⟨entries.columns, none⟩
      ⟨Entries.columns (entries.picked (leaders entries.columns rowCount)), none⟩
      (inOrder (labelColumn seed rowCount,
        (labelColumn seed rowCount).picked (thresholdRows entries.columns rowCount seed proportion))) row) =
      if isNearest entries.columns rowCount seed proportion row then 1 else 0 := by
  obtain ⟨leader, member, same, counted⟩ := exists_countP_leaders entries.columns inside fun leader =>
    decide (labelRank seed row ≤
      labelRank seed (quantileRow (labelColumn seed rowCount) proportion (stratum entries.columns rowCount leader)))
  have kept : isNearest entries.columns rowCount seed proportion row =
      decide (labelRank seed row ≤
        labelRank seed (quantileRow (labelColumn seed rowCount) proportion (stratum entries.columns rowCount leader))) := by
    rw [isNearest, (threshold_spec entries.columns seed proportion (leaders_lt leader member)).2, quota, quota,
      stratum_congr rowCount same]
  rw [kept, ← counted]
  refine countP_matched rfl fun index other listed => ?_
  have key := keyAt_picked keysSound leaders_lt listed
  have thresholdListed : (thresholdRows entries.columns rowCount seed proportion)[index]? =
      some (quantileRow (labelColumn seed rowCount) proportion (stratum entries.columns rowCount other)) := by
    rw [thresholdRows, List.getElem?_map, listed]
    rfl
  have otherInside := leaders_lt other (List.mem_of_getElem? listed)
  have threshold : ((labelColumn seed rowCount).picked (thresholdRows entries.columns rowCount seed proportion)).value
      index = _ := (Column.value_picked thresholdRows_inside thresholdListed).trans
        (value_labelColumn seed (threshold_spec entries.columns seed proportion otherInside).1)
  rw [inOrder_labels (value_labelColumn seed inside) threshold]
  simp only [JoinKey.at?, Option.any_some, key]
  rfl

theorem join_nearest (sound : entries.Sound rowCount) (keysKnown : ∀ name ∈ keys, name ∈ entries.names)
    (keysDistinct : keys.Nodup) {label threshold : String} (labelNew : label ∉ entries.names)
    (thresholdNew : threshold ∉ keys) {project : List String} (known : ∀ name ∈ project, name ∈ entries.names)
    (distinct : project.Nodup) (filled : project ≠ []) {columns : List Column}
    (keyed : columns = (entries.select keys).columns) :
    (ofEntries (entries ++ [(.required label .float64, labelColumn seed rowCount)]) rowCount).join
      (ofEntries ((entries.select keys).picked (leaders columns rowCount) ++
        [(.nullable threshold .float64,
          (labelColumn seed rowCount).picked (thresholdRows columns rowCount seed proportion))])
        (leaders columns rowCount).length)
      keys (some ⟨.lessEq, label, threshold⟩) project =
      .ok (ofEntries ((entries.select project).picked (nearestRows columns rowCount seed proportion))
        (nearestRows columns rowCount seed proportion).length) := by
  subst keyed
  have thresholdSized : ((labelColumn seed rowCount).picked
      (thresholdRows (entries.select keys).columns rowCount seed proportion)).size =
        (leaders (entries.select keys).columns rowCount).length := by
    rw [Column.size_picked thresholdRows_inside, thresholdRows, List.length_map]
  refine join_extended sound keysKnown keysDistinct (.required label .float64) labelNew
    (size_labelColumn seed rowCount) (.nullable threshold .float64) thresholdNew thresholdSized leaders_lt rfl
    known distinct filled ?_
  simp only [matchedPairs, joinPairs_eq, map_fst_nestedLoop]
  rw [nearestRows, ← flatMap_kept]
  refine List.flatMap_congr fun row member => ?_
  rw [countP_matched_nearest (sound.select keysKnown keysDistinct) (List.mem_range.mp member)]
end Nearest

section Drawn
variable {entries : Entries} {rowCount : Nat} {keys : List String} {seed : UInt64} {proportion : Double}

theorem same_ofNat {first second : Nat} (firstSmall : first < UInt64.size) (secondSmall : second < UInt64.size) :
    (Value.int64 (Int64.ofNat first)).same (.int64 (Int64.ofNat second)) = (first == second) := by
  simp only [Value.same]
  rw [Bool.eq_iff_iff, beq_iff_eq, beq_iff_eq, Int64.toInt_inj]
  constructor
  · intro same
    have words := congrArg (fun number : Int64 => number.toUInt64.toNat) same
    simp only [Int64.toUInt64_ofNat', UInt64.toNat_ofNat'] at words
    rwa [Nat.mod_eq_of_lt firstSmall, Nat.mod_eq_of_lt secondSmall] at words
  · rintro rfl
    rfl

theorem rankOf_le (columns : List Column) (row : Nat) : rankOf columns row ≤ row + 1 := by
  have most := List.countP_le_length (p := fun other => keyAt columns other == keyAt columns row)
    (l := List.range row)
  rw [List.length_range] at most
  exact Nat.succ_le_succ most

theorem drawnRows_snd_le {columns : List Column} {count : Nat} :
    ∀ draw ∈ drawnRows columns count proportion seed, draw.2 ≤ count := by
  intro draw listed
  obtain ⟨leader, leading, member⟩ := List.mem_flatMap.mp listed
  obtain ⟨rank, ranked, rfl⟩ := List.mem_map.mp member
  have most := (stratumDraws_bounds (leaders_lt leader leading) rank ranked).2
  have fewer := List.length_filter_le (fun other => keyAt columns other == keyAt columns leader) (List.range count)
  rw [List.length_range] at fewer
  exact Nat.le_trans most fewer

theorem sum_kept (keep : Nat → Bool) (weight : Nat → Nat) (rows : List Nat) :
    (rows.map fun row => if keep row then weight row else 0).sum = ((rows.filter keep).map weight).sum := by
  induction rows with
  | nil => rfl
  | cons row rest ih =>
    rw [List.map_cons, List.sum_cons, ih]
    by_cases kept : keep row = true
    · rw [if_pos kept, List.filter_cons_of_pos kept, List.map_cons, List.sum_cons]
    · rw [if_neg kept, List.filter_cons_of_neg kept, Nat.zero_add]

/-- The draws of a row's rank in its stratum, counted among all draws. -/
theorem countP_drawnRows {columns : List Column} {count row : Nat} (inside : row < count) :
    (drawnRows columns count proportion seed).countP (fun draw =>
      keyAt columns draw.1 == keyAt columns row && draw.2 == rankOf columns row) =
      timesDrawn columns count seed proportion row := by
  obtain ⟨leader, -, same, only⟩ := leaders_of_key columns inside
  have each : ∀ other, ((stratumDraws columns count seed proportion other).map fun rank => (other, rank)).countP (fun draw =>
        keyAt columns draw.1 == keyAt columns row && draw.2 == rankOf columns row) =
      if keyAt columns other == keyAt columns row then
        (stratumDraws columns count seed proportion other).count (rankOf columns row) else 0 := by
    intro other
    rw [List.countP_map]
    by_cases alike : keyAt columns other == keyAt columns row
    · rw [if_pos alike, List.count_eq_countP]
      refine List.countP_congr fun rank _ => ?_
      simp [alike]
    · rw [if_neg alike]
      refine List.countP_eq_zero.mpr fun rank _ => ?_
      simp [alike]
  -- Only the leader of the row's own stratum contributes to the sum.
  rw [drawnRows, List.countP_flatMap, Function.comp_def]
  simp only [each]
  rw [sum_kept, only, List.map_singleton, List.sum_singleton, timesDrawn_eq, stratumDraws_congr same]

/-- A ranked row has as many matches as its rank was drawn in its stratum. -/
theorem countP_matched_drawn (keysSound : entries.Sound rowCount) (small : rowCount < UInt64.size) {row : Nat}
    (inside : row < rowCount) {draws : List (Nat × Nat)}
    (drawn : draws = drawnRows entries.columns rowCount proportion seed) :
    (List.range draws.length).countP (matched ⟨entries.columns, some (rankColumn entries.columns rowCount)⟩
      ⟨Entries.columns (entries.picked (draws.map Prod.fst)), some (drawColumn draws)⟩ (fun _ _ => true) row) =
      timesDrawn entries.columns rowCount seed proportion row := by
  have rankValue := value_rankColumn entries.columns inside
  have keyed : JoinKey.at? ⟨entries.columns, some (rankColumn entries.columns rowCount)⟩ row =
      some ⟨(keyAt entries.columns row).cells ++ [.int64 (Int64.ofNat (rankOf entries.columns row))]⟩ := by
    simp [JoinKey.at?, rankValue, Value.isNull]
  have picked : ∀ other ∈ draws.map Prod.fst, other < rowCount := by
    rw [drawn]
    exact drawnRows_lt
  rw [← countP_drawnRows inside, ← drawn]
  refine countP_matched keyed fun index draw listed => ?_
  have taken : (draws.map Prod.fst)[index]? = some draw.1 := by
    rw [List.getElem?_map, listed]
    rfl
  have key := keyAt_picked keysSound picked taken
  have bounds := drawnRows_snd_le draw (drawn ▸ List.mem_of_getElem? listed)
  have drawSmall : draw.2 < UInt64.size := by omega
  have rankSmall : rankOf entries.columns row < UInt64.size := by
    have most := rankOf_le entries.columns row
    omega
  have matched : (JoinKey.at? ⟨Entries.columns (entries.picked (draws.map Prod.fst)), some (drawColumn draws)⟩ index) =
      some ⟨(keyAt entries.columns draw.1).cells ++ [.int64 (Int64.ofNat draw.2)]⟩ := by
    simp [JoinKey.at?, value_drawColumn listed, Value.isNull, key]
  rw [matched, Option.any_some, Bool.and_true]
  exact (sameCells_append _ _ _ _).trans (congrArg _ (same_ofNat drawSmall rankSmall))

theorem join_drawn (sound : entries.Sound rowCount) (small : rowCount < UInt64.size)
    (keysKnown : ∀ name ∈ keys, name ∈ entries.names)
    (keysDistinct : keys.Nodup) {rank draw : String} (rankNew : rank ∉ entries.names)
    (drawNew : draw ∉ keys) {project : List String} (known : ∀ name ∈ project, name ∈ entries.names)
    (distinct : project.Nodup) (filled : project ≠ []) {columns : List Column}
    (keyed : columns = (entries.select keys).columns) {draws : List (Nat × Nat)}
    (drawn : draws = drawnRows columns rowCount proportion seed) :
    (ofEntries (entries ++ [(.required rank .int64, rankColumn columns rowCount)]) rowCount).join
      (ofEntries ((entries.select keys).picked (draws.map Prod.fst) ++
        [(.required draw .int64, drawColumn draws)]) draws.length)
      keys (some ⟨.equal, rank, draw⟩) project =
      .ok (ofEntries ((entries.select project).picked (drawnSelection columns rowCount seed proportion))
        (drawnSelection columns rowCount seed proportion).length) := by
  subst keyed
  have picked : ∀ row ∈ draws.map Prod.fst, row < rowCount := by
    rw [drawn]
    exact drawnRows_lt
  refine join_extended sound keysKnown keysDistinct (.required rank .int64) rankNew
    (size_rankColumn _ rowCount) (.required draw .int64) drawNew (size_drawColumn draws) picked
    (List.length_map _) known distinct filled ?_
  simp only [matchedPairs, joinPairs_eq, map_fst_nestedLoop]
  rw [drawnSelection]
  refine List.flatMap_congr fun row member => ?_
  rw [countP_matched_drawn (sound.select keysKnown keysDistinct) small (List.mem_range.mp member) drawn]
end Drawn

end StratifiedSampling.Table
