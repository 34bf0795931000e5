import Mathlib.Data.List.Basic
import Mathlib.Data.List.Flatten
import StratifiedSampling.Proofs.AcceptedSamples
import StratifiedSampling.Proofs.ProportionOrder

/-! Samples of one source at two proportions. Labels and draws depend on the seed, the place
of a row and its stratum, but not on the proportion, so that a larger count of rows takes
the rows of the smaller count and more. -/

namespace StratifiedSampling

namespace Table

section Selections
variable {columns : List Column} {count : Nat} {seed : UInt64} {first second : Double}

theorem isNearest_mono {row : Nat} (inside : row < count)
    (ordered : quota columns count first row ≤ quota columns count second row)
    (near : isNearest columns count seed first row = true) : isNearest columns count seed second row = true := by
  have low := (quota_bounds columns first inside).1
  have high := (quota_bounds columns second inside).2
  refine decide_eq_true (Int.le_trans (of_decide_eq_true near) (smallest_mono low ordered ?_))
  rwa [List.length_map]

theorem nearestRows_sublist (ordered : ∀ row < count, quota columns count first row ≤ quota columns count second row) :
    (nearestRows columns count seed first).Sublist (nearestRows columns count seed second) := by
  have kept : nearestRows columns count seed first =
      (nearestRows columns count seed second).filter (isNearest columns count seed first) := by
    rw [nearestRows, nearestRows, List.filter_filter]
    refine List.filter_congr fun row member => ?_
    have inside := List.mem_range.mp member
    rw [Bool.eq_iff_iff, Bool.and_eq_true]
    exact ⟨fun near => ⟨near, isNearest_mono inside (ordered row inside) near⟩, And.left⟩
  rw [kept]
  exact List.filter_sublist

/-- The draws of a smaller count are the first ones of a larger count. -/
theorem timesDrawn_mono {row : Nat} (ordered : Counts.drawCount (stratum columns count row).length first ≤
      Counts.drawCount (stratum columns count row).length second) :
    timesDrawn columns count seed first row ≤ timesDrawn columns count seed second row :=
  (List.range_sublist.mpr ordered).countP_le

theorem drawnSelection_sublist (ordered : ∀ row < count, Counts.drawCount (stratum columns count row).length first ≤
      Counts.drawCount (stratum columns count row).length second) :
    (drawnSelection columns count seed first).Sublist (drawnSelection columns count seed second) :=
  List.Sublist.flatMap_right _ fun row member => (List.replicate_sublist_replicate row).mpr
    (timesDrawn_mono (ordered row (List.mem_range.mp member)))

theorem prefix_smallestRows (ordered : Counts.drawCount count first ≤ Counts.drawCount count second) :
    smallestRows count seed first <+: smallestRows count seed second :=
  List.take_prefix_take_left ordered

end Selections

/-- What holds of the sizes of all groups holds of the stratum of every row. -/
theorem stratum_of_sizes {columns : List Column} {count : Nat} (property : Nat → Prop)
    (sizes : ∀ stratum ∈ strataSizes columns count, property stratum.count) :
    ∀ row < count, property (stratum columns count row).length := by
  intro row inside
  obtain ⟨leader, member, same⟩ := exists_leader columns inside
  rw [← stratum_congr count same]
  exact sizes _ (List.mem_map.mpr ⟨leader, member, rfl⟩)

end Table

/-- How many rows a proportion of a stratum comes to. -/
def selectedCount (strata : Strata) (withReplacement : Bool) (size : Nat) (proportion : Double) : Nat :=
  if withReplacement || strata.isGlobal then Counts.drawCount size proportion
  else Counts.nearestRank size proportion

theorem selectedCount_mono {first second : Double} (firstValid : Counts.isProportion first = true)
    (secondValid : Counts.isProportion second = true) (ordered : first.rank ≤ second.rank) (strata : Strata)
    (withReplacement : Bool) (size : Nat) :
    selectedCount strata withReplacement size first ≤ selectedCount strata withReplacement size second := by
  unfold selectedCount
  split
  · exact Counts.drawCount_mono firstValid secondValid ordered size
  · exact Counts.nearestRank_mono firstValid secondValid ordered size

/-- The first proportion comes to no more rows of any stratum than the second. -/
def SelectsWithin (strata : Strata) (withReplacement : Bool) (sizes : List GroupCount) (first second : Double) : Prop :=
  ∀ stratum ∈ sizes,
    selectedCount strata withReplacement stratum.count first ≤ selectedCount strata withReplacement stratum.count second

theorem Strata.columns_of_isGlobal {strata : Strata} (global : strata.isGlobal = true) : strata.columns = [] := by
  cases strata with
  | global => rfl
  | keys columns => cases global

section Selections
variable {strata : Strata} {withReplacement : Bool} {columns : List Column} {count : Nat} (seed : UInt64)
  {first second : Double}

/-- The global stratum is the whole source. -/
theorem prefix_sampledRows (global : strata.isGlobal = true) (without : withReplacement = false)
    (unkeyed : columns = []) (filled : count ≠ 0)
    (ordered : ∀ row < count,
      selectedCount strata withReplacement (Table.stratum columns count row).length first ≤
        selectedCount strata withReplacement (Table.stratum columns count row).length second) :
    sampledRows strata withReplacement columns count seed first <+:
      sampledRows strata withReplacement columns count seed second := by
  have whole := ordered 0 (Nat.pos_of_ne_zero filled)
  rw [unkeyed, Table.stratum_nil, List.length_range] at whole
  simp only [selectedCount, sampledRows, global, without, Bool.or_true, Bool.false_eq_true, if_true, if_false] at whole ⊢
  exact Table.prefix_smallestRows whole

theorem sampledRows_sublist (unkeyed : strata.isGlobal = true → columns = []) (filled : count ≠ 0)
    (ordered : ∀ row < count,
      selectedCount strata withReplacement (Table.stratum columns count row).length first ≤
        selectedCount strata withReplacement (Table.stratum columns count row).length second) :
    (sampledRows strata withReplacement columns count seed first).Sublist
      (sampledRows strata withReplacement columns count seed second) := by
  cases mode : withReplacement with
  | true =>
    simp only [selectedCount, mode, Bool.true_or, if_true] at ordered
    exact Table.drawnSelection_sublist ordered
  | false =>
    cases global : strata.isGlobal with
    | true => exact (prefix_sampledRows seed global rfl (unkeyed global) filled (mode ▸ ordered)).sublist
    | false =>
      simp only [selectedCount, sampledRows, mode, global, Bool.or_self, Bool.false_eq_true, if_false] at ordered ⊢
      exact Table.nearestRows_sublist ordered

end Selections

/-- Requests for samples of the same strata and columns, taken in the same way. -/
structure SampleRequest.Alike (first second : SampleRequest) : Prop where
  keys : first.keys = second.keys
  targets : first.targets = second.targets
  withReplacement : first.withReplacement = second.withReplacement

/-- Requests that are alike are resolved alike on a source that both of them name. -/
theorem SampleRequest.Accepted.alike {first second : SampleRequest} {firstCatalog secondCatalog : Catalog} {source : Table}
    {firstValid secondValid : ValidRequest} (firstAccepted : first.Accepted firstCatalog source firstValid)
    (secondAccepted : second.Accepted secondCatalog source secondValid) (alike : first.Alike second) :
    firstValid.strata = secondValid.strata ∧ firstValid.outputColumns = secondValid.outputColumns := by
  have settled := firstAccepted.settled
  have again := secondAccepted.settled
  have strata : firstValid.strata = secondValid.strata := by rw [settled.strata, again.strata, alike.keys]
  have targets : firstValid.targets = secondValid.targets := by
    rw [settled.targets, again.targets, strata, alike.targets]
  exact ⟨strata, by rw [settled.outputColumns, again.outputColumns, targets, strata]⟩

/-- The rows of an output are the selected rows of its source, in the columns that were asked for. -/
theorem Samples.rows_eq {source : Table} {valid : ValidRequest} {keys : List Column} {selection : List Nat}
    {output : Table} {report : SampleReport} (samples : Samples source valid keys selection output report) :
    ∃ projected, source.project valid.outputColumns = .ok projected ∧ output.rows = selection.map projected.rowAt := by
  obtain ⟨projected, made, gathered⟩ := bind_eq_ok samples.contents
  exact ⟨projected, made, Table.rows_gather gathered⟩

/-- The sizes of the strata are counted by the columns that the keys are resolved to. -/
theorem Admitted.counted {sampler : Sampler} {request : SampleRequest} {circumstances : Circumstances}
    {catalog : Catalog} {valid : ValidRequest} {source : Table}
    (admitted : Admitted sampler request circumstances catalog valid source) {keys : List Column}
    (resolved : source.resolveColumns valid.strata.columns = .ok keys) :
    source.groupCounts valid.strata.columns = .ok (Table.strataSizes keys source.rowCount) ∧
      (valid.strata.isGlobal = true → keys = []) := by
  obtain ⟨entries, rowCount, rfl, counted, prepared⟩ := admitted.prepared
  obtain ⟨-, rfl⟩ := Table.resolveColumns_eq_ok resolved
  refine ⟨counted, fun global => ?_⟩
  rw [Strata.columns_of_isGlobal global]
  rfl

section TwoRuns
variable {firstSampler secondSampler : Sampler} {firstRequest secondRequest : SampleRequest}
  {firstCircumstances secondCircumstances : Circumstances} {firstCatalog secondCatalog : Catalog}
  {firstValid secondValid : ValidRequest} {source : Table}

/-- Samples of one source that are taken alike and with one seed are nested if the first
proportion selects no more rows of any stratum than the second, as it does if it is not
larger. The first sample is a sublist of the second, and of the source as one stratum
without replacement it is the beginning. -/
theorem samples_are_nested
    (first : Feasible firstSampler firstRequest firstCircumstances firstCatalog firstValid source)
    (second : Feasible secondSampler secondRequest secondCircumstances secondCatalog secondValid source)
    (alike : firstRequest.Alike secondRequest)
    (seeds : Feasible.seedOf firstSampler firstCircumstances = Feasible.seedOf secondSampler secondCircumstances)
    (small : firstRequest.withReplacement = true → source.rowCount < UInt64.size) :
    ∃ sizes, source.groupCounts firstValid.strata.columns = .ok sizes ∧
      (firstRequest.proportion.rank ≤ secondRequest.proportion.rank →
        SelectsWithin firstValid.strata firstRequest.withReplacement sizes firstRequest.proportion
          secondRequest.proportion) ∧
      (SelectsWithin firstValid.strata firstRequest.withReplacement sizes firstRequest.proportion
          secondRequest.proportion →
        ∃ keys fewer more fewerRows moreRows firstReport secondReport firstCounted secondCounted,
          source.resolveColumns firstValid.strata.columns = .ok keys ∧
          firstSampler.sample Catalog.backend firstRequest firstCircumstances firstCatalog =
            (.ok firstReport, firstCounted, firstCatalog.with_ [(firstValid.output, fewer)]) ∧
          secondSampler.sample Catalog.backend secondRequest secondCircumstances secondCatalog =
            (.ok secondReport, secondCounted, secondCatalog.with_ [(secondValid.output, more)]) ∧
          Samples source firstValid keys fewerRows fewer firstReport ∧
          Samples source secondValid keys moreRows more secondReport ∧
          fewerRows.Sublist moreRows ∧ (∀ row, fewerRows.count row ≤ moreRows.count row) ∧
          fewer.rows.Sublist more.rows ∧
          (firstValid.strata.isGlobal = true → firstRequest.withReplacement = false →
            fewerRows <+: moreRows ∧ fewer.rows <+: more.rows)) := by
  obtain ⟨strata, outputs⟩ := first.resolved.alike second.resolved alike
  obtain ⟨keys, fewer, firstReport, firstCounted, resolved, firstRan, firstSamples⟩ :=
    first.admitted.samples small fun _ => first.filled
  obtain ⟨others, more, secondReport, secondCounted, again, secondRan, secondSamples⟩ :=
    second.admitted.samples (fun replacing => small (alike.withReplacement.trans replacing)) fun _ => second.filled
  rw [← strata, resolved] at again
  cases again
  obtain ⟨counted, unkeyed⟩ := first.admitted.counted resolved
  rw [← strata, ← seeds, ← alike.withReplacement] at secondSamples
  refine ⟨_, counted, fun ordered stratum _ => selectedCount_mono first.resolved.proportion second.resolved.proportion
    ordered _ _ stratum.count, fun counts => ?_⟩
  have ordered := Table.stratum_of_sizes (fun size =>
    selectedCount firstValid.strata firstRequest.withReplacement size firstRequest.proportion ≤
      selectedCount firstValid.strata firstRequest.withReplacement size secondRequest.proportion) counts
  have sublist := sampledRows_sublist (Feasible.seedOf firstSampler firstCircumstances) unkeyed first.resolved.rows ordered
  obtain ⟨projected, made, fewerRows⟩ := firstSamples.rows_eq
  obtain ⟨others, same, moreRows⟩ := secondSamples.rows_eq
  rw [← outputs, made] at same
  cases same
  refine ⟨keys, fewer, more, _, _, firstReport, secondReport, firstCounted, secondCounted, resolved, firstRan,
    secondRan, firstSamples, secondSamples, sublist, fun row => sublist.count_le row, ?_, fun global without => ?_⟩
  · rw [fewerRows, moreRows]
    exact sublist.map _
  · have beginning := prefix_sampledRows (Feasible.seedOf firstSampler firstCircumstances) global without
      (unkeyed global) first.resolved.rows ordered
    rw [fewerRows, moreRows]
    exact ⟨beginning, beginning.map _⟩

end TwoRuns

namespace ThreeSales

/-- As many sales as there are, instead of half of them. -/
def wholeRequest (withReplacement : Bool) : SampleRequest :=
  { request withReplacement with proportion := ⟨0x3FF0000000000000⟩ }

theorem feasible_whole (withReplacement : Bool) :
    Feasible (.start .standard) (wholeRequest withReplacement) circumstances catalog
      { valid withReplacement with proportion := ⟨0x3FF0000000000000⟩ } table where
  settings := by decide
  accepted := by cases withReplacement <;> decide +kernel
  found := rfl
  formed := ⟨rfl, by decide, by decide⟩
  filled := by decide
  fresh := by
    unfold FreshToken
    cases withReplacement <;> decide

theorem half_within_whole : ∃ fewer more firstReport secondReport firstCounted secondCounted,
    (Sampler.start .standard).sample Catalog.backend (request true) circumstances catalog =
      (.ok firstReport, firstCounted, catalog.with_ [(output, fewer)]) ∧
    (Sampler.start .standard).sample Catalog.backend (wholeRequest true) circumstances catalog =
      (.ok secondReport, secondCounted, catalog.with_ [(output, more)]) ∧
    fewer.rows.Sublist more.rows := by
  have small : (request true).withReplacement = true → table.rowCount < UInt64.size := fun _ => by decide
  obtain ⟨sizes, -, ordered, nested⟩ :=
    samples_are_nested (feasible true) (feasible_whole true) ⟨rfl, rfl, rfl⟩ rfl small
  have halfToWhole : (request true).proportion.rank ≤ (wholeRequest true).proportion.rank := by decide
  obtain ⟨keys, fewer, more, fewerRows, moreRows, firstReport, secondReport, firstCounted, secondCounted, -, firstRan,
    secondRan, -, -, -, -, sublist, -⟩ := nested (ordered halfToWhole)
  exact ⟨fewer, more, firstReport, secondReport, firstCounted, secondCounted, firstRan, secondRan, sublist⟩

end ThreeSales

end StratifiedSampling
