import StratifiedSampling.Proofs.AcceptedSamples

/-! Samples of one global stratum without replacement. They take the rows with the smallest
labels, as many as draws would be taken; where labels are equal the earlier row is taken. -/

namespace StratifiedSampling

theorem Counts.drawCount_le (size : Nat) (proportion : Double) : drawCount size proportion ≤ size := by
  unfold drawCount
  split
  · exact Nat.min_le_right _ _
  · split <;> omega

namespace Table

section Smallest
variable {count : Nat} {seed : UInt64} {proportion : Double}

/-- A row with a smaller label, or one with the same label that comes earlier. -/
def LabeledBefore (seed : UInt64) (first second : Nat) : Prop :=
  labelRank seed first < labelRank seed second ∨ labelRank seed first = labelRank seed second ∧ first < second

theorem smallestRows_eq (count : Nat) (seed : UInt64) (proportion : Double) :
    smallestRows count seed proportion =
      ((List.range count).mergeSort fun first second =>
        notAfter (labelRank seed first, first) (labelRank seed second, second)).take
          (Counts.drawCount count proportion) := by
  rw [smallestRows, sortedRows_eq fun row member => value_labelColumn seed (List.mem_range.mp member)]
  rfl

theorem length_smallestRows :
    (smallestRows count seed proportion).length = Counts.drawCount count proportion := by
  rw [smallestRows, List.length_take, (sortedRows_perm _ _).length_eq, List.length_range]
  exact Nat.min_eq_left (Counts.drawCount_le count proportion)

theorem nodup_smallestRows : (smallestRows count seed proportion).Nodup :=
  ((sortedRows_perm _ _).nodup_iff.mpr List.nodup_range).take

/-- Every row that is left out is after every row that is taken. -/
theorem smallestRows_before {row other : Nat} (taken : row ∈ smallestRows count seed proportion)
    (inside : other < count) (out : other ∉ smallestRows count seed proportion) : LabeledBefore seed row other := by
  have different : row ≠ other := fun same => out (same ▸ taken)
  rw [smallestRows_eq] at taken out
  have order := pairwise_notAfter (labelRank seed) (List.range count)
  have listed : other ∈ (List.range count).mergeSort fun first second =>
      notAfter (labelRank seed first, first) (labelRank seed second, second) :=
    List.mem_mergeSort.mpr (List.mem_range.mpr inside)
  -- The sorted rows are the ones taken followed by the ones left out.
  rw [← List.take_append_drop (Counts.drawCount count proportion) (List.mergeSort _ _)] at order listed
  have rest := (List.mem_append.mp listed).resolve_left out
  have before := (List.pairwise_append.mp order).2.2 row taken other rest
  rw [notAfter, decide_eq_true_eq] at before
  unfold LabeledBefore
  omega

end Smallest

end Table

/-- A run without keys and without replacement takes the rows with the smallest labels, as many
as the proportion of all rows comes to when it is rounded down. There need not be columns, and
the output is there even if it has no rows. -/
theorem sample_takes_smallest {sampler : Sampler} {request : SampleRequest} {circumstances : Circumstances}
    {catalog : Catalog} {valid : ValidRequest} {source : Table}
    (admitted : Admitted sampler request circumstances catalog valid source) (unkeyed : valid.strata.columns = [])
    (without : request.withReplacement = false) :
    ∃ selection output report counted,
      sampler.sample Catalog.backend request circumstances catalog =
        (.ok report, counted, catalog.with_ [(valid.output, output)]) ∧
      (catalog.with_ [(valid.output, output)]).table? valid.output = some output ∧
      Samples source valid [] selection output report ∧
      selection =
        ((List.range source.rowCount).mergeSort fun first second =>
          Table.notAfter (Table.labelRank (Feasible.seedOf sampler circumstances) first, first)
            (Table.labelRank (Feasible.seedOf sampler circumstances) second, second)).take
          (Counts.drawCount source.rowCount request.proportion) ∧
      output.rowCount = Counts.drawCount source.rowCount request.proportion ∧
      selection.Nodup ∧
      (∀ row ∈ selection, row < source.rowCount ∧ ∀ other < source.rowCount, other ∉ selection →
        Table.LabeledBefore (Feasible.seedOf sampler circumstances) row other) ∧
      report.strata = 1 ∧ report.rowsRead = source.rowCount := by
  obtain ⟨-, -, -, -, -, strata, -⟩ := SampleRequest.resolve_eq_ok admitted.resolved.resolved
  have global : valid.strata.isGlobal = true := by
    rw [strata] at unkeyed ⊢
    exact Strata.isGlobal_resolve.mpr unkeyed
  have keeping : request.withReplacement ≠ true := by simp [without]
  obtain ⟨keys, output, report, counted, resolved, ran, samples⟩ :=
    admitted.samples (fun replacing => absurd replacing keeping) fun replacing => absurd replacing keeping
  rw [unkeyed] at resolved
  obtain rfl : keys = [] := (Except.ok.inj resolved).symm
  simp only [sampledRows, without, global, Bool.false_eq_true, if_true, if_false] at samples
  have strataCount := samples.strata
  rw [← Table.length_leaders, Table.leaders_nil admitted.resolved.rows] at strataCount
  refine ⟨_, output, report, counted, ran, Catalog.table?_added admitted.resolved.absent output, samples,
    Table.smallestRows_eq _ _ _, ?_, Table.nodup_smallestRows, fun row taken => ?_, strataCount, samples.rowsRead⟩
  · rw [samples.selected, Table.length_smallestRows]
  · exact ⟨Table.smallestRows_lt row taken, fun other inside out => Table.smallestRows_before taken inside out⟩

namespace BlankRows

theorem takes_smallest : ∃ sample report counted,
    (Sampler.start .standard).sample Catalog.backend (request false) ThreeSales.circumstances catalog =
      (.ok report, counted, catalog.with_ [(ThreeSales.output, sample)]) ∧
    sample.rowCount = 1 ∧ report.strata = 1 ∧ report.rowsRead = 2 := by
  have admitted : Admitted (.start .standard) (request false) ThreeSales.circumstances catalog (valid false) table :=
    ⟨by decide, accepted false, rfl, ⟨rfl, by decide, by decide⟩, fresh false⟩
  obtain ⟨selection, sample, report, counted, ran, -, -, -, rows, -, -, strata, read⟩ :=
    sample_takes_smallest admitted rfl rfl
  exact ⟨sample, report, counted, ran, rows.trans (by decide +kernel), strata, read⟩

end BlankRows

end StratifiedSampling
