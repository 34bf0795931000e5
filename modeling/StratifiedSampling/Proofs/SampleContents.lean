import StratifiedSampling.Proofs.PipelineRuns

/-! What is in a sample. On a well-formed source every accepted request succeeds. Without
replacement the rows up to the nearest-rank label of their stratum are kept, with
replacement every draw is resolved to one row of its stratum. -/

namespace StratifiedSampling

/-- A run that can succeed: its settings and its request are valid, its source is well
formed and has columns, and its token is fresh. -/
structure Feasible (sampler : Sampler) (request : SampleRequest) (circumstances : Circumstances) (catalog : Catalog)
    (valid : ValidRequest) (source : Table) : Prop where
  settings : sampler.config.validate = .ok ()
  accepted : (Catalog.backend.attempt request.validate catalog).1 = .ok valid
  found : catalog.table? valid.source = some source
  formed : source.WellFormed
  filled : source.columns ≠ []
  fresh : FreshToken sampler.config.stagingPrefix circumstances.token request.output catalog

/-- A run whose settings, request and token are in order, on a well-formed source that may
even be without columns. -/
structure Admitted (sampler : Sampler) (request : SampleRequest) (circumstances : Circumstances) (catalog : Catalog)
    (valid : ValidRequest) (source : Table) : Prop where
  settings : sampler.config.validate = .ok ()
  accepted : (Catalog.backend.attempt request.validate catalog).1 = .ok valid
  found : catalog.table? valid.source = some source
  formed : source.WellFormed
  fresh : FreshToken sampler.config.stagingPrefix circumstances.token request.output catalog

/-- An output with some rows of a source in the columns that a request asks for, and a report of it. -/
structure Samples (source : Table) (valid : ValidRequest) (keys : List Column) (selection : List Nat) (output : Table)
    (report : SampleReport) : Prop where
  contents : (source.project valid.outputColumns >>= fun projected => projected.gather selection) = .ok output
  rowsWritten : report.rowsWritten = output.rowCount
  selected : output.rowCount = selection.length
  rowsRead : report.rowsRead = source.rowCount
  strata : report.strata = ((List.range source.rowCount).map (Table.keyAt keys)).eraseDups.length
  named : report.output = valid.output

namespace Feasible

def seedOf (sampler : Sampler) (circumstances : Circumstances) : UInt64 :=
  sampler.config.seed.getD circumstances.freshSeed

def plan (sampler : Sampler) (circumstances : Circumstances) (valid : ValidRequest) (entries : Entries)
    (rowCount : Nat) : SamplePlan :=
  ⟨valid, seedOf sampler circumstances, Table.strataSizes (entries.select valid.strata.columns).columns rowCount⟩

end Feasible

section Runs
variable {sampler : Sampler} {request : SampleRequest} {circumstances : Circumstances} {catalog : Catalog}
  {valid : ValidRequest} {source : Table}

namespace Admitted

theorem resolved (admitted : Admitted sampler request circumstances catalog valid source) :
    request.Accepted catalog source valid := by
  obtain ⟨table, accepted⟩ := SampleRequest.accepted_of_validate admitted.accepted
  have same : source = table := Option.some.inj (admitted.found.symm.trans accepted.found)
  exact same ▸ accepted

theorem prepared (admitted : Admitted sampler request circumstances catalog valid source) :
    ∃ (entries : Entries) (rowCount : Nat), source = .ofEntries entries rowCount ∧
      source.groupCounts valid.strata.columns =
        .ok (Table.strataSizes (entries.select valid.strata.columns).columns rowCount) ∧
      Prepared (Feasible.plan sampler circumstances valid entries rowCount) entries rowCount
        (Staging.nameOf (Text.trim sampler.config.stagingPrefix) circumstances.token) catalog := by
  have accepted := admitted.resolved
  obtain ⟨entries, sound, same⟩ := admitted.formed.entries
  have names : source.schema.names = entries.names := by
    rw [same, Table.names_ofEntries]
  have keysKnown : ∀ name ∈ valid.strata.columns, name ∈ entries.names := names ▸ accepted.keys_known
  refine ⟨entries, source.rowCount, same, ?_, ?_⟩
  · rw [same]
    exact Table.groupCounts_eq keysKnown (.inl accepted.rows)
  · exact {
      sound
      found := admitted.found.trans (congrArg some same)
      sourceColumns := accepted.sourceColumns.trans names
      counted := rfl
      keysKnown
      keysDistinct := accepted.keys_nodup
      outputsKnown := names ▸ accepted.outputs_known
      outputsDistinct := accepted.outputs_nodup admitted.formed.distinct
      proper := by rw [Feasible.plan, accepted.settled.proportion]; exact accepted.proportion
      absent := accepted.absent
      apart := admitted.fresh.apart (RelationName.text_of_ofString? accepted.output) }

theorem outputs_filled (admitted : Admitted sampler request circumstances catalog valid source)
    (filled : source.columns ≠ []) : valid.outputColumns ≠ [] := by
  refine admitted.resolved.outputs_ne_nil ?_
  rw [← admitted.formed.named]
  exact fun none => filled (List.map_eq_nil_iff.mp none)

/-- A run whose work writes rows of its source reports them, and leaves them in its output. -/
theorem samples_of_play (admitted : Admitted sampler request circumstances catalog valid source) {entries : Entries}
    {rowCount : Nat} (same : source = .ofEntries entries rowCount)
    (counted : source.groupCounts valid.strata.columns =
      .ok (Table.strataSizes (entries.select valid.strata.columns).columns rowCount))
    (prepared : Prepared (Feasible.plan sampler circumstances valid entries rowCount) entries rowCount
      (Staging.nameOf (Text.trim sampler.config.stagingPrefix) circumstances.token) catalog)
    {rows : List Nat} (inside : ∀ row ∈ rows, row < rowCount) {area : Staging} {worked : Catalog}
    (plays : Staged.play Catalog.backend
      ((Feasible.plan sampler circumstances valid entries rowCount).execute (.ofRequest request.withReplacement))
      (.start sampler.config.stagingPrefix circumstances.token) catalog = ((.ok rows.length, area), worked))
    (written : Written catalog valid.output
      (Planned.sampled (Feasible.plan sampler circumstances valid entries rowCount) entries rows) area worked) :
    ∃ output report counted, sampler.sample Catalog.backend request circumstances catalog =
        (.ok report, counted, catalog.with_ [(valid.output, output)]) ∧
      Samples source valid (entries.select valid.strata.columns).columns rows output report := by
  rw [← admitted.resolved.settled.withReplacement] at plays
  refine ⟨_, _, _, Sampler.sample_of_work admitted.settings admitted.accepted admitted.found counted plays written, ?_⟩
  have projected : (Table.ofEntries entries rowCount).project valid.outputColumns = .ok _ :=
    Table.project_eq prepared.sound prepared.outputsKnown prepared.outputsDistinct
  have gathered := Table.gather_eq (prepared.sound.select prepared.outputsKnown prepared.outputsDistinct) inside
  subst same
  exact {
    contents := by
      rw [projected]
      exact gathered
    rowsWritten := rfl
    selected := rfl
    rowsRead := Table.total_strataSizes _ _
    strata := by
      rw [← Table.length_leaders]
      exact List.length_map _
    named := rfl }

end Admitted

namespace Feasible

theorem admitted (feasible : Feasible sampler request circumstances catalog valid source) :
    Admitted sampler request circumstances catalog valid source :=
  ⟨feasible.settings, feasible.accepted, feasible.found, feasible.formed, feasible.fresh⟩

theorem resolved (feasible : Feasible sampler request circumstances catalog valid source) :
    request.Accepted catalog source valid :=
  feasible.admitted.resolved

theorem planned (feasible : Feasible sampler request circumstances catalog valid source) :
    ∃ (entries : Entries) (rowCount : Nat), source = .ofEntries entries rowCount ∧
      source.groupCounts valid.strata.columns =
        .ok (Table.strataSizes (entries.select valid.strata.columns).columns rowCount) ∧
      Planned (plan sampler circumstances valid entries rowCount) entries rowCount
        (Staging.nameOf (Text.trim sampler.config.stagingPrefix) circumstances.token) catalog := by
  obtain ⟨entries, rowCount, same, counted, prepared⟩ := feasible.admitted.prepared
  exact ⟨entries, rowCount, same, counted, prepared, feasible.admitted.outputs_filled feasible.filled⟩

theorem samples_of_play (feasible : Feasible sampler request circumstances catalog valid source) {entries : Entries}
    {rowCount : Nat} (same : source = .ofEntries entries rowCount)
    (counted : source.groupCounts valid.strata.columns =
      .ok (Table.strataSizes (entries.select valid.strata.columns).columns rowCount))
    (planned : Planned (plan sampler circumstances valid entries rowCount) entries rowCount
      (Staging.nameOf (Text.trim sampler.config.stagingPrefix) circumstances.token) catalog)
    {rows : List Nat} (inside : ∀ row ∈ rows, row < rowCount) {area : Staging} {worked : Catalog}
    (plays : Staged.play Catalog.backend
      ((plan sampler circumstances valid entries rowCount).execute (.ofRequest request.withReplacement))
      (.start sampler.config.stagingPrefix circumstances.token) catalog = ((.ok rows.length, area), worked))
    (written : Written catalog valid.output
      (Planned.sampled (plan sampler circumstances valid entries rowCount) entries rows) area worked) :
    ∃ output report counted, sampler.sample Catalog.backend request circumstances catalog =
        (.ok report, counted, catalog.with_ [(valid.output, output)]) ∧
      Samples source valid (entries.select valid.strata.columns).columns rows output report :=
  feasible.admitted.samples_of_play same counted planned.toPrepared inside plays written

end Feasible

end Runs

/-- A keyed run without replacement keeps, in their order, the rows whose label is up to the
nearest-rank label of their stratum. Of every stratum it keeps at least the nearest rank,
and no more if the labels of the stratum differ. -/
theorem sample_keeps_nearest {sampler : Sampler} {request : SampleRequest} {circumstances : Circumstances}
    {catalog : Catalog} {valid : ValidRequest} {source : Table}
    (feasible : Feasible sampler request circumstances catalog valid source) (keyed : valid.strata.columns ≠ [])
    (without : request.withReplacement = false) :
    ∃ keys selection output report counted,
      source.resolveColumns valid.strata.columns = .ok keys ∧
      sampler.sample Catalog.backend request circumstances catalog =
        (.ok report, counted, catalog.with_ [(valid.output, output)]) ∧
      Samples source valid keys selection output report ∧
      selection.Pairwise (· < ·) ∧
      (∀ row, row ∈ selection ↔ row < source.rowCount ∧
        Table.labelRank (Feasible.seedOf sampler circumstances) row ≤
          smallest (Table.quota keys source.rowCount request.proportion row)
            ((Table.stratum keys source.rowCount row).map (Table.labelRank (Feasible.seedOf sampler circumstances)))) ∧
      ∀ row < source.rowCount,
        1 ≤ Table.quota keys source.rowCount request.proportion row ∧
        Table.quota keys source.rowCount request.proportion row ≤ Table.contribution keys selection row ∧
        (((Table.stratum keys source.rowCount row).map
            (Table.labelRank (Feasible.seedOf sampler circumstances))).Nodup →
          Table.contribution keys selection row = Table.quota keys source.rowCount request.proportion row) := by
  obtain ⟨-, -, -, proportion, -⟩ := SampleRequest.resolve_eq_ok feasible.resolved.resolved
  obtain ⟨entries, rowCount, same, counted, planned⟩ := feasible.planned
  have notGlobal : valid.strata.isGlobal = false := by
    cases strata : valid.strata with
    | global => exact absurd (congrArg Strata.columns strata) keyed
    | keys columns => rfl
  obtain ⟨area, worked, played, written⟩ := planned.play_withoutReplacement notGlobal
    (.start sampler.config.stagingPrefix circumstances.token) rfl rfl rfl
  obtain ⟨output, report, after, ran, samples⟩ := feasible.samples_of_play same counted planned
    (fun row member => (Table.mem_nearestRows.mp member).1) (by rw [without]; exact played) written
  subst same
  refine ⟨_, _, output, report, after, Table.resolveColumns_eq planned.keysKnown, ran, samples,
    Table.nearestRows_ascending, fun row => proportion ▸ Table.mem_nearestRows, fun row inside => ?_⟩
  rw [← proportion]
  exact ⟨(Table.quota_bounds _ _ inside).1, Table.quota_le_contribution inside, Table.contribution_eq_quota inside⟩

namespace ThreeSales

def valid (withReplacement : Bool) : ValidRequest :=
  ⟨name, output, ⟨0x3FE0000000000000⟩, .keys ["region"], ["id"], ["id", "region"], ["region", "id"], withReplacement⟩

theorem feasible (withReplacement : Bool) :
    Feasible (.start .standard) (request withReplacement) circumstances catalog (valid withReplacement) table where
  settings := by decide
  accepted := by cases withReplacement <;> decide +kernel
  found := rfl
  formed := ⟨rfl, by decide, by decide⟩
  filled := by decide
  fresh := by
    unfold FreshToken
    cases withReplacement <;> decide

theorem keeps_nearest : ∃ sample report counted,
    (Sampler.start .standard).sample Catalog.backend (request false) circumstances catalog =
      (.ok report, counted, catalog.with_ [(output, sample)]) ∧
    report.rowsWritten = sample.rowCount ∧ report.rowsRead = 3 := by
  obtain ⟨keys, selection, sample, report, counted, -, ran, samples, -⟩ :=
    sample_keeps_nearest (feasible false) (by decide) rfl
  exact ⟨sample, report, counted, ran, samples.rowsWritten, samples.rowsRead⟩

end ThreeSales

/-- A run with replacement resolves each of its draws to one row of the stratum that the
draw is of: a row is in the output as often as its rank in its stratum is drawn. Ranks and
draws are whole numbers of 64 bits, so that a table may not have more rows than they count. -/
theorem sample_resolves_draws {sampler : Sampler} {request : SampleRequest} {circumstances : Circumstances}
    {catalog : Catalog} {valid : ValidRequest} {source : Table}
    (feasible : Feasible sampler request circumstances catalog valid source) (small : source.rowCount < UInt64.size)
    (replacing : request.withReplacement = true) :
    ∃ keys sizes draws selection output report counted,
      source.resolveColumns valid.strata.columns = .ok keys ∧
      source.groupCounts valid.strata.columns = .ok sizes ∧
      source.groupDraws valid.strata.columns request.proportion (freshColumn "__strata_draw" valid.sourceColumns)
        (Feasible.seedOf sampler circumstances) = .ok draws ∧
      sampler.sample Catalog.backend request circumstances catalog =
        (.ok report, counted, catalog.with_ [(valid.output, output)]) ∧
      Samples source valid keys selection output report ∧
      selection.Pairwise (· ≤ ·) ∧ (∀ row ∈ selection, row < source.rowCount) ∧
      (∀ row < source.rowCount,
        selection.count row =
          Table.timesDrawn keys source.rowCount (Feasible.seedOf sampler circumstances) request.proportion row ∧
        Table.contribution keys selection row =
          Counts.drawCount (Table.stratum keys source.rowCount row).length request.proportion ∧
        ∀ draw ∈ Table.stratumDraws keys source.rowCount (Feasible.seedOf sampler circumstances) request.proportion row,
          ∃! other, other ∈ Table.stratum keys source.rowCount row ∧ Table.rankOf keys other = draw) ∧
      report.rowsWritten = draws.rowCount ∧
      report.rowsWritten = GroupCount.totalBy (fun stratum => Counts.drawCount stratum.count request.proportion) sizes := by
  obtain ⟨-, -, -, proportion, -⟩ := SampleRequest.resolve_eq_ok feasible.resolved.resolved
  obtain ⟨entries, rowCount, same, sized, planned⟩ := feasible.planned
  obtain ⟨area, worked, played, written⟩ := planned.play_withReplacement (by rwa [same] at small)
    (.start sampler.config.stagingPrefix circumstances.token) rfl rfl rfl
  obtain ⟨output, report, after, ran, samples⟩ := feasible.samples_of_play same sized planned
    (fun row member => Table.mem_drawnSelection member) (by rw [replacing]; exact played) written
  have drawn : source.groupDraws valid.strata.columns valid.proportion _ (Feasible.seedOf sampler circumstances) = .ok _ :=
    same ▸ Table.groupDraws_eq planned.sound planned.keysKnown planned.keysDistinct planned.proper
      (planned.fresh_not_key "__strata_draw") _ rfl
  have total : report.rowsWritten = (Feasible.plan sampler circumstances valid entries rowCount).expectedDraws := by
    rw [samples.rowsWritten, samples.selected, planned.expectedDraws_eq]
    exact Table.length_drawnSelection
  subst same
  rw [← proportion]
  refine ⟨_, _, _, _, output, report, after, Table.resolveColumns_eq planned.keysKnown, sized, drawn, ran, samples,
    Table.drawnSelection_ascending, fun row => Table.mem_drawnSelection, fun row inside => ?_, ?_, total⟩
  · exact ⟨Table.count_drawnSelection inside, Table.contribution_drawnSelection inside,
      fun draw listed => Table.exists_row_of_draw inside listed⟩
  · rw [total, planned.expectedDraws_eq]
    rfl

theorem ThreeSales.resolves_draws : ∃ draws sample report counted,
    table.groupDraws ["region"] ⟨0x3FE0000000000000⟩ "__strata_draw" 7 = .ok draws ∧
    (Sampler.start .standard).sample Catalog.backend (request true) circumstances catalog =
      (.ok report, counted, catalog.with_ [(output, sample)]) ∧
    report.rowsWritten = sample.rowCount ∧ sample.rowCount = draws.rowCount := by
  obtain ⟨keys, sizes, draws, selection, sample, report, counted, -, -, drawn, ran, samples, -, -, -, written, -⟩ :=
    sample_resolves_draws (feasible true) (by decide) rfl
  exact ⟨draws, sample, report, counted, drawn, ran, samples.rowsWritten, samples.rowsWritten.symm.trans written⟩

end StratifiedSampling
