import StratifiedSampling.Proofs.ColumnNames
import StratifiedSampling.Proofs.DerivedSamples
import StratifiedSampling.Proofs.SampleTables

/-! Runs that succeed on the catalog. Once every spec of a plan can be evaluated, the run
returns a report, and the catalog has grown by the last table. -/

namespace StratifiedSampling

namespace Sampler

theorem attempt_prepare {config : SamplerConfig} {request : SampleRequest} {catalog : Catalog} {valid : ValidRequest}
    {sizes : List GroupCount} {source : Table} (freshSeed : UInt64) (settings : config.validate = .ok ())
    (accepted : (Catalog.backend.attempt request.validate catalog).1 = .ok valid)
    (found : catalog.table? valid.source = some source)
    (counted : source.groupCounts valid.strata.columns = .ok sizes) :
    Catalog.backend.attempt (prepare config request freshSeed) catalog =
      (.ok ⟨valid, config.seed.getD freshSeed, sizes⟩, catalog) := by
  have unchanged := Catalog.attempt_of_peeks request.validate_peeks catalog
  have validated : Catalog.backend.attempt request.validate catalog = (.ok valid, catalog) := Prod.ext accepted unchanged
  have answered : Catalog.backend.attempt (Attempt.groupCounts valid.source valid.strata.columns) catalog =
      (.ok sizes, catalog) := by
    exact (Catalog.answer_groupCounts found _).trans (by rw [counted])
  unfold prepare
  rw [Backend.attempt_bind, Backend.attempt_settled, settings]
  dsimp only
  rw [Backend.attempt_bind, validated]
  dsimp only
  rw [Backend.attempt_bind, answered]
  rfl

/-- A run whose work ends well ends well, and leaves the output. -/
theorem sample_of_work {sampler : Sampler} {request : SampleRequest} {circumstances : Circumstances}
    {catalog worked : Catalog} {valid : ValidRequest} {sizes : List GroupCount} {source output : Table}
    {area : Staging} {rows : Nat} (settings : sampler.config.validate = .ok ())
    (accepted : (Catalog.backend.attempt request.validate catalog).1 = .ok valid)
    (found : catalog.table? valid.source = some source)
    (counted : source.groupCounts valid.strata.columns = .ok sizes)
    (plays : work Catalog.backend sampler.config ⟨valid, sampler.config.seed.getD circumstances.freshSeed, sizes⟩
      circumstances.token catalog = ((.ok rows, area), worked))
    (written : Written catalog valid.output output area worked) :
    sampler.sample Catalog.backend request circumstances catalog =
      (.ok (report ⟨valid, sampler.config.seed.getD circumstances.freshSeed, sizes⟩ rows circumstances.elapsed),
        { sampler with metrics := sampler.metrics.record circumstances.elapsed (some rows) },
        catalog.with_ [(valid.output, output)]) := by
  rw [sample_eq, attempt_run, attempt_prepare circumstances.freshSeed settings accepted found counted]
  dsimp only
  rw [attempt_carryOut, plays]
  dsimp only
  have closed := written.closed
  change (_, _, (Catalog.backend.run area.commit.close worked).2) = _
  rw [closed]
  rfl

/-- A run whose work fails ends with that failure. -/
theorem outcome_of_failed_work {sampler : Sampler} {request : SampleRequest} {circumstances : Circumstances}
    {catalog worked : Catalog} {valid : ValidRequest} {sizes : List GroupCount} {source : Table} {area : Staging}
    {error : Error} (settings : sampler.config.validate = .ok ())
    (accepted : (Catalog.backend.attempt request.validate catalog).1 = .ok valid)
    (found : catalog.table? valid.source = some source)
    (counted : source.groupCounts valid.strata.columns = .ok sizes)
    (plays : work Catalog.backend sampler.config ⟨valid, sampler.config.seed.getD circumstances.freshSeed, sizes⟩
      circumstances.token catalog = ((.error error, area), worked)) :
    (sampler.sample Catalog.backend request circumstances catalog).1 = .error error := by
  rw [sample_eq, attempt_run, attempt_prepare circumstances.freshSeed settings accepted found counted]
  dsimp only
  rw [attempt_carryOut, plays]
  rfl

end Sampler

/-- A plan of a valid request whose source is a table of entries. -/
structure Prepared (plan : SamplePlan) (entries : Entries) (rowCount : Nat) (names : String → RelationName)
    (catalog : Catalog) : Prop where
  sound : entries.Sound rowCount
  found : catalog.table? plan.request.source = some (.ofEntries entries rowCount)
  sourceColumns : plan.request.sourceColumns = entries.names
  counted : plan.strataSizes = Table.strataSizes (entries.select plan.keys).columns rowCount
  keysKnown : ∀ name ∈ plan.keys, name ∈ entries.names
  keysDistinct : plan.keys.Nodup
  outputsKnown : ∀ name ∈ plan.request.outputColumns, name ∈ entries.names
  outputsDistinct : plan.request.outputColumns.Nodup
  proper : Counts.isProportion plan.request.proportion = true
  absent : catalog.contains plan.request.output = false
  apart : ∀ suffix ∈ ["labeled", "thresholds", "ranked", "draws"], Apart catalog plan.request.output (names suffix)

/-- A plan whose output has columns, as joins want them. -/
structure Planned (plan : SamplePlan) (entries : Entries) (rowCount : Nat) (names : String → RelationName)
    (catalog : Catalog) : Prop extends Prepared plan entries rowCount names catalog where
  outputsFilled : plan.request.outputColumns ≠ []

section Plans
variable {plan : SamplePlan} {entries : Entries} {rowCount : Nat} {names : String → RelationName} {catalog : Catalog}

namespace Planned

def sampled (plan : SamplePlan) (entries : Entries) (rows : List Nat) : Table :=
  .ofEntries ((entries.select plan.request.outputColumns).picked rows) rows.length

def labeled (plan : SamplePlan) (entries : Entries) (rowCount : Nat) : Entries :=
  entries ++ [(.required (plan.fresh "__strata_label") .float64, Table.labelColumn plan.seed rowCount)]

/-- The keys of the source, each with the label at the quota of its stratum. -/
def thresholds (plan : SamplePlan) (entries : Entries) (rowCount : Nat) : Table :=
  let columns := (entries.select plan.keys).columns
  .ofEntries ((entries.select plan.keys).picked (Table.leaders columns rowCount) ++
    [(.nullable (plan.fresh "__strata_threshold") .float64, (Table.labelColumn plan.seed rowCount).picked
      (Table.thresholdRows columns rowCount plan.seed plan.request.proportion))]) (Table.leaders columns rowCount).length

def ranked (plan : SamplePlan) (entries : Entries) (rowCount : Nat) : Entries :=
  entries ++ [(.required (plan.fresh "__strata_rank") .int64,
    Table.rankColumn (entries.select plan.keys).columns rowCount)]

def drawnRows (plan : SamplePlan) (entries : Entries) (rowCount : Nat) : List (Nat × Nat) :=
  Table.drawnRows (entries.select plan.keys).columns rowCount plan.request.proportion plan.seed

/-- The keys of the source, each beside every draw of its stratum. -/
def draws (plan : SamplePlan) (entries : Entries) (rowCount : Nat) : Table :=
  .ofEntries ((entries.select plan.keys).picked ((drawnRows plan entries rowCount).map Prod.fst) ++
    [(.required (plan.fresh "__strata_draw") .int64, Table.drawColumn (drawnRows plan entries rowCount))])
    (drawnRows plan entries rowCount).length

end Planned

namespace Prepared

theorem fresh_not_mem (prepared : Prepared plan entries rowCount names catalog) (base : String) :
    plan.fresh base ∉ entries.names := by
  rw [← prepared.sourceColumns]
  exact freshColumn_not_mem base plan.request.sourceColumns

theorem fresh_not_key (prepared : Prepared plan entries rowCount names catalog) (base : String) :
    plan.fresh base ∉ plan.keys :=
  fun member => prepared.fresh_not_mem base (prepared.keysKnown _ member)

theorem labeled_eq (prepared : Prepared plan entries rowCount names catalog) :
    (Table.ofEntries entries rowCount).withRandomLabel (plan.fresh "__strata_label") plan.seed =
      .ok (.ofEntries (Planned.labeled plan entries rowCount) rowCount) :=
  Table.withRandomLabel_eq (prepared.fresh_not_mem _) plan.seed

theorem thresholds_eq (prepared : Prepared plan entries rowCount names catalog) :
    (Table.ofEntries (Planned.labeled plan entries rowCount) rowCount).groupQuantile plan.keys
      (plan.fresh "__strata_label") plan.request.proportion (plan.fresh "__strata_threshold") =
      .ok (Planned.thresholds plan entries rowCount) := by
  have labelNew := prepared.fresh_not_mem "__strata_label"
  have thresholdNew := prepared.fresh_not_key "__strata_threshold"
  have sound : (Planned.labeled plan entries rowCount).Sound rowCount :=
    prepared.sound.append labelNew (Table.size_labelColumn plan.seed rowCount)
  have found : (Planned.labeled plan entries rowCount).lookup? (plan.fresh "__strata_label") = _ :=
    Entries.lookup?_append_new labelNew
  have known : ∀ name ∈ plan.keys, name ∈ (Planned.labeled plan entries rowCount).names := fun name member =>
    Entries.mem_names_append (prepared.keysKnown name member) _
  have keys : (Planned.labeled plan entries rowCount).select plan.keys = entries.select plan.keys :=
    Entries.select_append_of_mem prepared.keysKnown _
  have computed := Table.groupQuantile_eq sound known prepared.keysDistinct prepared.proper found thresholdNew rfl
    (by rw [keys]; exact Table.thresholdRows_lt)
  rwa [keys] at computed

theorem ranked_eq (prepared : Prepared plan entries rowCount names catalog) :
    (Table.ofEntries entries rowCount).rowNumber plan.keys (plan.fresh "__strata_rank") =
      .ok (.ofEntries (Planned.ranked plan entries rowCount) rowCount) :=
  Table.rowNumber_eq prepared.keysKnown (prepared.fresh_not_mem _)

theorem draws_eq (prepared : Prepared plan entries rowCount names catalog) :
    (Table.ofEntries entries rowCount).groupDraws plan.keys plan.request.proportion (plan.fresh "__strata_draw")
      plan.seed = .ok (Planned.draws plan entries rowCount) :=
  Table.groupDraws_eq prepared.sound prepared.keysKnown prepared.keysDistinct prepared.proper
    (prepared.fresh_not_key _) plan.seed rfl

theorem derive_withoutReplacement (prepared : Prepared plan entries rowCount names catalog) :
    plan.derive (.ofEntries entries rowCount) .withoutReplacement =
      plan.selectLabeled (.ofEntries (Planned.labeled plan entries rowCount) rowCount) := by
  change ((Table.ofEntries entries rowCount).withRandomLabel _ plan.seed >>= plan.selectLabeled) = _
  rw [prepared.labeled_eq]
  rfl

theorem derive_withReplacement (prepared : Prepared plan entries rowCount names catalog) :
    plan.derive (.ofEntries entries rowCount) .withReplacement =
      ((Table.ofEntries (Planned.ranked plan entries rowCount) rowCount).join (Planned.draws plan entries rowCount)
        plan.keys (some ⟨.equal, plan.fresh "__strata_rank", plan.fresh "__strata_draw"⟩) plan.request.outputColumns >>=
        plan.checkDraws (Planned.draws plan entries rowCount).rowCount) := by
  change plan.resolveDraws _ = _
  unfold SamplePlan.resolveDraws
  dsimp only
  rw [prepared.ranked_eq, prepared.draws_eq]
  rfl

/-- A plan writes the sample that it derives. -/
theorem play_of_derived (prepared : Prepared plan entries rowCount names catalog) {strategy : SamplingStrategy}
    {sample : Table} (derived : plan.derive (.ofEntries entries rowCount) strategy = .ok sample) {start : Staging}
    (beginning : Ahead catalog names [] start) :
    ∃ area worked, Staged.play Catalog.backend (plan.execute strategy) start catalog =
        ((.ok sample.rowCount, area), worked) ∧ Written catalog plan.request.output sample area worked := by
  have mirrors := plan.execute_mirrors beginning prepared.found prepared.absent strategy
  rw [derived] at mirrors
  exact mirrors.writes prepared.apart

end Prepared

namespace Planned

theorem nearest_eq (planned : Planned plan entries rowCount names catalog) :
    (Table.ofEntries (labeled plan entries rowCount) rowCount).join (thresholds plan entries rowCount) plan.keys
      (some ⟨.lessEq, plan.fresh "__strata_label", plan.fresh "__strata_threshold"⟩) plan.request.outputColumns =
      .ok (sampled plan entries
        (Table.nearestRows (entries.select plan.keys).columns rowCount plan.seed plan.request.proportion)) :=
  Table.join_nearest planned.sound planned.keysKnown planned.keysDistinct (planned.fresh_not_mem _)
    (planned.fresh_not_key _) planned.outputsKnown planned.outputsDistinct planned.outputsFilled rfl

theorem play_withoutReplacement (planned : Planned plan entries rowCount names catalog)
    (keyed : plan.request.strata.isGlobal = false) (start : Staging)
    (named : Staging.nameOf start.stagingPrefix start.token = names) (empty : start.staged = [])
    (uncommitted : start.committed = false) :
    let rows := Table.nearestRows (entries.select plan.keys).columns rowCount plan.seed plan.request.proportion
    ∃ area worked, Staged.play Catalog.backend plan.withoutReplacement start catalog = ((.ok rows.length, area), worked) ∧
      Written catalog plan.request.output (sampled plan entries rows) area worked := by
  intro rows
  have derived : plan.derive (.ofEntries entries rowCount) .withoutReplacement = .ok (sampled plan entries rows) := by
    rw [planned.derive_withoutReplacement]
    unfold SamplePlan.selectLabeled
    simp only [keyed, Bool.false_eq_true, if_false]
    rw [planned.thresholds_eq]
    exact planned.nearest_eq
  exact planned.play_of_derived derived (.start named empty uncommitted)

theorem drawn_eq (planned : Planned plan entries rowCount names catalog) (small : rowCount < UInt64.size) :
    (Table.ofEntries (ranked plan entries rowCount) rowCount).join (draws plan entries rowCount) plan.keys
      (some ⟨.equal, plan.fresh "__strata_rank", plan.fresh "__strata_draw"⟩) plan.request.outputColumns =
      .ok (sampled plan entries
        (Table.drawnSelection (entries.select plan.keys).columns rowCount plan.seed plan.request.proportion)) :=
  Table.join_drawn planned.sound small planned.keysKnown planned.keysDistinct (planned.fresh_not_mem _)
    (planned.fresh_not_key _) planned.outputsKnown planned.outputsDistinct planned.outputsFilled rfl rfl

theorem expectedDraws_eq (planned : Planned plan entries rowCount names catalog) :
    plan.expectedDraws = (drawnRows plan entries rowCount).length := by
  rw [SamplePlan.expectedDraws, planned.counted, Table.totalBy_strataSizes, drawnRows, Table.length_drawnRows]

theorem play_withReplacement (planned : Planned plan entries rowCount names catalog) (small : rowCount < UInt64.size)
    (start : Staging) (named : Staging.nameOf start.stagingPrefix start.token = names) (empty : start.staged = [])
    (uncommitted : start.committed = false) :
    let rows := Table.drawnSelection (entries.select plan.keys).columns rowCount plan.seed plan.request.proportion
    ∃ area worked, Staged.play Catalog.backend plan.withReplacement start catalog = ((.ok rows.length, area), worked) ∧
      Written catalog plan.request.output (sampled plan entries rows) area worked := by
  intro rows
  -- Both counts are the expected draws, so that the check after the output passes.
  have drawnAll : (draws plan entries rowCount).rowCount = plan.expectedDraws := planned.expectedDraws_eq.symm
  have writtenAll : (sampled plan entries rows).rowCount = plan.expectedDraws := by
    rw [planned.expectedDraws_eq]
    exact Table.length_drawnSelection
  have derived : plan.derive (.ofEntries entries rowCount) .withReplacement = .ok (sampled plan entries rows) := by
    rw [planned.derive_withReplacement, planned.drawn_eq small]
    exact if_neg (not_or.mpr ⟨not_not.mpr writtenAll, not_not.mpr drawnAll⟩)
  exact planned.play_of_derived derived (.start named empty uncommitted)

end Planned

end Plans

end StratifiedSampling
