import StratifiedSampling.Proofs.AcceptedSamples
import StratifiedSampling.Proofs.DerivedSamples
import StratifiedSampling.Proofs.SessionCalls

/-! Samples made again. A report names the seed of its run, and the seed, the request and the
table of the source settle the sample, whatever else has happened since. -/

namespace StratifiedSampling

/-- All that a sample is made from: settings that are valid, a request that is accepted on a
source, a seed, and a plan that derives the sample. -/
structure Derives (config : SamplerConfig) (freshSeed : UInt64) (request : SampleRequest) (catalog : Catalog)
    (source : Table) (plan : SamplePlan) (sample : Table) : Prop where
  settings : config.validate = .ok ()
  accepted : request.Accepted catalog source plan.request
  seed : plan.seed = config.seed.getD freshSeed
  counted : source.groupCounts plan.request.strata.columns = .ok plan.strataSizes
  derived : plan.derive source (.ofRequest plan.request.withReplacement) = .ok sample

namespace Sampler

/-- Work that ends well has derived a sample of its source, and leaves it as its output. -/
theorem carryOut_derives {config : SamplerConfig} {plan : SamplePlan} {token : Token} {catalog after : Catalog}
    {source : Table} {rows : Nat} (found : catalog.table? plan.request.source = some source)
    (absent : catalog.contains plan.request.output = false)
    (ran : Catalog.backend.attempt (carryOut config plan token) catalog = (.ok rows, after)) :
    ∃ sample, plan.derive source (.ofRequest plan.request.withReplacement) = .ok sample ∧ rows = sample.rowCount ∧
      after = catalog.with_ [(plan.request.output, sample)] := by
  have mirrors := plan.execute_mirrors (beginning config token catalog) found absent
    (.ofRequest plan.request.withReplacement)
  rw [attempt_carryOut, work] at ran
  rcases played : Staged.play Catalog.backend (plan.execute (.ofRequest plan.request.withReplacement))
    (.start config.stagingPrefix token) catalog with ⟨⟨outcome, area⟩, worked⟩
  rw [played] at ran
  obtain ⟨rfl, closed⟩ := Prod.mk.inj ran
  obtain ⟨sample, derived, counted, written⟩ := mirrors.written played
  exact ⟨sample, derived, counted, closed.symm.trans written.closed⟩

theorem run_derives {config : SamplerConfig} {request : SampleRequest} {circumstances : Circumstances}
    {catalog after : Catalog} {report : SampleReport}
    (ran : Catalog.backend.attempt (run config request circumstances) catalog = (.ok report, after)) :
    ∃ source plan sample, Derives config circumstances.freshSeed request catalog source plan sample ∧
      report = Sampler.report plan sample.rowCount circumstances.elapsed ∧
      after = catalog.with_ [(plan.request.output, sample)] := by
  have looked := Catalog.attempt_of_peeks (prepare_peeks config request circumstances.freshSeed) catalog
  rw [attempt_run] at ran
  rcases prepared : Catalog.backend.attempt (prepare config request circumstances.freshSeed) catalog with
    ⟨reached, unchanged⟩
  rw [prepared] at looked ran
  obtain rfl : unchanged = catalog := looked
  cases reached with
  | error error => cases ran
  | ok plan =>
    obtain ⟨settings, seed, validated, valid, counted⟩ := prepare_eq_ok prepared
    have looked := Catalog.attempt_of_peeks request.validate_peeks unchanged
    rw [valid] at looked
    obtain rfl : validated = unchanged := looked
    obtain ⟨source, accepted⟩ := SampleRequest.accepted_of_validate (by rw [valid])
    rw [Catalog.answer_groupCounts accepted.found] at counted
    dsimp only at ran
    rcases carried : Catalog.backend.attempt (carryOut config plan circumstances.token) validated with ⟨outcome, final⟩
    rw [carried] at ran
    cases outcome with
    | error error => cases ran
    | ok rows =>
      cases ran
      obtain ⟨sample, derived, rfl, rfl⟩ := carryOut_derives accepted.found accepted.absent carried
      exact ⟨source, plan, sample, ⟨settings, accepted, seed, (Prod.mk.inj counted).1, derived⟩, rfl, rfl⟩

theorem sample_derives {sampler counted : Sampler} {request : SampleRequest} {circumstances : Circumstances}
    {catalog after : Catalog} {report : SampleReport}
    (sampled : sampler.sample Catalog.backend request circumstances catalog = (.ok report, counted, after)) :
    ∃ source plan sample, Derives sampler.config circumstances.freshSeed request catalog source plan sample ∧
      report = Sampler.report plan sample.rowCount circumstances.elapsed ∧
      after.table? plan.request.source = some source ∧ after.table? plan.request.output = some sample := by
  rw [sample_eq] at sampled
  rcases attempted : Catalog.backend.attempt (run sampler.config request circumstances) catalog with ⟨outcome, final⟩
  rw [attempted] at sampled
  cases sampled
  obtain ⟨source, plan, sample, derives, same, grown⟩ := run_derives attempted
  refine ⟨source, plan, sample, derives, same, ?_, ?_⟩
  · rw [grown]
    exact Catalog.table?_with derives.accepted.found
  · rw [grown]
    exact Catalog.table?_added derives.accepted.absent sample

end Sampler

section Derivations
variable {config : SamplerConfig} {freshSeed : UInt64} {request : SampleRequest} {catalog : Catalog} {source : Table}
  {plan : SamplePlan} {sample : Table}

/-- What can be derived is sampled under every fresh token. -/
theorem Derives.run {circumstances : Circumstances}
    (derives : Derives config circumstances.freshSeed request catalog source plan sample)
    (fresh : FreshToken config.stagingPrefix circumstances.token request.output catalog) (metrics : SamplingMetrics) :
    (Sampler.mk config metrics).sample Catalog.backend request circumstances catalog =
      (.ok (Sampler.report plan sample.rowCount circumstances.elapsed),
        ⟨config, metrics.record circumstances.elapsed (some sample.rowCount)⟩,
        catalog.with_ [(plan.request.output, sample)]) := by
  obtain ⟨settings, accepted, seed, counted, derived⟩ := derives
  have apart := fresh.apart (RelationName.text_of_ofString? accepted.output)
  have beginning := Sampler.beginning config circumstances.token catalog
  have mirrors := plan.execute_mirrors beginning accepted.found accepted.absent (.ofRequest plan.request.withReplacement)
  rw [derived] at mirrors
  obtain ⟨area, worked, played, written⟩ := mirrors.writes apart
  obtain ⟨valid, planned, sizes⟩ := plan
  cases seed
  exact Sampler.sample_of_work settings accepted.validate accepted.found counted played
    written

end Derivations

/-- The same plan with another relation for its output. -/
def SamplePlan.into (plan : SamplePlan) (output : RelationName) : SamplePlan :=
  { plan with request := { plan.request with output } }

theorem SamplePlan.derive_into (plan : SamplePlan) (output : RelationName) (source : Table)
    (strategy : SamplingStrategy) : (plan.into output).derive source strategy = plan.derive source strategy := by
  cases strategy <;> rfl

theorem SampleRequest.resolve_into {request : SampleRequest} {source output : RelationName} {columns : List String}
    {valid : ValidRequest} (resolved : request.resolve source output columns = .ok valid) (raw : String)
    (other : RelationName) :
    { request with output := raw }.resolve source other columns = .ok { valid with output := other } := by
  simp only [resolve] at resolved ⊢
  split at resolved
  next none =>
    cases resolved
    rfl
  next => cases resolved

/-- With its seed fixed, what was derived once can be derived again, wherever the source is found. -/
theorem Derives.again {config later : SamplerConfig} {freshSeed : UInt64} {request : SampleRequest}
    {catalog grown : Catalog} {source sample : Table} {plan : SamplePlan} {raw : String} {output : RelationName}
    (derives : Derives config freshSeed request catalog source plan sample) (settings : later.validate = .ok ())
    (seeded : later.seed = some plan.seed) (named : RelationName.ofString? raw = some output)
    (absent : grown.contains output = false) (kept : grown.table? plan.request.source = some source)
    (otherSeed : UInt64) :
    Derives later otherSeed { request with output := raw } grown source (plan.into output) sample where
  settings := settings
  accepted := {
    output := named
    source := derives.accepted.source
    distinct := by
      intro same
      have taken := Catalog.contains_of_table? kept
      change plan.request.source = output at same
      rw [same, absent] at taken
      cases taken
    absent := absent
    found := kept
    rows := derives.accepted.rows
    proportion := derives.accepted.proportion
    resolved := SampleRequest.resolve_into derives.accepted.resolved raw output }
  seed := by rw [seeded]; rfl
  counted := derives.counted
  derived := (plan.derive_into output source _).trans derives.derived

namespace SessionVariables

theorem samplerConfig_eq_ok {assigned : SessionVariables} {base config : SamplerConfig}
    (settings : assigned.samplerConfig base = .ok config) :
    assigned.seed base.seed = .ok config.seed ∧ config.validate = .ok () := by
  obtain ⟨seed, seeded, settings⟩ := bind_eq_ok settings
  obtain ⟨stagingPrefix, -, settings⟩ := bind_eq_ok settings
  obtain ⟨slowThreshold, -, settings⟩ := bind_eq_ok settings
  obtain ⟨checked, validated, settings⟩ := bind_eq_ok settings
  cases settings
  exact ⟨seeded, validated⟩

theorem samplerConfig_of_valid {assigned : SessionVariables} {base config : SamplerConfig}
    (seed : assigned.seed base.seed = .ok config.seed)
    (stagingPrefix : assigned.stagingPrefix base.stagingPrefix = .ok config.stagingPrefix)
    (slowThreshold : assigned.slowThreshold base.slowThreshold = .ok config.slowThreshold)
    (valid : config.validate = .ok ()) : assigned.samplerConfig base = .ok config := by
  simp only [samplerConfig, seed, stagingPrefix, slowThreshold, valid, bind, Except.bind]
  rfl

/-- A number set under any name that is the seed's in upper case gives the seed by its bits. -/
theorem seed_of_set {assigned : SessionVariables} {seed : UInt64}
    (set : assigned.get? seedVariable = some (.int64 seed.toInt64)) (default : Option UInt64) :
    assigned.seed default = .ok (some seed) := by
  simp [SessionVariables.seed, set]

end SessionVariables

namespace Session

theorem sample_eq_ok {session after : Session} {request : SampleRequest} {circumstances : Circumstances}
    {report : SampleReport} (ran : session.sample request circumstances = (.ok report, after)) :
    ∃ config counted, session.samplerConfig = .ok config ∧
      (Sampler.withMetrics config session.metrics).sample Catalog.backend request circumstances session.catalog =
        (.ok report, counted, after.catalog) := by
  rcases session.sample_cases request circumstances with
    ⟨error, -, turned⟩ | ⟨config, outcome, counted, catalog, settings, sampled, same⟩
  · cases turned.symm.trans ran
  · cases same.symm.trans ran
    exact ⟨config, counted, settings, sampled⟩

theorem table_eq (session : Session) {raw : String} {name : RelationName}
    (named : RelationName.ofString? raw = some name) : session.table raw = session.catalog.table name := by
  simp only [table, RelationName.ofString, named]
  rfl

theorem tableExists_eq_ok {session : Session} {raw : String} {there : Bool}
    (looked : session.tableExists raw = .ok there) :
    ∃ name, RelationName.ofString? raw = some name ∧ session.catalog.contains name = there := by
  unfold tableExists RelationName.ofString at looked
  cases named : RelationName.ofString? raw with
  | none =>
    rw [named] at looked
    cases looked
  | some name =>
    rw [named] at looked
    cases looked
    exact ⟨name, rfl, rfl⟩

/-- A sample that succeeds in a session has been derived, and is the output's table afterwards. -/
theorem sample_derives {session after : Session} {request : SampleRequest} {circumstances : Circumstances}
    {report : SampleReport} (ran : session.sample request circumstances = (.ok report, after)) :
    ∃ config source plan sample, Derives config circumstances.freshSeed request session.catalog source plan sample ∧
      report = Sampler.report plan sample.rowCount circumstances.elapsed ∧
      after.catalog.table? plan.request.source = some source ∧ after.catalog.table? plan.request.output = some sample := by
  obtain ⟨config, counted, -, sampled⟩ := sample_eq_ok ran
  obtain ⟨source, plan, sample, derives, reported, sourceFound, sampleFound⟩ := Sampler.sample_derives sampled
  exact ⟨config, source, plan, sample, derives, reported, sourceFound, sampleFound⟩

theorem sample_of_sampler {session : Session} {config : SamplerConfig} {request : SampleRequest}
    {circumstances : Circumstances} {outcome : Except Error SampleReport} {counted : Sampler} {catalog : Catalog}
    (settings : session.samplerConfig = .ok config)
    (ran : (Sampler.withMetrics config session.metrics).sample Catalog.backend request circumstances session.catalog =
      (outcome, counted, catalog)) :
    session.sample request circumstances = (outcome, { session with catalog, metrics := counted.metrics }) := by
  rcases session.sample_cases request circumstances with
    ⟨error, fault, -⟩ | ⟨config, outcome, counted, catalog, others, sampled, same⟩
  · cases settings.symm.trans fault
  · cases settings.symm.trans others
    cases ran.symm.trans sampled
    exact same

theorem sample_of_derives {session : Session} {config : SamplerConfig} {request : SampleRequest}
    {circumstances : Circumstances} {source sample : Table} {plan : SamplePlan}
    (settings : session.samplerConfig = .ok config)
    (derives : Derives config circumstances.freshSeed request session.catalog source plan sample)
    (fresh : FreshToken config.stagingPrefix circumstances.token request.output session.catalog) :
    ∃ after, session.sample request circumstances =
        (.ok (Sampler.report plan sample.rowCount circumstances.elapsed), after) ∧
      after.catalog.table? plan.request.output = some sample := by
  have ran := derives.run fresh (session.metrics.withThreshold config.slowThreshold)
  exact ⟨_, sample_of_sampler settings ran, Catalog.table?_added derives.accepted.absent sample⟩

end Session

/-- A sample can be made again from the seed of its report. Once a session variable of the
seed's name, in upper or lower case, holds the bits of that seed, and as long as calls that come
after leave it and the source as they are and the settings valid, the same request under
any free name and any fresh token succeeds, with the same table and the same report of it. -/
theorem seed_replays_sample {session sampled : Session} {request : SampleRequest} {circumstances : Circumstances}
    {report : SampleReport} {name : String} (calls : List SessionCall)
    (succeeded : session.sample request circumstances = (.ok report, sampled))
    (named : Text.uppercase name = SessionVariables.seedVariable) :
    let seeded := sampled.setVariable name (.int64 report.seed.toInt64)
    let later := (SessionCall.runAll calls seeded).2
    ∃ sample, sampled.table request.output = .ok sample ∧
      ∀ (config : SamplerConfig) (output : String) (again : Circumstances),
        later.variableValue? SessionVariables.seedVariable = seeded.variableValue? SessionVariables.seedVariable →
        later.table request.source = seeded.table request.source →
        later.samplerConfig = .ok config →
        later.tableExists output = .ok false →
        FreshToken config.stagingPrefix again.token output later.catalog →
        ∃ replay final, later.sample { request with output } again = (.ok replay, final) ∧
          final.table output = .ok sample ∧ replay.seed = report.seed ∧ replay.strategy = report.strategy ∧
          replay.strata = report.strata ∧ replay.rowsRead = report.rowsRead ∧
          replay.rowsWritten = report.rowsWritten := by
  intro seeded later
  obtain ⟨config, source, plan, sample, derives, rfl, sourceFound, sampleFound⟩ := Session.sample_derives succeeded
  have seedSet : seeded.variableValue? SessionVariables.seedVariable = some (.int64 plan.seed.toInt64) :=
    SessionVariables.get?_set (SessionVariables.uppercase_seedVariable.trans named.symm)
  have sourceThere : seeded.table request.source = .ok source :=
    (seeded.table_eq derives.accepted.source).trans (Catalog.table_eq_ok sourceFound)
  refine ⟨sample, (sampled.table_eq derives.accepted.output).trans (Catalog.table_eq_ok sampleFound), ?_⟩
  intro config output again seedKept sourceKept settings free fresh
  generalize later = present at seedKept sourceKept settings free fresh ⊢
  obtain ⟨relation, outputNamed, absent⟩ := Session.tableExists_eq_ok free
  have kept : present.catalog.table? plan.request.source = some source := by
    rw [present.table_eq derives.accepted.source, sourceThere] at sourceKept
    exact Catalog.table?_of_table sourceKept
  obtain ⟨seeding, valid⟩ := SessionVariables.samplerConfig_eq_ok settings
  rw [SessionVariables.seed_of_set (seedKept.trans seedSet)] at seeding
  have derivesAgain := derives.again valid (Except.ok.inj seeding).symm outputNamed absent kept again.freshSeed
  obtain ⟨final, ran, found⟩ := present.sample_of_derives settings derivesAgain fresh
  refine ⟨_, final, ran, (final.table_eq outputNamed).trans (Catalog.table_eq_ok found), rfl, rfl, rfl, rfl, rfl⟩

namespace ThreeSales

/-- What happens between a sample and its replay: the first output makes way for another table,
and tables are staged under another prefix. -/
def meanwhile : List SessionCall :=
  [.dropTable "sample", .createTable "orders" table, .setVariable "strata_staging_prefix" (.string "tmp")]

theorem meanwhile_spares (before : Session) : SessionCall.SparesAll name meanwhile before :=
  ⟨(by decide : Text.trim "sample" ≠ name.text), trivial,
    (by decide : Text.uppercase "strata_staging_prefix" ≠ SessionVariables.seedVariable), trivial⟩

theorem replayed : ∃ report sampled sample replay final,
    session.sample (request true) circumstances = (.ok report, sampled) ∧ sampled.table "sample " = .ok sample ∧
    (SessionCall.runAll meanwhile (sampled.setVariable "Strata_Seed" (.int64 report.seed.toInt64))).2.sample
      { request true with output := "again" } ⟨"t2", 11, .zero⟩ = (.ok replay, final) ∧
    final.table "again" = .ok sample ∧ replay.seed = report.seed ∧ replay.rowsWritten = report.rowsWritten := by
  have admitted := (feasible true).admitted
  obtain ⟨keys, output, report, counted, -, ran, -⟩ := admitted.samples (fun _ => by decide) fun _ => by decide
  have settings : session.samplerConfig = .ok .standard := rfl
  have succeeded := Session.sample_of_sampler settings ran
  have named : Text.uppercase "Strata_Seed" = SessionVariables.seedVariable :=
    Text.uppercase_of_toUpper (by decide) (by decide)
  obtain ⟨sample, found, replays⟩ := seed_replays_sample meanwhile succeeded named
  have there : (catalog.with_ [((valid true).output, output)]).table? name = some table := Catalog.table?_with rfl
  have fresh : FreshToken "tmp" "t2" "again" ⟨[(name, table), (⟨"orders", by decide, by decide⟩, table)]⟩ := by
    unfold FreshToken
    decide
  have valid : SamplerConfig.validate ⟨some report.seed.toInt64.toUInt64, "tmp", 1000⟩ = .ok () :=
    if_neg (by decide : Text.trim "tmp" ≠ "")
  obtain ⟨replay, final, again, foundAgain, seed, -, -, -, written⟩ :=
    replays ⟨some report.seed.toInt64.toUInt64, "tmp", 1000⟩ "again" ⟨"t2", 11, .zero⟩
      (SessionCall.runAll_spares (meanwhile_spares _) there).1
      ((Session.table_eq _ rfl).trans (Catalog.table_eq_ok (SessionCall.runAll_spares (meanwhile_spares _) there).2))
      (SessionVariables.samplerConfig_of_valid rfl rfl rfl valid) rfl fresh
  exact ⟨report, _, sample, replay, final, succeeded, found, again, foundAgain, seed, written⟩

end ThreeSales

end StratifiedSampling
