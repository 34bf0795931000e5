import StratifiedSampling.Proofs.CatalogAtomicity

/-! A sample as a function of its source. A plan applies one bulk operation after the other to
tables that it has made itself, and reads nothing else of the catalog; prefix, token and the
name of the output have no part in it. -/

namespace StratifiedSampling

namespace SamplePlan

/-- Of a labeled source the rows with the smallest labels, or those up to the thresholds of their strata. -/
def selectLabeled (plan : SamplePlan) (labeled : Table) : Except Error Table :=
  let label := plan.fresh "__strata_label"
  if plan.request.strata.isGlobal then
    labeled.sortLimit label (Counts.drawCount plan.totalRows plan.request.proportion) plan.request.outputColumns
  else do
    let threshold := plan.fresh "__strata_threshold"
    let thresholds ← labeled.groupQuantile plan.keys label plan.request.proportion threshold
    labeled.join thresholds plan.keys (some ⟨.lessEq, label, threshold⟩) plan.request.outputColumns

/-- A table of resolved draws, if there are as many of them as are expected. -/
def checkDraws (plan : SamplePlan) (drawn : Nat) (output : Table) : Except Error Table :=
  if output.rowCount ≠ plan.expectedDraws ∨ drawn ≠ plan.expectedDraws then do
    let counts ← output.groupCounts plan.keys
    throw (plan.unresolvedDraws counts output.rowCount)
  else return output

/-- The same check in a run, which has written the output and counts its rows there. -/
def settleDraws (plan : SamplePlan) (drawn written : Nat) : Staged Nat := do
  if written ≠ plan.expectedDraws ∨ drawn ≠ plan.expectedDraws then
    let counts ← Staging.groupCounts plan.request.output plan.keys
    throw (plan.unresolvedDraws counts written)
  return written

def resolveDraws (plan : SamplePlan) (source : Table) : Except Error Table := do
  let rank := plan.fresh "__strata_rank"
  let draw := plan.fresh "__strata_draw"
  let ranked ← source.rowNumber plan.keys rank
  let draws ← source.groupDraws plan.keys plan.request.proportion draw plan.seed
  let output ← ranked.join draws plan.keys (some ⟨.equal, rank, draw⟩) plan.request.outputColumns
  plan.checkDraws draws.rowCount output

/-- The sample that a plan makes of a source. -/
def derive (plan : SamplePlan) (source : Table) : SamplingStrategy → Except Error Table
  | .withoutReplacement => source.withRandomLabel (plan.fresh "__strata_label") plan.seed >>= plan.selectLabeled
  | .withReplacement => plan.resolveDraws source

end SamplePlan

/-- A staging area that has added some tables to a catalog, under names of its own that were new. -/
structure Ahead (before : Catalog) (names : String → RelationName) (made : List (RelationName × Table))
    (area : Staging) : Prop where
  named : Staging.nameOf area.stagingPrefix area.token = names
  uncommitted : area.committed = false
  staged : area.staged = made.map Prod.fst
  own : ∀ entry ∈ made, ∃ suffix ∈ ["labeled", "thresholds", "ranked", "draws"], entry.1 = names suffix
  new : ∀ entry ∈ made, before.contains entry.1 = false
  distinct : (made.map Prod.fst).Nodup

/-- A staged program ends as a computation on tables does, unless it finds one of its names taken. -/
inductive Mirrors (before : Catalog) (output : RelationName) (names : String → RelationName) (program : Staged Nat)
    (area : Staging) (catalog : Catalog) : Except Error Table → Prop where
  | succeeds {table : Table} {after : Staging} {worked : Catalog}
      (played : Staged.play Catalog.backend program area catalog = ((.ok table.rowCount, after), worked))
      (written : Written before output table after worked) : Mirrors before output names program area catalog (.ok table)
  | fails {error : Error} {after : Staging} {worked : Catalog}
      (played : Staged.play Catalog.backend program area catalog = ((.error error, after), worked)) :
      Mirrors before output names program area catalog (.error error)
  | blocked {error : Error} {after : Staging} {worked : Catalog} {result : Except Error Table}
      (played : Staged.play Catalog.backend program area catalog = ((.error error, after), worked))
      (taken : ¬∀ suffix ∈ ["labeled", "thresholds", "ranked", "draws"], Apart before output (names suffix)) :
      Mirrors before output names program area catalog result

namespace Catalog

/-- A creation under a name that is taken fails. -/
theorem create_of_contains {catalog : Catalog} {name : RelationName} (taken : catalog.contains name = true)
    (spec : RelationSpec) :
    Catalog.backend.answer (.create name spec) catalog = (.error (.alreadyExists name.text), catalog) := by
  rcases create_cases catalog name spec with ⟨error, cause, reply⟩ | ⟨table, absent, -, -⟩
  · rw [reply, cause taken]
  · rw [absent] at taken
    cases taken

/-- A name that is taken after some tables were added was taken before, or is one of theirs. -/
theorem contains_with_cases {catalog : Catalog} {made : List (RelationName × Table)} {name : RelationName}
    (taken : (catalog.with_ made).contains name = true) :
    catalog.contains name = true ∨ ∃ entry ∈ made, entry.1 = name := by
  rw [contains_with, Bool.or_eq_true] at taken
  refine taken.imp id fun listed => ?_
  obtain ⟨entry, member, same⟩ := List.any_eq_true.mp listed
  exact ⟨entry, member, by simpa using same⟩

end Catalog

section Mirror
variable {before : Catalog} {output : RelationName} {names : String → RelationName}
  {made : List (RelationName × Table)} {area : Staging}

theorem Ahead.start {start : Staging} (named : Staging.nameOf start.stagingPrefix start.token = names)
    (empty : start.staged = []) (uncommitted : start.committed = false) : Ahead before names [] start :=
  ⟨named, uncommitted, empty, by simp, by simp, by simp⟩

theorem Ahead.table? (ahead : Ahead before names made area) {name : RelationName} {table : Table}
    (member : (name, table) ∈ made) : (before.with_ made).table? name = some table :=
  Catalog.table?_with_of_mem (ahead.new _ member) ahead.distinct member

theorem Ahead.stage (ahead : Ahead before names made area) {suffix : String}
    (listed : suffix ∈ ["labeled", "thresholds", "ranked", "draws"])
    (absent : (before.with_ made).contains (names suffix) = false) (table : Table) :
    Ahead before names (made ++ [(names suffix, table)]) { area with staged := area.staged ++ [names suffix] } := by
  rw [Catalog.contains_with, Bool.or_eq_false_iff] at absent
  have different : names suffix ∉ made.map Prod.fst := by
    intro member
    obtain ⟨entry, found, same⟩ := List.mem_map.mp member
    exact List.any_eq_false.mp absent.2 entry found (by simp [same])
  refine ⟨ahead.named, ahead.uncommitted, by simp [ahead.staged], ?_, ?_, ?_⟩
  · intro entry member
    rcases List.mem_append.mp member with member | member
    · exact ahead.own entry member
    · exact ⟨suffix, listed, congrArg Prod.fst (List.mem_singleton.mp member)⟩
  · intro entry member
    rcases List.mem_append.mp member with member | member
    · exact ahead.new entry member
    · rw [List.mem_singleton.mp member]
      exact absent.1
  · rw [List.map_append, List.nodup_append]
    refine ⟨ahead.distinct, by simp, fun name member other single same => ?_⟩
    rw [List.map_singleton, List.mem_singleton] at single
    rw [same, single] at member
    exact different member

theorem Ahead.written (ahead : Ahead before names made area) (absent : (before.with_ made).contains output = false)
    (table : Table) :
    Written before output table { area with output := some output }
      ((before.with_ made).with_ [(output, table)]) := by
  rw [Catalog.contains_with, Bool.or_eq_false_iff] at absent
  refine ⟨ahead.uncommitted, rfl, fun name member => ?_, made, ahead.staged.symm, Catalog.with_with ..⟩
  rw [ahead.staged] at member
  obtain ⟨entry, listed, rfl⟩ := List.mem_map.mp member
  refine ⟨ahead.new entry listed, fun same => ?_⟩
  exact List.any_eq_false.mp absent.2 entry listed (by simp [same])

/-- An output that has been added is found. -/
theorem Written.found {table : Table} {catalog : Catalog} (absent : before.contains output = false)
    (written : Written before output table area catalog) : catalog.table? output = some table := by
  obtain ⟨-, -, apart, made, staged, rfl⟩ := written
  have new : (before.with_ made).contains output = false := by
    rw [Catalog.contains_with, absent, Bool.false_or, List.any_eq_false]
    intro entry member same
    have listed : entry.1 ∈ area.staged := staged ▸ List.mem_map_of_mem member
    exact (apart entry.1 listed).2 (by simpa using same)
  rw [← Catalog.with_with]
  exact Catalog.table?_added new table

/-- A stage under a name that the area has not used yet mirrors one operation. -/
theorem Mirrors.stage (ahead : Ahead before names made area) {suffix : String}
    (listed : suffix ∈ ["labeled", "thresholds", "ranked", "draws"]) (unused : ∀ entry ∈ made, entry.1 ≠ names suffix)
    {spec : RelationSpec} {computed : Except Error Table} (evaluated : (before.with_ made).evaluate spec = computed)
    {next : RelationName × Nat → Staged Nat} {continued : Table → Except Error Table}
    (rest : ∀ table, Ahead before names (made ++ [(names suffix, table)])
        { area with staged := area.staged ++ [names suffix] } →
      Mirrors before output names (next (names suffix, table.rowCount))
        { area with staged := area.staged ++ [names suffix] } (before.with_ (made ++ [(names suffix, table)]))
        (continued table)) :
    Mirrors before output names (Staging.stage suffix spec >>= next) area (before.with_ made)
      (computed >>= continued) := by
  have step := Staged.play_bind Catalog.backend (Staging.stage suffix spec) next area (before.with_ made)
  rw [Staged.play_stage, ahead.named] at step
  dsimp only at step
  cases taken : (before.with_ made).contains (names suffix) with
  | true =>
    rw [Catalog.create_of_contains taken] at step
    refine .blocked step fun apart => ?_
    rcases Catalog.contains_with_cases taken with old | ⟨entry, member, same⟩
    · rw [(apart suffix listed).1] at old
      cases old
    · exact unused entry member same
  | false =>
    cases computed with
    | error error =>
      rw [Catalog.create_of_evaluate_error taken evaluated] at step
      exact .fails step
    | ok table =>
      rw [Catalog.create_of_evaluate taken evaluated, Catalog.with_with] at step
      have mirrored := rest table (ahead.stage listed taken table)
      change Mirrors before output names _ area _ (continued table)
      generalize continued table = result at mirrored ⊢
      cases mirrored with
      | succeeds played written => exact .succeeds (step.trans played) written
      | fails played => exact .fails (step.trans played)
      | blocked played taken => exact .blocked (step.trans played) taken

theorem Mirrors.createOutput (ahead : Ahead before names made area) (absent : before.contains output = false)
    {spec : RelationSpec} {computed : Except Error Table} (evaluated : (before.with_ made).evaluate spec = computed) :
    Mirrors before output names (Staging.createOutput output spec) area (before.with_ made) computed := by
  have step := Staged.play_createOutput Catalog.backend output spec area (before.with_ made)
  cases taken : (before.with_ made).contains output with
  | true =>
    rw [Catalog.create_of_contains taken] at step
    refine .blocked step fun apart => ?_
    rcases Catalog.contains_with_cases taken with old | ⟨entry, member, same⟩
    · rw [absent] at old
      cases old
    · obtain ⟨suffix, listed, named⟩ := ahead.own entry member
      exact (apart suffix listed).2 (named.symm.trans same)
  | false =>
    cases computed with
    | error error =>
      rw [Catalog.create_of_evaluate_error taken evaluated] at step
      exact .fails step
    | ok table =>
      rw [Catalog.create_of_evaluate taken evaluated] at step
      exact .succeeds step (ahead.written taken table)

theorem SamplePlan.play_settleDraws {plan : SamplePlan} {catalog : Catalog} {table : Table}
    (found : catalog.table? plan.request.output = some table) (drawn : Nat) (area : Staging) :
    Staged.play Catalog.backend (plan.settleDraws drawn table.rowCount) area catalog =
      (((plan.checkDraws drawn table).map Table.rowCount, area), catalog) := by
  unfold settleDraws checkDraws
  split
  · rw [Staged.play_bind, Staged.play_groupCounts, Catalog.answer_groupCounts found]
    cases table.groupCounts plan.keys <;> rfl
  · rfl

theorem SamplePlan.checkDraws_eq_ok {plan : SamplePlan} {drawn : Nat} {table checked : Table}
    (passed : plan.checkDraws drawn table = .ok checked) : checked = table := by
  unfold checkDraws at passed
  split at passed
  · cases counted : table.groupCounts plan.keys <;> rw [counted] at passed <;> cases passed
  · exact (Except.ok.inj passed).symm

theorem Mirrors.settleDraws {plan : SamplePlan} {program : Staged Nat} {catalog : Catalog}
    {computed : Except Error Table} (absent : before.contains plan.request.output = false)
    (mirrors : Mirrors before plan.request.output names program area catalog computed) (drawn : Nat) :
    Mirrors before plan.request.output names (program >>= plan.settleDraws drawn) area catalog
      (computed >>= plan.checkDraws drawn) := by
  have step := Staged.play_bind Catalog.backend program (plan.settleDraws drawn) area catalog
  cases mirrors with
  | fails played => exact .fails (step.trans (by rw [played]))
  | blocked played taken => exact .blocked (step.trans (by rw [played])) taken
  | @succeeds table after worked played written =>
    rw [played] at step
    dsimp only at step
    rw [plan.play_settleDraws (written.found absent)] at step
    change Mirrors before plan.request.output names _ area catalog (plan.checkDraws drawn table)
    cases checked : plan.checkDraws drawn table with
    | error error => exact .fails (step.trans (by rw [checked]; rfl))
    | ok passed =>
      cases SamplePlan.checkDraws_eq_ok checked
      exact .succeeds (step.trans (by rw [checked]; rfl)) written

end Mirror

namespace SamplePlan

variable {before : Catalog} {names : String → RelationName} {plan : SamplePlan} {area start : Staging}

theorem takeSmallest_mirrors {labeled : Table} (ahead : Ahead before names [(names "labeled", labeled)] area)
    (absent : before.contains plan.request.output = false) (label : String) :
    Mirrors before plan.request.output names (plan.takeSmallest (names "labeled") label) area
      (before.with_ [(names "labeled", labeled)])
      (labeled.sortLimit label (Counts.drawCount plan.totalRows plan.request.proportion)
        plan.request.outputColumns) := by
  refine .createOutput ahead absent ?_
  simp only [Catalog.evaluate, Catalog.table_eq_ok (ahead.table? (List.mem_singleton_self _))]
  rfl

theorem takeUpToThreshold_mirrors {labeled : Table} (ahead : Ahead before names [(names "labeled", labeled)] area)
    (absent : before.contains plan.request.output = false) (label : String) :
    let threshold := plan.fresh "__strata_threshold"
    Mirrors before plan.request.output names (plan.takeUpToThreshold (names "labeled") label) area
      (before.with_ [(names "labeled", labeled)])
      (labeled.groupQuantile plan.keys label plan.request.proportion threshold >>= fun thresholds =>
        labeled.join thresholds plan.keys (some ⟨.lessEq, label, threshold⟩) plan.request.outputColumns) := by
  have different : names "labeled" ≠ names "thresholds" := ahead.named ▸ Staging.labeled_ne_thresholds _ _
  refine .stage ahead (by simp) (by simpa using different) ?_ fun thresholds ahead => .createOutput ahead absent ?_
  · simp only [Catalog.evaluate, Catalog.table_eq_ok (ahead.table? (List.mem_singleton_self _))]
    rfl
  · have labeledThere : (before.with_ _).table? (names "labeled") = some labeled := ahead.table? (by simp)
    have thresholdsThere : (before.with_ _).table? (names "thresholds") = some thresholds := ahead.table? (by simp)
    simp only [Catalog.evaluate, Catalog.table_eq_ok labeledThere, Catalog.table_eq_ok thresholdsThere]
    rfl

theorem withoutReplacement_mirrors {source : Table} (beginning : Ahead before names [] start)
    (found : before.table? plan.request.source = some source) (absent : before.contains plan.request.output = false) :
    Mirrors before plan.request.output names plan.withoutReplacement start (before.with_ [])
      (source.withRandomLabel (plan.fresh "__strata_label") plan.seed >>= plan.selectLabeled) := by
  refine .stage beginning (by simp) (by simp) ?_ fun labeled ahead => ?_
  · simp only [Catalog.evaluate, Catalog.with_nil, Catalog.table_eq_ok found]
    rfl
  · unfold selectLabeled
    dsimp only
    split
    · exact takeSmallest_mirrors ahead absent _
    · exact takeUpToThreshold_mirrors ahead absent _

theorem withReplacement_mirrors {source : Table} (beginning : Ahead before names [] start)
    (found : before.table? plan.request.source = some source) (absent : before.contains plan.request.output = false) :
    Mirrors before plan.request.output names plan.withReplacement start (before.with_ [])
      (plan.resolveDraws source) := by
  have different : names "ranked" ≠ names "draws" := beginning.named ▸ Staging.ranked_ne_draws _ _
  refine .stage beginning (by simp) (by simp) ?_ fun ranked ahead =>
    .stage ahead (by simp) (by simpa using different) ?_ fun draws ahead =>
    Mirrors.settleDraws absent (.createOutput ahead absent ?_) draws.rowCount
  · simp only [Catalog.evaluate, Catalog.with_nil, Catalog.table_eq_ok found]
    rfl
  · simp only [Catalog.evaluate, Catalog.table_eq_ok (Catalog.table?_with found)]
    rfl
  · have rankedThere : (before.with_ _).table? (names "ranked") = some ranked := ahead.table? (by simp)
    have drawsThere : (before.with_ _).table? (names "draws") = some draws := ahead.table? (by simp)
    simp only [Catalog.evaluate, Catalog.table_eq_ok rankedThere, Catalog.table_eq_ok drawsThere]
    rfl

/-- Whatever else a catalog holds, a plan makes of it what it derives from the table of its source. -/
theorem execute_mirrors {source : Table} (beginning : Ahead before names [] start)
    (found : before.table? plan.request.source = some source) (absent : before.contains plan.request.output = false)
    (strategy : SamplingStrategy) :
    Mirrors before plan.request.output names (plan.execute strategy) start before (plan.derive source strategy) := by
  cases strategy with
  | withoutReplacement =>
    have mirrors := withoutReplacement_mirrors beginning found absent
    rwa [Catalog.with_nil] at mirrors
  | withReplacement =>
    have mirrors := withReplacement_mirrors beginning found absent
    rwa [Catalog.with_nil] at mirrors

end SamplePlan

namespace Mirrors

variable {before : Catalog} {output : RelationName} {names : String → RelationName} {program : Staged Nat}
  {area after : Staging} {catalog worked : Catalog}

/-- What a run has written is what the computation comes to. -/
theorem written {result : Except Error Table} {rows : Nat}
    (mirrors : Mirrors before output names program area catalog result)
    (ended : Staged.play Catalog.backend program area catalog = ((.ok rows, after), worked)) :
    ∃ table, result = .ok table ∧ rows = table.rowCount ∧ Written before output table after worked := by
  cases mirrors with
  | @succeeds table _ _ played written =>
    cases played.symm.trans ended
    exact ⟨table, rfl, rfl, written⟩
  | fails played => cases played.symm.trans ended
  | blocked played _ => cases played.symm.trans ended

/-- With its names free, a run writes what the computation comes to. -/
theorem writes {table : Table} (mirrors : Mirrors before output names program area catalog (.ok table))
    (apart : ∀ suffix ∈ ["labeled", "thresholds", "ranked", "draws"], Apart before output (names suffix)) :
    ∃ after worked, Staged.play Catalog.backend program area catalog = ((.ok table.rowCount, after), worked) ∧
      Written before output table after worked := by
  cases mirrors with
  | succeeds played written => exact ⟨_, _, played, written⟩
  | blocked _ taken => exact absurd apart taken

/-- With its names free, a run fails as the computation does. -/
theorem refuses {error : Error} (mirrors : Mirrors before output names program area catalog (.error error))
    (apart : ∀ suffix ∈ ["labeled", "thresholds", "ranked", "draws"], Apart before output (names suffix)) :
    ∃ after worked, Staged.play Catalog.backend program area catalog = ((.error error, after), worked) := by
  cases mirrors with
  | fails played => exact ⟨_, _, played⟩
  | blocked _ taken => exact absurd apart taken

end Mirrors

/-- A run begins ahead of its catalog by nothing. -/
theorem Sampler.beginning (config : SamplerConfig) (token : Token) (catalog : Catalog) :
    Ahead catalog (Staging.nameOf (Text.trim config.stagingPrefix) token) [] (.start config.stagingPrefix token) :=
  .start rfl rfl rfl

end StratifiedSampling
