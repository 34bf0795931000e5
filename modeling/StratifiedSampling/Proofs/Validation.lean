import StratifiedSampling.Proofs.SamplerRuns

/-! What is known of a request that the validator accepts on a catalog. -/

namespace StratifiedSampling

namespace Catalog

theorem answer_of_looks {call : Call} (looks : call.Looks) (catalog : Catalog) :
    (Catalog.backend.answer call catalog).2 = catalog := by
  cases call <;> first | rfl | exact looks.elim

theorem attempt_of_peeks {program : Attempt α} (peeks : Peeks program.run) (catalog : Catalog) :
    (Catalog.backend.attempt program catalog).2 = catalog := by
  have step : ∀ call state, Call.Looks call → state = catalog → (Catalog.backend.answer call state).2 = catalog := by
    rintro call state looks rfl
    exact answer_of_looks looks state
  exact Backend.run_keeps step peeks.uses rfl

theorem table?_of_contains {catalog : Catalog} {name : RelationName} (present : catalog.contains name = true) :
    ∃ table, catalog.table? name = some table := by
  obtain ⟨entry, member, same⟩ := List.any_eq_true.mp present
  cases found : catalog.relations.find? fun entry => entry.1 == name with
  | none => exact absurd same (by simpa using List.find?_eq_none.mp found entry member)
  | some entry => exact ⟨entry.2, by rw [table?, found]; rfl⟩

theorem contains_of_table? {catalog : Catalog} {name : RelationName} {table : Table}
    (found : catalog.table? name = some table) : catalog.contains name = true := by
  obtain ⟨entry, first, -⟩ := Option.map_eq_some_iff.mp found
  exact List.any_eq_true.mpr ⟨entry, List.mem_of_find?_eq_some first, by simpa using List.find?_some first⟩

theorem table_eq_ok {catalog : Catalog} {name : RelationName} {table : Table}
    (found : catalog.table? name = some table) : catalog.table name = .ok table := by
  simp [Catalog.table, found]

theorem table?_of_table {catalog : Catalog} {name : RelationName} {table : Table}
    (found : catalog.table name = .ok table) : catalog.table? name = some table := by
  unfold Catalog.table at found
  split at found
  next listed =>
    cases found
    exact listed
  next => cases found

theorem attempt_isEmpty {catalog : Catalog} {name : RelationName} {table : Table}
    (found : catalog.table? name = some table) :
    Catalog.backend.attempt (.isEmpty name) catalog = (.ok table.isEmpty, catalog) := by
  change ((catalog.table name).map Table.isEmpty, catalog) = _
  rw [table_eq_ok found]
  rfl

theorem attempt_columns {catalog : Catalog} {name : RelationName} {table : Table}
    (found : catalog.table? name = some table) :
    Catalog.backend.attempt (.columns name) catalog = (.ok table.schema.names, catalog) := by
  change ((catalog.table name).map fun table => table.schema.names, catalog) = _
  rw [table_eq_ok found]
  rfl

theorem answer_groupCounts {catalog : Catalog} {name : RelationName} {table : Table}
    (found : catalog.table? name = some table) (groupBy : List String) :
    Catalog.backend.answer (.groupCounts name groupBy) catalog = (table.groupCounts groupBy, catalog) := by
  change ((catalog.table name).bind fun table => table.groupCounts groupBy, catalog) = _
  rw [table_eq_ok found]
  rfl

end Catalog

/-- A check that throws when it fails has passed if the attempt goes on to succeed. -/
theorem Backend.attempt_check_eq_ok {σ : Type} {backend : Backend σ} {condition : Prop} [Decidable condition]
    {error : Error} {next : PUnit → Attempt α} {state final : σ} {value : α}
    (whole : backend.attempt (if condition then MonadExcept.throw error >>= next else next ⟨⟩) state =
      (.ok value, final)) :
    ¬condition ∧ backend.attempt (next ⟨⟩) state = (.ok value, final) := by
  split at whole
  · obtain ⟨_, _, thrown, _⟩ := attempt_bind_eq_ok whole
    cases thrown
  next passed => exact ⟨passed, whole⟩

namespace SampleRequest

/-- The conditions under which a request is accepted, with the table that it samples. -/
structure Accepted (request : SampleRequest) (catalog : Catalog) (table : Table) (valid : ValidRequest) : Prop where
  output : RelationName.ofString? request.output = some valid.output
  source : RelationName.ofString? request.source = some valid.source
  distinct : valid.source ≠ valid.output
  absent : catalog.contains valid.output = false
  found : catalog.table? valid.source = some table
  rows : table.rowCount ≠ 0
  proportion : Counts.isProportion request.proportion = true
  resolved : request.resolve valid.source valid.output table.schema.names = .ok valid

theorem namedRelation_eq_ok {raw role : String} {name : RelationName}
    (named : namedRelation raw role = .ok name) : RelationName.ofString? raw = some name := by
  unfold namedRelation at named
  split at named
  next found => cases named; exact found
  next => cases named

theorem namedRelation_of_ofString? {raw role : String} {name : RelationName}
    (named : RelationName.ofString? raw = some name) : namedRelation raw role = .ok name := by
  simp only [namedRelation, named]

/-- How a valid request comes from a request, its relations and the columns of the source. -/
structure Resolved (request : SampleRequest) (source output : RelationName) (columns : List String)
    (valid : ValidRequest) : Prop where
  source : valid.source = source
  output : valid.output = output
  sourceColumns : valid.sourceColumns = columns
  proportion : valid.proportion = request.proportion
  withReplacement : valid.withReplacement = request.withReplacement
  strata : valid.strata = Strata.resolve (request.keys.getD [])
  targets : valid.targets = resolveTargets columns valid.strata (request.targets.getD [])
  outputColumns : valid.outputColumns = StratifiedSampling.outputColumns valid.targets valid.strata
  complete : missingColumns columns (valid.strata.columns ++ valid.targets) = []

theorem resolve_eq_ok {request : SampleRequest} {source output : RelationName} {columns : List String}
    {valid : ValidRequest} (resolved : request.resolve source output columns = .ok valid) :
    request.Resolved source output columns valid := by
  simp only [resolve] at resolved
  split at resolved
  next none =>
    cases resolved
    exact ⟨rfl, rfl, rfl, rfl, rfl, rfl, rfl, rfl, none⟩
  next => cases resolved

theorem Accepted.settled {request : SampleRequest} {catalog : Catalog} {table : Table} {valid : ValidRequest}
    (accepted : request.Accepted catalog table valid) :
    request.Resolved valid.source valid.output table.schema.names valid :=
  resolve_eq_ok accepted.resolved

theorem checkProportion_eq_ok {proportion : Double} {state final : σ} {checked : Unit}
    (passed : (Counts.checkProportion proportion, state) = (.ok checked, final)) :
    Counts.isProportion proportion = true := by
  unfold Counts.checkProportion at passed
  split at passed
  next proper => exact proper
  next => cases passed

theorem accepted_of_validate {request : SampleRequest} {catalog : Catalog} {valid : ValidRequest}
    (accepted : (Catalog.backend.attempt request.validate catalog).1 = .ok valid) :
    ∃ table, request.Accepted catalog table valid := by
  have unchanged := Catalog.attempt_of_peeks request.validate_peeks catalog
  have whole : Catalog.backend.attempt request.validate catalog = (.ok valid, catalog) := Prod.ext accepted unchanged
  clear accepted unchanged
  unfold validate at whole
  obtain ⟨output, _, named, whole⟩ := Backend.attempt_bind_eq_ok whole
  obtain ⟨outputNamed, rfl⟩ := Prod.mk.inj named
  obtain ⟨source, _, named, whole⟩ := Backend.attempt_bind_eq_ok whole
  obtain ⟨sourceNamed, rfl⟩ := Prod.mk.inj named
  obtain ⟨distinct, whole⟩ := Backend.attempt_check_eq_ok whole
  obtain ⟨taken, _, answered, whole⟩ := Backend.attempt_bind_eq_ok whole
  cases answered
  obtain ⟨absent, whole⟩ := Backend.attempt_check_eq_ok whole
  obtain ⟨present, _, answered, whole⟩ := Backend.attempt_bind_eq_ok whole
  cases answered
  obtain ⟨found, whole⟩ := Backend.attempt_check_eq_ok whole
  obtain ⟨table, same⟩ := Catalog.table?_of_contains (by simpa using found)
  obtain ⟨empty, _, answered, whole⟩ := Backend.attempt_bind_eq_ok whole
  rw [Catalog.attempt_isEmpty same] at answered
  cases answered
  obtain ⟨filled, whole⟩ := Backend.attempt_check_eq_ok whole
  obtain ⟨checked, _, proper, whole⟩ := Backend.attempt_bind_eq_ok whole
  have proportion := checkProportion_eq_ok proper
  obtain ⟨-, rfl⟩ := Prod.mk.inj proper
  obtain ⟨columns, _, answered, whole⟩ := Backend.attempt_bind_eq_ok whole
  rw [Catalog.attempt_columns same] at answered
  cases answered
  obtain ⟨resolved, -⟩ := Prod.mk.inj whole
  obtain ⟨rfl, rfl, -⟩ := resolve_eq_ok resolved
  exact ⟨table, namedRelation_eq_ok outputNamed, namedRelation_eq_ok sourceNamed, distinct, by simpa using absent,
    same, by simpa [Table.isEmpty] using filled, proportion, resolved⟩

theorem Accepted.validate {request : SampleRequest} {catalog : Catalog} {table : Table} {valid : ValidRequest}
    (accepted : request.Accepted catalog table valid) :
    (Catalog.backend.attempt request.validate catalog).1 = .ok valid := by
  have filled : table.isEmpty = false := by simpa [Table.isEmpty] using accepted.rows
  have present := Catalog.contains_of_table? accepted.found
  have proper : Counts.checkProportion request.proportion = .ok () := by
    simp only [Counts.checkProportion, accepted.proportion, if_true]
  have containing : ∀ name, Catalog.backend.attempt (.contains name) catalog = (.ok (catalog.contains name), catalog) :=
    fun _ => rfl
  unfold SampleRequest.validate
  simp only [Backend.attempt_bind, Backend.attempt_settled, namedRelation_of_ofString? accepted.output,
    namedRelation_of_ofString? accepted.source, if_neg accepted.distinct, containing, accepted.absent, present,
    Bool.false_eq_true, if_false, Bool.not_true, Catalog.attempt_isEmpty accepted.found, filled, proper,
    Catalog.attempt_columns accepted.found]
  exact accepted.resolved

end SampleRequest

end StratifiedSampling
