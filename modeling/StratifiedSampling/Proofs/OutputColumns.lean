import StratifiedSampling.Proofs.RequestChecks
import StratifiedSampling.Proofs.SeedReplay

/-! The columns of an output. A request settles them: its targets, then those of its keys
that are not among them. Every operation of a run looks a name up in the fields of its tables,
and a column that the run adds does not get in the way of the columns of the source. -/

namespace StratifiedSampling

/-- Names without the blanks around them, none of them blank, each once and in the order of first mention. -/
def distinctNames (names : List String) : List String :=
  ((names.map Text.trim).filter fun name => name ≠ "").eraseDups

theorem addNames_append (seen names more : List String) :
    addNames seen (names ++ more) = addNames (addNames seen names) more := by
  induction names generalizing seen with
  | nil => rfl
  | cons raw rest ih =>
    rw [List.cons_append, addNames, addNames]
    split <;> exact ih _

theorem normalizeNames_eq (names : List String) : normalizeNames names = distinctNames names := by
  induction names using List.reverseRecOn with
  | nil => rfl
  | append_singleton names last ih =>
    have step : normalizeNames (names ++ [last]) = addNames (distinctNames names) [last] := by
      rw [← ih]
      exact addNames_append [] names [last]
    rw [step, addNames, addNames, addNames]
    unfold distinctNames
    rw [List.map_append, List.map_singleton, List.filter_append, List.filter_cons, List.filter_nil]
    by_cases blank : Text.trim last = ""
    · simp [blank]
    · have solid : decide (Text.trim last ≠ "") = true := decide_eq_true blank
      rw [if_pos solid, eraseDups_concat]
      simp only [blank, false_or, List.mem_eraseDups, List.any_beq', List.contains_iff_mem]
      split
      · exact (List.append_nil _).symm
      · rfl

theorem mem_distinctNames {names : List String} {name : String} :
    name ∈ distinctNames names ↔ name ≠ "" ∧ ∃ raw ∈ names, Text.trim raw = name := by
  simp [distinctNames, and_comm]

/-- Targets that name nothing but the wildcard, if that, ask for no column in particular. -/
theorem distinctNames_open_iff (names : List String) :
    (distinctNames names = [] ∨ distinctNames names = [wildcard]) ↔
      ∀ raw ∈ names, Text.trim raw = "" ∨ Text.trim raw = wildcard := by
  constructor
  · intro undirected raw member
    by_contra named
    obtain ⟨solid, other⟩ := not_or.mp named
    have listed : Text.trim raw ∈ distinctNames names := mem_distinctNames.mpr ⟨solid, raw, member, rfl⟩
    rcases undirected with none | single
    · rw [none] at listed
      cases listed
    · rw [single] at listed
      exact other (List.mem_singleton.mp listed)
  · intro every
    have only : ∀ name ∈ distinctNames names, name = wildcard := by
      intro name member
      obtain ⟨solid, raw, listed, rfl⟩ := mem_distinctNames.mp member
      exact (every raw listed).resolve_left solid
    have unique : (distinctNames names).Nodup := normalizeNames_eq names ▸ normalizeNames_nodup names
    rw [List.eq_replicate_of_mem only] at unique ⊢
    have most := List.nodup_replicate.mp unique
    generalize (distinctNames names).length = count at most ⊢
    obtain rfl | rfl : count = 0 ∨ count = 1 := by omega
    · exact .inl rfl
    · exact .inr rfl

theorem outputColumns_eq {targets : List String} {strata : Strata} (distinct : strata.columns.Nodup) :
    outputColumns targets strata = targets ++ strata.columns.filter fun key => key ∉ targets := by
  unfold outputColumns
  generalize strata.columns = keys at distinct ⊢
  induction keys generalizing targets with
  | nil => exact (List.append_nil _).symm
  | cons key rest ih =>
    obtain ⟨new, distinct⟩ := List.nodup_cons.mp distinct
    rw [List.foldl_cons, ih distinct]
    by_cases listed : key ∈ targets
    · simp [listed]
    · have others : rest.filter (fun other => other ∉ targets ++ [key]) =
          rest.filter fun other => other ∉ targets := by
        refine List.filter_congr fun other member => ?_
        have different : other ≠ key := fun same => new (same ▸ member)
        simp [different]
      rw [if_neg (by simpa using listed), others, List.filter_cons_of_pos (by simpa using listed), List.append_assoc,
        List.singleton_append]

namespace Schema
variable {schema : Schema} {name : String}

theorem find?_eq_index? (schema : Schema) (name : String) :
    schema.find? name = (schema.index? name).bind fun index => schema.fields[index]? :=
  List.find?_eq_bind_findIdx?_getElem?

theorem exists_find? (known : name ∈ schema.names) : ∃ field, schema.find? name = some field ∧ field.name = name := by
  obtain ⟨field, member, same⟩ := List.mem_map.mp known
  cases found : schema.find? name with
  | none => exact absurd same (by simpa using List.find?_eq_none.mp found field member)
  | some field => exact ⟨field, rfl, by simpa using List.find?_some found⟩

/-- A field that is added at the end does not change what the names before it stand for. -/
theorem find?_add (known : name ∈ schema.names) (field : Field) : (schema.add field).find? name = schema.find? name := by
  obtain ⟨first, found, -⟩ := exists_find? known
  rw [find?, add, List.find?_append, ← find?, found, Option.some_or]

end Schema

namespace Table

section Fields
variable {table left right result : Table} {names : List String}

theorem schema_ofColumns {schema : Schema} {columns : List Column} (built : ofColumns schema columns = .ok result) :
    result.schema = schema := by
  obtain ⟨-, -, built⟩ := bind_eq_ok built
  obtain ⟨-, built⟩ := check_eq_ok built
  dsimp only at built
  split at built
  · cases built
  · cases built
    rfl

theorem schema_withColumn {field : Field} {column : Column} (built : table.withColumn field column = .ok result) :
    result.schema = table.schema.add field := by
  unfold withColumn at built
  obtain ⟨-, built⟩ := check_eq_ok built
  obtain ⟨-, built⟩ := check_eq_ok built
  cases built
  rfl

theorem schema_withRandomLabel {name : String} {seed : UInt64} (built : table.withRandomLabel name seed = .ok result) :
    result.schema = table.schema.add (.required name .float64) := by
  obtain ⟨-, -, built⟩ := bind_eq_ok built
  exact schema_withColumn built

theorem schema_rowNumber {partitionBy : List String} {name : String}
    (built : table.rowNumber partitionBy name = .ok result) :
    result.schema = table.schema.add (.required name .int64) := by
  obtain ⟨-, -, built⟩ := bind_eq_ok built
  obtain ⟨columns, -, built⟩ := bind_eq_ok built
  exact schema_withColumn built

/-- A projection has the fields that its names stand for. -/
theorem fields_project (built : table.project names = .ok result) :
    result.schema.fields = names.filterMap table.schema.find? := by
  obtain ⟨indices, resolved, built⟩ := bind_eq_ok built
  obtain ⟨projected, made, built⟩ := bind_eq_ok built
  cases built
  have positions : indices = names.filterMap table.schema.index? := by
    unfold Schema.resolve at resolved
    split at resolved <;> cases resolved
    rfl
  rw [schema_ofColumns made, positions, List.filterMap_filterMap]
  exact List.filterMap_congr fun name _ => (table.schema.find?_eq_index? name).symm

theorem fields_sortLimit {orderBy : String} {limit : Nat} (built : table.sortLimit orderBy limit names = .ok result) :
    result.schema.fields = names.filterMap table.schema.find? := by
  obtain ⟨projected, projects, built⟩ := bind_eq_ok built
  obtain ⟨column, -, built⟩ := bind_eq_ok built
  have fields := fields_project projects
  rw [(gather_eq_ok built).2]
  exact fields

/-- The field of an output column of a join. -/
def JoinOutput.field? (left right : Table) : JoinOutput → Option Field
  | .left index => left.schema.fields[index]?
  | .right index => right.schema.fields[index]?

theorem field_joinColumn {pairs : List (Nat × Nat)} {output : JoinOutput} {joined : Option Field × Column}
    (built : joinColumn left right pairs output = .ok joined) : joined.1 = output.field? left right := by
  cases output with
  | left | right =>
    obtain ⟨column, -, built⟩ := bind_eq_ok built
    obtain ⟨gathered, -, built⟩ := bind_eq_ok built
    cases built
    rfl

theorem joinOutput?_field (left right : Table) (name : String) :
    (joinOutput? left right name).bind (JoinOutput.field? left right) =
      (left.schema.find? name).or (right.schema.find? name) := by
  rw [left.schema.find?_eq_index?, right.schema.find?_eq_index?, joinOutput?]
  cases position : left.schema.index? name with
  | none =>
    rw [Option.bind_none, Option.none_or]
    cases right.schema.index? name <;> rfl
  | some index =>
    obtain ⟨inside, -⟩ := List.findIdx?_eq_some_iff_getElem.mp position
    rw [Option.bind_some, Option.bind_some, JoinOutput.field?, List.getElem?_eq_getElem inside, Option.some_or]

/-- A join takes its fields from the left, and only what is not there from the right. -/
theorem fields_join {on : List String} {predicate : Option JoinPredicate}
    (built : left.join right on predicate names = .ok result) :
    result.schema.fields = names.filterMap fun name => (left.schema.find? name).or (right.schema.find? name) := by
  rw [join_eq_pairing] at built
  obtain ⟨-, built⟩ := check_eq_ok built
  obtain ⟨outputs, resolved, built⟩ := bind_eq_ok built
  obtain ⟨pairs, -, built⟩ := bind_eq_ok built
  obtain ⟨columns, taken, built⟩ := bind_eq_ok built
  have sides : outputs = names.filterMap (joinOutput? left right) := by
    unfold joinOutputs at resolved
    split at resolved <;> cases resolved
    rfl
  have fields : columns.map Prod.fst = outputs.map (JoinOutput.field? left right) :=
    map_of_mapM (fun _ _ => field_joinColumn) taken
  calc result.schema.fields = (columns.map Prod.fst).filterMap id := by
        rw [schema_ofColumns built, List.filterMap_map]
        rfl
    _ = names.filterMap fun name => (joinOutput? left right name).bind (JoinOutput.field? left right) := by
        rw [fields, sides, List.filterMap_map, List.filterMap_filterMap]
        rfl
    _ = _ := List.filterMap_congr fun name _ => joinOutput?_field left right name

end Fields

end Table

/-- Whatever a plan adds on its way, its sample has the source's fields of the columns that are asked for. -/
theorem SamplePlan.fields_derive {plan : SamplePlan} {source sample : Table} {strategy : SamplingStrategy}
    (derived : plan.derive source strategy = .ok sample)
    (known : ∀ name ∈ plan.request.outputColumns, name ∈ source.schema.names) :
    sample.schema.fields = plan.request.outputColumns.filterMap source.schema.find? := by
  -- The left side of a join is the source and one more column, so the right side is not asked for these names.
  have joined : ∀ (marked other : Table) field, marked.schema = source.schema.add field →
      ∀ name ∈ plan.request.outputColumns,
        (marked.schema.find? name).or (other.schema.find? name) = source.schema.find? name := by
    intro marked other field same name member
    obtain ⟨found, present, -⟩ := Schema.exists_find? (known name member)
    rw [same, Schema.find?_add (known name member), present, Option.some_or]
  cases strategy with
  | withoutReplacement =>
    obtain ⟨labeled, labels, derived⟩ := bind_eq_ok derived
    have marked := Table.schema_withRandomLabel labels
    unfold selectLabeled at derived
    dsimp only at derived
    split at derived
    · rw [Table.fields_sortLimit derived, marked]
      exact List.filterMap_congr fun name member => Schema.find?_add (known name member) _
    · obtain ⟨thresholds, -, derived⟩ := bind_eq_ok derived
      rw [Table.fields_join derived]
      exact List.filterMap_congr (joined _ _ _ marked)
  | withReplacement =>
    obtain ⟨ranked, ranks, derived⟩ := bind_eq_ok derived
    obtain ⟨draws, -, derived⟩ := bind_eq_ok derived
    obtain ⟨output, joins, derived⟩ := bind_eq_ok derived
    rw [checkDraws_eq_ok derived, Table.fields_join joins]
    exact List.filterMap_congr (joined _ _ _ (Table.schema_rowNumber ranks))

namespace SampleRequest.Accepted

variable {request : SampleRequest} {catalog : Catalog} {table : Table} {valid : ValidRequest}

theorem keys_eq (accepted : request.Accepted catalog table valid) :
    valid.strata.columns = distinctNames (request.keys.getD []) := by
  rw [accepted.settled.strata, Strata.resolve_columns, normalizeNames_eq]

theorem outputs_eq (accepted : request.Accepted catalog table valid) :
    valid.outputColumns = valid.targets ++ valid.strata.columns.filter fun key => key ∉ valid.targets := by
  rw [accepted.settled.outputColumns, outputColumns_eq accepted.keys_nodup]

theorem targets_named (accepted : request.Accepted catalog table valid)
    (named : ∃ raw ∈ request.targets.getD [], Text.trim raw ≠ "" ∧ Text.trim raw ≠ wildcard) :
    valid.targets = distinctNames (request.targets.getD []) := by
  obtain ⟨raw, member, solid, other⟩ := named
  rw [accepted.settled.targets, resolveTargets, normalizeNames_eq, if_neg]
  intro undirected
  exact ((distinctNames_open_iff _).mp undirected raw member).elim solid other

theorem targets_open (accepted : request.Accepted catalog table valid)
    (undirected : ∀ raw ∈ request.targets.getD [], Text.trim raw = "" ∨ Text.trim raw = wildcard) :
    valid.targets = table.schema.names.filter fun name => name ∉ valid.strata.columns := by
  rw [accepted.settled.targets, resolveTargets, normalizeNames_eq, if_pos ((distinctNames_open_iff _).mpr undirected)]
  exact List.filter_congr fun name _ => by simp [Strata.contains]

/-- Without columns asked for, an output has those of the source with the keys moved to the end. -/
theorem outputs_open (accepted : request.Accepted catalog table valid)
    (undirected : ∀ raw ∈ request.targets.getD [], Text.trim raw = "" ∨ Text.trim raw = wildcard) :
    valid.outputColumns =
      (table.schema.names.filter fun name => name ∉ valid.strata.columns) ++ valid.strata.columns := by
  have apart : ∀ key ∈ valid.strata.columns, decide (key ∉ valid.targets) = true := by
    intro key member
    rw [accepted.targets_open undirected]
    simp [member]
  rw [accepted.outputs_eq, List.filter_eq_self.mpr apart, accepted.targets_open undirected]

theorem outputs_perm (accepted : request.Accepted catalog table valid) (distinct : table.schema.names.Nodup)
    (undirected : ∀ raw ∈ request.targets.getD [], Text.trim raw = "" ∨ Text.trim raw = wildcard) :
    valid.outputColumns.Perm table.schema.names := by
  refine (List.perm_ext_iff_of_nodup (accepted.outputs_nodup distinct) distinct).mpr fun name => ?_
  refine ⟨accepted.outputs_known name, fun member => ?_⟩
  rw [accepted.outputs_open undirected, List.mem_append, List.mem_filter]
  by_cases key : name ∈ valid.strata.columns
  · exact .inr key
  · exact .inl ⟨member, by simpa using key⟩

theorem unique {other : ValidRequest} {otherTable : Table} (accepted : request.Accepted catalog table valid)
    (again : request.Accepted catalog otherTable other) : other = valid ∧ otherTable = table := by
  cases again.validate.symm.trans accepted.validate
  cases again.found.symm.trans accepted.found
  exact ⟨rfl, rfl⟩

end SampleRequest.Accepted

theorem Schema.names_of_fields {schema source : Schema} {names : List String}
    (selected : schema.fields = names.filterMap source.find?) (known : ∀ name ∈ names, name ∈ source.names) :
    schema.fields.map some = names.map source.find? ∧ schema.names = names := by
  rw [Schema.names, selected]
  clear selected
  induction names with
  | nil => exact ⟨rfl, rfl⟩
  | cons name rest ih =>
    obtain ⟨field, found, named⟩ := exists_find? (known name List.mem_cons_self)
    obtain ⟨fields, others⟩ := ih fun other member => known other (List.mem_cons_of_mem _ member)
    rw [List.filterMap_cons_some found, List.map_cons, List.map_cons, List.map_cons, fields, others, found, named]
    exact ⟨rfl, rfl⟩

/-- A request that is accepted settles the columns of its output. They are its targets in their order
and then the keys that are not among them, all of them different columns of the source; if the targets
name nothing but the wildcard, all columns of the source, with the keys last. A sample of the
request that succeeds, in any mode, has the source's fields of these names and no other. -/
theorem request_settles_columns {request : SampleRequest} {catalog : Catalog} {valid : ValidRequest} {source : Table}
    (accepted : (Catalog.backend.attempt request.validate catalog).1 = .ok valid)
    (found : catalog.table? valid.source = some source) (distinct : source.schema.names.Nodup) :
    let keys := distinctNames (request.keys.getD [])
    let asked := request.targets.getD []
    let names := source.schema.names
    valid.outputColumns.Nodup ∧ (∀ name ∈ valid.outputColumns, name ∈ names) ∧
      valid.outputColumns = valid.targets ++ (keys.filter fun key => key ∉ valid.targets) ∧
      ((∃ raw ∈ asked, Text.trim raw ≠ "" ∧ Text.trim raw ≠ "*") → valid.targets = distinctNames asked) ∧
      ((∀ raw ∈ asked, Text.trim raw = "" ∨ Text.trim raw = "*") →
        valid.outputColumns = (names.filter fun name => name ∉ keys) ++ keys ∧ valid.outputColumns.Perm names) ∧
      ∀ (sampler counted : Sampler) (circumstances : Circumstances) (report : SampleReport) (after : Catalog),
        sampler.sample Catalog.backend request circumstances catalog = (.ok report, counted, after) →
        ∃ output, after.table? valid.output = some output ∧
          output.schema.fields.map some = valid.outputColumns.map source.schema.find? ∧
          output.schema.names = valid.outputColumns := by
  obtain ⟨table, accepted⟩ := SampleRequest.accepted_of_validate accepted
  cases accepted.found.symm.trans found
  intro keys asked names
  have same : valid.strata.columns = keys := accepted.keys_eq
  refine ⟨accepted.outputs_nodup distinct, accepted.outputs_known, same ▸ accepted.outputs_eq, accepted.targets_named,
    fun undirected => ⟨same ▸ accepted.outputs_open undirected, accepted.outputs_perm distinct undirected⟩, ?_⟩
  intro sampler counted circumstances report after sampled
  obtain ⟨source, plan, output, derives, -, -, written⟩ := Sampler.sample_derives sampled
  obtain ⟨settled, rfl⟩ := accepted.unique derives.accepted
  rw [settled] at written
  have fields := SamplePlan.fields_derive derives.derived derives.accepted.outputs_known
  rw [settled] at fields
  exact ⟨output, written, Schema.names_of_fields fields accepted.outputs_known⟩

namespace LabeledSales

/-- Sales whose own columns have the names that a run would give to columns that it adds. -/
def table : Table :=
  ⟨⟨[.nullable "__strata_label" .string, .nullable "region" .string, .required "__strata_threshold" .int64]⟩,
    [("__strata_label", .string (Table.present ["a", "b", "c"])),
      ("region", .string (Table.present ["north", "north", "south"])),
      ("__strata_threshold", .int64 (Table.present [1, 2, 3]))], 3⟩

def catalog : Catalog := ⟨[(ThreeSales.name, table)]⟩

def request : SampleRequest :=
  ⟨"sales", "sample", ⟨0x3FE0000000000000⟩, some [" region", "", "region"], some [" *", " ", "*"], false⟩

def valid : ValidRequest :=
  ⟨ThreeSales.name, ThreeSales.output, ⟨0x3FE0000000000000⟩, .keys ["region"],
    ["__strata_label", "__strata_threshold"], ["__strata_label", "__strata_threshold", "region"],
    ["__strata_label", "region", "__strata_threshold"], false⟩

theorem keeps_own_columns : ∃ report counted after sample,
    (Sampler.start .standard).sample Catalog.backend request ThreeSales.circumstances catalog =
      (.ok report, counted, after) ∧
    after.table? ThreeSales.output = some sample ∧
    sample.schema.fields =
      [.nullable "__strata_label" .string, .required "__strata_threshold" .int64, .nullable "region" .string] ∧
    sample.schema.names.Perm table.schema.names := by
  have accepted : (Catalog.backend.attempt request.validate catalog).1 = .ok valid := by decide +kernel
  have admitted : Admitted (.start .standard) request ThreeSales.circumstances catalog valid table :=
    ⟨by decide, accepted, rfl, ⟨rfl, by decide, by decide⟩, by unfold FreshToken; decide⟩
  obtain ⟨_, _, report, counted, -, ran, -⟩ := admitted.samples (by decide) (by decide)
  obtain ⟨-, -, -, -, undirected, fields⟩ := request_settles_columns accepted admitted.found (by decide)
  obtain ⟨-, permuted⟩ := undirected (by decide)
  obtain ⟨sample, written, same, names⟩ := fields _ _ _ _ _ ran
  refine ⟨report, counted, _, sample, ran, written, ?_, names ▸ permuted⟩
  exact List.map_injective_iff.mpr (Option.some_injective _) same

end LabeledSales

end StratifiedSampling
