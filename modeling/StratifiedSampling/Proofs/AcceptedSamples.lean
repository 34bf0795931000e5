import StratifiedSampling.Proofs.IntactTables
import StratifiedSampling.Proofs.SampleContents

/-! Requests that the validator accepts. Every strategy can be carried out on a table that was
built from rows, with one exception: draws are joined to their rows, and a join refuses to
make a table without columns. -/

namespace StratifiedSampling

namespace Table

/-- As many rows with the smallest labels as a proportion of all rows comes to. -/
def smallestRows (count : Nat) (seed : UInt64) (proportion : Double) : List Nat :=
  (sortedRows (labelColumn seed count) (List.range count)).take (Counts.drawCount count proportion)

theorem smallestRows_lt {count : Nat} {seed : UInt64} {proportion : Double} :
    ∀ row ∈ smallestRows count seed proportion, row < count := by
  intro row member
  have listed := (sortedRows_perm (labelColumn seed count) (List.range count)).mem_iff.mp (List.mem_of_mem_take member)
  exact List.mem_range.mp listed

end Table

section Plans
variable {plan : SamplePlan} {entries : Entries} {rowCount : Nat} {names : String → RelationName} {catalog : Catalog}

namespace Prepared

theorem smallest_eq (prepared : Prepared plan entries rowCount names catalog) :
    (Table.ofEntries (Planned.labeled plan entries rowCount) rowCount).sortLimit (plan.fresh "__strata_label")
      (Counts.drawCount plan.totalRows plan.request.proportion) plan.request.outputColumns =
      .ok (Planned.sampled plan entries (Table.smallestRows rowCount plan.seed plan.request.proportion)) := by
  have labelNew := prepared.fresh_not_mem "__strata_label"
  have sound : (Planned.labeled plan entries rowCount).Sound rowCount :=
    prepared.sound.append labelNew (Table.size_labelColumn plan.seed rowCount)
  have found : (Planned.labeled plan entries rowCount).lookup? (plan.fresh "__strata_label") = _ :=
    Entries.lookup?_append_new labelNew
  have known : ∀ name ∈ plan.request.outputColumns, name ∈ (Planned.labeled plan entries rowCount).names :=
    fun name member => Entries.mem_names_append (prepared.outputsKnown name member) _
  have outputs : (Planned.labeled plan entries rowCount).select plan.request.outputColumns =
      entries.select plan.request.outputColumns := Entries.select_append_of_mem prepared.outputsKnown _
  have total : plan.totalRows = rowCount := by
    rw [SamplePlan.totalRows, prepared.counted, Table.total_strataSizes]
  have sorted := Table.sortLimit_eq sound known prepared.outputsDistinct found
    (Counts.drawCount rowCount plan.request.proportion) rfl
  rw [outputs] at sorted
  rwa [total]

theorem play_takeSmallest (prepared : Prepared plan entries rowCount names catalog)
    (global : plan.request.strata.isGlobal = true) (start : Staging)
    (named : Staging.nameOf start.stagingPrefix start.token = names) (empty : start.staged = [])
    (uncommitted : start.committed = false) :
    let rows := Table.smallestRows rowCount plan.seed plan.request.proportion
    ∃ area worked, Staged.play Catalog.backend plan.withoutReplacement start catalog = ((.ok rows.length, area), worked) ∧
      Written catalog plan.request.output (Planned.sampled plan entries rows) area worked := by
  intro rows
  have derived : plan.derive (.ofEntries entries rowCount) .withoutReplacement =
      .ok (Planned.sampled plan entries rows) := by
    rw [prepared.derive_withoutReplacement]
    unfold SamplePlan.selectLabeled
    simp only [global, if_true]
    exact prepared.smallest_eq
  exact prepared.play_of_derived derived (.start named empty uncommitted)

/-- Without output columns the draws are staged, but the last join is refused. -/
theorem play_withReplacement_refused (prepared : Prepared plan entries rowCount names catalog)
    (bare : plan.request.outputColumns = []) {start : Staging} (beginning : Ahead catalog names [] start) :
    ∃ area worked, Staged.play Catalog.backend plan.withReplacement start catalog =
      ((.error (.invalidArgument "join must project at least one column"), area), worked) := by
  have refused : plan.derive (.ofEntries entries rowCount) .withReplacement =
      .error (.invalidArgument "join must project at least one column") := by
    rw [prepared.derive_withReplacement, bare]
    rfl
  have mirrors := plan.execute_mirrors beginning prepared.found prepared.absent .withReplacement
  rw [refused] at mirrors
  exact mirrors.refuses prepared.apart

end Prepared

end Plans

/-- The rows that a run takes. -/
def sampledRows (strata : Strata) (withReplacement : Bool) (columns : List Column) (count : Nat) (seed : UInt64)
    (proportion : Double) : List Nat :=
  if withReplacement then Table.drawnSelection columns count seed proportion
  else if strata.isGlobal then Table.smallestRows count seed proportion
  else Table.nearestRows columns count seed proportion

/-- Keys are resolved to the global stratum only if no name is left of them. -/
theorem Strata.isGlobal_resolve {keys : List String} :
    (Strata.resolve keys).isGlobal = true ↔ (Strata.resolve keys).columns = [] := by
  unfold Strata.resolve
  split
  next => exact ⟨fun _ => rfl, fun _ => rfl⟩
  next some =>
    constructor
    · intro global
      cases global
    · intro none
      exact absurd none some

section Runs
variable {sampler : Sampler} {request : SampleRequest} {circumstances : Circumstances} {catalog : Catalog}
  {valid : ValidRequest} {source : Table}

namespace Admitted

/-- A source that has the keys of a request has columns. -/
theorem filled_of_keyed (admitted : Admitted sampler request circumstances catalog valid source)
    (keyed : valid.strata.isGlobal = false) : source.columns ≠ [] := by
  have keysFilled : valid.strata.columns ≠ [] := by
    intro none
    rw [admitted.resolved.settled.strata] at keyed none
    rw [Strata.isGlobal_resolve.mpr none] at keyed
    cases keyed
  obtain ⟨key, listed⟩ := List.exists_mem_of_ne_nil _ keysFilled
  have known : key ∈ source.columns.map Prod.fst := admitted.formed.named ▸ admitted.resolved.keys_known key listed
  obtain ⟨entry, member, -⟩ := List.mem_map.mp known
  exact List.ne_nil_of_mem member

/-- An admitted run samples its source, if it need not join rows without columns. -/
theorem samples (admitted : Admitted sampler request circumstances catalog valid source)
    (small : request.withReplacement = true → source.rowCount < UInt64.size)
    (filled : request.withReplacement = true → source.columns ≠ []) :
    ∃ keys output report counted, source.resolveColumns valid.strata.columns = .ok keys ∧
      sampler.sample Catalog.backend request circumstances catalog =
        (.ok report, counted, catalog.with_ [(valid.output, output)]) ∧
      Samples source valid keys (sampledRows valid.strata request.withReplacement keys source.rowCount
        (Feasible.seedOf sampler circumstances) request.proportion) output report := by
  obtain ⟨entries, rowCount, rfl, counted, prepared⟩ := admitted.prepared
  have keys : (Table.ofEntries entries rowCount).resolveColumns valid.strata.columns = .ok _ :=
    Table.resolveColumns_eq prepared.keysKnown
  refine ⟨(entries.select valid.strata.columns).columns, ?_⟩
  rw [← admitted.resolved.settled.proportion]
  cases mode : request.withReplacement with
  | true =>
    have planned : Planned _ entries rowCount _ catalog := ⟨prepared, admitted.outputs_filled (filled mode)⟩
    obtain ⟨area, worked, played, written⟩ := planned.play_withReplacement (small mode)
      (.start sampler.config.stagingPrefix circumstances.token) rfl rfl rfl
    obtain ⟨output, report, after, ran, samples⟩ := admitted.samples_of_play rfl counted prepared
      (fun row => Table.mem_drawnSelection) (by rw [mode]; exact played) written
    exact ⟨output, report, after, keys, ran, samples⟩
  | false =>
    cases strata : valid.strata.isGlobal with
    | true =>
      obtain ⟨area, worked, played, written⟩ := prepared.play_takeSmallest strata
        (.start sampler.config.stagingPrefix circumstances.token) rfl rfl rfl
      obtain ⟨output, report, after, ran, samples⟩ := admitted.samples_of_play rfl counted prepared
        Table.smallestRows_lt (by rw [mode]; exact played) written
      simp only [sampledRows, strata, Bool.false_eq_true, if_false, if_true]
      exact ⟨output, report, after, keys, ran, samples⟩
    | false =>
      have planned : Planned _ entries rowCount _ catalog := ⟨prepared, admitted.outputs_filled (admitted.filled_of_keyed strata)⟩
      obtain ⟨area, worked, played, written⟩ := planned.play_withoutReplacement strata
        (.start sampler.config.stagingPrefix circumstances.token) rfl rfl rfl
      obtain ⟨output, report, after, ran, samples⟩ := admitted.samples_of_play rfl counted prepared
        (fun row member => (Table.mem_nearestRows.mp member).1) (by rw [mode]; exact played) written
      simp only [sampledRows, strata, Bool.false_eq_true, if_false]
      exact ⟨output, report, after, keys, ran, samples⟩

/-- Draws cannot be resolved on a source without columns. The run fails, and leaves nothing. -/
theorem refused (admitted : Admitted sampler request circumstances catalog valid source)
    (replacing : request.withReplacement = true) (bare : source.columns = []) :
    ∃ counted, sampler.sample Catalog.backend request circumstances catalog =
      (.error (.invalidArgument "join must project at least one column"), counted, catalog) := by
  obtain ⟨entries, rowCount, rfl, counted, prepared⟩ := admitted.prepared
  have outputs : valid.outputColumns = [] := by
    refine List.eq_nil_iff_forall_not_mem.mpr fun name listed => ?_
    obtain ⟨entry, member, -⟩ := List.mem_map.mp (prepared.outputsKnown name listed)
    rw [List.map_eq_nil_iff.mp bare] at member
    cases member
  obtain ⟨area, worked, played⟩ := prepared.play_withReplacement_refused outputs
    (Sampler.beginning sampler.config circumstances.token catalog)
  have plays : Staged.play Catalog.backend ((Feasible.plan sampler circumstances valid entries rowCount).execute
      (.ofRequest valid.withReplacement)) (.start sampler.config.stagingPrefix circumstances.token) catalog =
      ((.error (.invalidArgument "join must project at least one column"), area), worked) := by
    rw [admitted.resolved.settled.withReplacement, replacing]
    exact played
  have failed := Sampler.outcome_of_failed_work admitted.settings admitted.accepted admitted.found counted plays
  rcases ran : sampler.sample Catalog.backend request circumstances catalog with ⟨outcome, after, final⟩
  rw [ran] at failed
  cases failed
  have unchanged : final = catalog := sampler.sample_atomic admitted.fresh ran
  exact ⟨after, by rw [unchanged]⟩

end Admitted

end Runs

/-- On a catalog of tables that were built from rows, a run whose settings are valid, whose token
is fresh and whose request the validator accepts succeeds, unless it samples a table without
columns with replacement. Then, and only then, it fails, with the refusal of the last join. -/
theorem accepted_request_samples {sampler : Sampler} {request : SampleRequest} {circumstances : Circumstances}
    {catalog : Catalog} {valid : ValidRequest}
    (built : ∀ entry ∈ catalog.relations, ∃ schema rows, Table.ofRows schema rows = .ok entry.2)
    (small : request.withReplacement = true → ∀ entry ∈ catalog.relations, entry.2.rowCount < UInt64.size)
    (settings : sampler.config.validate = .ok ())
    (fresh : FreshToken sampler.config.stagingPrefix circumstances.token request.output catalog)
    (accepted : (Catalog.backend.attempt request.validate catalog).1 = .ok valid) :
    ∃ source, catalog.table? valid.source = some source ∧
      (¬(request.withReplacement = true ∧ source.columns = []) → ∃ output report counted,
        sampler.sample Catalog.backend request circumstances catalog =
          (.ok report, counted, catalog.with_ [(valid.output, output)])) ∧
      (request.withReplacement = true ∧ source.columns = [] → ∃ counted,
        sampler.sample Catalog.backend request circumstances catalog =
          (.error (.invalidArgument "join must project at least one column"), counted, catalog)) := by
  obtain ⟨source, conditions⟩ := SampleRequest.accepted_of_validate accepted
  obtain ⟨entry, first, rfl⟩ := Option.map_eq_some_iff.mp conditions.found
  have member := List.mem_of_find?_eq_some first
  obtain ⟨schema, rows, made⟩ := built entry member
  have admitted : Admitted sampler request circumstances catalog valid entry.2 :=
    ⟨settings, accepted, conditions.found, (Table.intact_ofRows made).1.toWellFormed, fresh⟩
  refine ⟨entry.2, conditions.found, fun possible => ?_, fun bare => admitted.refused bare.1 bare.2⟩
  obtain ⟨keys, output, report, counted, -, ran, -⟩ := admitted.samples (fun replacing => small replacing entry member)
    fun replacing bare => possible ⟨replacing, bare⟩
  exact ⟨output, report, counted, ran⟩

namespace BlankRows

/-- Two rows without cells, in a table without columns. -/
def table : Table := ⟨⟨[]⟩, [], 2⟩

def name : RelationName := ⟨"rows", by decide, by decide⟩

def catalog : Catalog := ⟨[(name, table)]⟩

def request (withReplacement : Bool) : SampleRequest :=
  ⟨"rows", "sample", ⟨0x3FE0000000000000⟩, none, none, withReplacement⟩

def valid (withReplacement : Bool) : ValidRequest :=
  ⟨name, ThreeSales.output, ⟨0x3FE0000000000000⟩, .global, [], [], [], withReplacement⟩

theorem fresh (withReplacement : Bool) : FreshToken (Sampler.start .standard).config.stagingPrefix
    ThreeSales.circumstances.token (request withReplacement).output catalog := by
  unfold FreshToken
  cases withReplacement <;> decide

theorem accepted (withReplacement : Bool) :
    (Catalog.backend.attempt (request withReplacement).validate catalog).1 = .ok (valid withReplacement) := by
  cases withReplacement <;> decide +kernel

/-- The validator accepts draws from these rows, but the run is refused. -/
theorem accepted_but_refused :
    Table.ofRows ⟨[]⟩ [[], []] = .ok table ∧ (Sampler.start .standard).config.validate = .ok () ∧
    FreshToken (Sampler.start .standard).config.stagingPrefix "t1" "sample" catalog ∧
    (Catalog.backend.attempt (request true).validate catalog).1 = .ok (valid true) ∧
    ∃ counted, (Sampler.start .standard).sample Catalog.backend (request true) ThreeSales.circumstances catalog =
      (.error (.invalidArgument "join must project at least one column"), counted, catalog) := by
  have admitted : Admitted (.start .standard) (request true) ThreeSales.circumstances catalog (valid true) table :=
    ⟨by decide, accepted true, rfl, ⟨rfl, by decide, by decide⟩, fresh true⟩
  exact ⟨rfl, by decide, fresh true, accepted true, admitted.refused rfl rfl⟩

theorem sampled_without_replacement : ∃ sample report counted,
    (Sampler.start .standard).sample Catalog.backend (request false) ThreeSales.circumstances catalog =
      (.ok report, counted, catalog.with_ [(ThreeSales.output, sample)]) := by
  have built : ∀ entry ∈ catalog.relations, ∃ schema rows, Table.ofRows schema rows = .ok entry.2 := by
    intro entry member
    rw [List.mem_singleton.mp member]
    exact ⟨⟨[]⟩, [[], []], rfl⟩
  have settings : (Sampler.start .standard).config.validate = .ok () := by decide
  have small : (request false).withReplacement = true → ∀ entry ∈ catalog.relations, entry.2.rowCount < UInt64.size := by
    intro replacing
    cases replacing
  obtain ⟨source, -, samples, -⟩ := accepted_request_samples built small settings (fresh false) (accepted false)
  exact samples fun replacing => nomatch replacing.1

end BlankRows

end StratifiedSampling
