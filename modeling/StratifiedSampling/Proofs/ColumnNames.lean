import Std.Data.String.ToNat
import StratifiedSampling.Proofs.Validation
import StratifiedSampling.Sampling.Plan

/-! Column names of a run: the keys and the output columns of a valid request, and the
names that are made up for columns of the run's own. -/

namespace StratifiedSampling

/-- One of the candidates is free, because there are more of them than names taken. -/
theorem freshColumn_not_mem (base : String) (taken : List String) : freshColumn base taken ∉ taken := by
  unfold freshColumn
  split
  next used =>
    have baseTaken : base ∈ taken := by simpa using used
    dsimp only
    cases found : ((List.range taken.length).map fun index => base ++ "_" ++ toString (index + 1)).find?
        fun candidate => !taken.contains candidate with
    | some candidate => simpa using List.find?_some found
    | none =>
      exfalso
      have distinct : (base :: (List.range taken.length).map fun index =>
          base ++ "_" ++ toString (index + 1)).Nodup := by
        refine List.nodup_cons.mpr ⟨?_, ?_⟩
        · intro member
          obtain ⟨index, -, same⟩ := List.mem_map.mp member
          have lengths := congrArg (fun text => text.toList.length) same
          simp at lengths
        · refine List.Pairwise.map _ ?_ List.nodup_range
          intro first second different same
          have numbers : toString (first + 1) = toString (second + 1) := by
            simpa [String.ext_iff] using same
          have equal : first + 1 = second + 1 := Nat.repr_injective numbers
          omega
      have inside : ∀ name ∈ base :: (List.range taken.length).map (fun index =>
          base ++ "_" ++ toString (index + 1)), name ∈ taken := by
        intro name member
        rcases List.mem_cons.mp member with rfl | member
        · exact baseTaken
        · simpa using List.find?_eq_none.mp found name member
      have bounded := distinct.length_le_of_subset inside
      simp only [List.length_cons, List.length_map, List.length_range] at bounded
      omega
  next unused => simpa using unused

theorem addNames_nodup {seen names : List String} (distinct : seen.Nodup) : (addNames seen names).Nodup := by
  induction names generalizing seen with
  | nil => exact distinct
  | cons raw rest ih =>
    unfold addNames
    dsimp only
    split
    · exact ih distinct
    next new =>
      refine ih (List.nodup_append.mpr ⟨distinct, by simp, ?_⟩)
      rintro name member other last rfl
      exact new (.inr (List.mem_singleton.mp last ▸ member))

theorem normalizeNames_nodup (names : List String) : (normalizeNames names).Nodup :=
  addNames_nodup List.nodup_nil

theorem Strata.resolve_columns (keys : List String) : (Strata.resolve keys).columns = normalizeNames keys := by
  unfold resolve
  split
  next none => rw [none]; rfl
  next => rfl

theorem resolveTargets_nodup {sourceColumns : List String} (distinct : sourceColumns.Nodup) (strata : Strata)
    (targets : List String) : (resolveTargets sourceColumns strata targets).Nodup := by
  unfold resolveTargets
  dsimp only
  split
  · exact distinct.filter _
  · exact normalizeNames_nodup _

theorem foldl_missing_eq_nil {sourceColumns names missing : List String}
    (none : names.foldl (fun missing name =>
      if sourceColumns.contains name || missing.contains name then missing else missing ++ [name]) missing = []) :
    missing = [] ∧ ∀ name ∈ names, name ∈ sourceColumns := by
  induction names generalizing missing with
  | nil => exact ⟨none, by simp⟩
  | cons name rest ih =>
    obtain ⟨nothing, others⟩ := ih none
    have known : missing = [] ∧ name ∈ sourceColumns := by
      dsimp only at nothing
      split at nothing
      next known => subst nothing; simpa using known
      next => simp at nothing
    refine ⟨known.1, fun other member => ?_⟩
    rcases List.mem_cons.mp member with rfl | member
    · exact known.2
    · exact others other member

theorem outputColumns_nodup {targets : List String} (distinct : targets.Nodup) (strata : Strata) :
    (outputColumns targets strata).Nodup := by
  unfold outputColumns
  induction strata.columns generalizing targets with
  | nil => exact distinct
  | cons key rest ih =>
    rw [List.foldl_cons]
    apply ih
    split
    · exact distinct
    next new =>
      refine List.nodup_append.mpr ⟨distinct, by simp, ?_⟩
      rintro name member other last rfl
      rw [List.mem_singleton.mp last] at member
      exact new (by simpa using member)

theorem mem_outputColumns {targets : List String} {strata : Strata} {name : String} :
    name ∈ outputColumns targets strata ↔ name ∈ targets ∨ name ∈ strata.columns := by
  unfold outputColumns
  induction strata.columns generalizing targets with
  | nil => simp
  | cons key rest ih =>
    rw [List.foldl_cons, ih]
    split
    next known =>
      have listed : key ∈ targets := by simpa using known
      rw [List.mem_cons]
      constructor
      · rintro (member | member)
        · exact .inl member
        · exact .inr (.inr member)
      · rintro (member | rfl | member)
        · exact .inl member
        · exact .inl listed
        · exact .inr member
    next => simp [or_assoc]

namespace SampleRequest.Accepted

variable {request : SampleRequest} {catalog : Catalog} {table : Table} {valid : ValidRequest}

theorem sourceColumns (accepted : request.Accepted catalog table valid) :
    valid.sourceColumns = table.schema.names :=
  accepted.settled.sourceColumns

theorem keys_nodup (accepted : request.Accepted catalog table valid) : valid.strata.columns.Nodup := by
  rw [accepted.settled.strata, Strata.resolve_columns]
  exact normalizeNames_nodup _

theorem columns_known (accepted : request.Accepted catalog table valid) :
    ∀ name ∈ valid.strata.columns ++ valid.targets, name ∈ table.schema.names :=
  (foldl_missing_eq_nil accepted.settled.complete).2

theorem keys_known (accepted : request.Accepted catalog table valid) :
    ∀ name ∈ valid.strata.columns, name ∈ table.schema.names :=
  fun name member => accepted.columns_known name (List.mem_append_left _ member)

theorem outputs_known (accepted : request.Accepted catalog table valid) :
    ∀ name ∈ valid.outputColumns, name ∈ table.schema.names := by
  intro name member
  rw [accepted.settled.outputColumns, mem_outputColumns] at member
  refine accepted.columns_known name (List.mem_append.mpr ?_)
  exact member.symm

theorem outputs_nodup (accepted : request.Accepted catalog table valid) (distinct : table.schema.names.Nodup) :
    valid.outputColumns.Nodup := by
  rw [accepted.settled.outputColumns, accepted.settled.targets]
  exact outputColumns_nodup (resolveTargets_nodup distinct _ _) _

/-- Some column is asked for if the source has any. -/
theorem outputs_ne_nil (accepted : request.Accepted catalog table valid) (filled : table.schema.names ≠ []) :
    valid.outputColumns ≠ [] := by
  have targets := accepted.settled.targets
  have listed : ∃ name, name ∈ valid.targets ∨ name ∈ valid.strata.columns := by
    by_cases all : normalizeNames (request.targets.getD []) = [] ∨
        normalizeNames (request.targets.getD []) = [wildcard]
    · obtain ⟨name, rest, same⟩ := List.exists_cons_of_ne_nil filled
      have member : name ∈ table.schema.names := by rw [same]; exact List.mem_cons_self
      refine ⟨name, ?_⟩
      rw [targets, resolveTargets, if_pos all, List.mem_filter]
      by_cases key : name ∈ valid.strata.columns
      · exact .inr key
      · exact .inl ⟨member, by simpa [Strata.contains] using key⟩
    · obtain ⟨name, rest, same⟩ := List.exists_cons_of_ne_nil fun none => all (.inl none)
      refine ⟨name, .inl ?_⟩
      rw [targets, resolveTargets, if_neg all, same]
      exact List.mem_cons_self
  obtain ⟨name, member⟩ := listed
  intro none
  rw [← mem_outputColumns, ← accepted.settled.outputColumns, none] at member
  cases member

end SampleRequest.Accepted

end StratifiedSampling
