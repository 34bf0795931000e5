import StratifiedSampling.Proofs.Validation

/-! Runs of the sampler on the in-memory catalog. Each creation adds one relation or
none, so the relations of a run are those that were there followed by its own. Dropping
the names of its own relations leaves those that were there. -/

namespace StratifiedSampling

namespace Catalog

def with_ (catalog : Catalog) (made : List (RelationName × Table)) : Catalog :=
  ⟨catalog.relations ++ made⟩

@[simp] theorem with_nil (catalog : Catalog) : catalog.with_ [] = catalog := by
  simp [with_]

@[simp] theorem with_with (catalog : Catalog) (first second : List (RelationName × Table)) :
    (catalog.with_ first).with_ second = catalog.with_ (first ++ second) := by
  simp [with_]

theorem table?_with {catalog : Catalog} {name : RelationName} {table : Table}
    {made : List (RelationName × Table)} (found : catalog.table? name = some table) :
    (catalog.with_ made).table? name = some table := by
  obtain ⟨entry, first, rfl⟩ := Option.map_eq_some_iff.mp found
  simp [table?, with_, List.find?_append, first]

theorem contains_with (catalog : Catalog) (made : List (RelationName × Table)) (name : RelationName) :
    (catalog.with_ made).contains name = (catalog.contains name || made.any fun entry => entry.1 == name) := by
  simp [contains, with_]

/-- What is added under names that are new and differ is found under them. -/
theorem table?_with_of_mem {catalog : Catalog} {made : List (RelationName × Table)} {entry : RelationName × Table}
    (absent : catalog.contains entry.1 = false) (distinct : (made.map Prod.fst).Nodup) (member : entry ∈ made) :
    (catalog.with_ made).table? entry.1 = some entry.2 := by
  have missing : catalog.relations.find? (fun other => other.1 == entry.1) = none := by
    simpa [contains, List.find?_eq_none] using absent
  have found : made.find? (fun other => other.1 == entry.1) = some entry := by
    clear absent missing
    induction made with
    | nil => cases member
    | cons first rest ih =>
      obtain ⟨new, others⟩ := List.nodup_cons.mp distinct
      rcases List.mem_cons.mp member with rfl | member
      · exact List.find?_cons_of_pos (by simp)
      · have apart : first.1 ≠ entry.1 := fun same => new (List.mem_map.mpr ⟨entry, member, same.symm⟩)
        rw [List.find?_cons_of_neg (by simpa using apart)]
        exact ih others member
  simp [table?, with_, List.find?_append, missing, found]

theorem table?_added {catalog : Catalog} {name : RelationName} (absent : catalog.contains name = false) (table : Table) :
    (catalog.with_ [(name, table)]).table? name = some table :=
  table?_with_of_mem absent (by simp) (List.mem_singleton_self (name, table))

theorem create_of_evaluate {catalog : Catalog} {name : RelationName} {spec : RelationSpec} {table : Table}
    (absent : catalog.contains name = false) (evaluated : catalog.evaluate spec = .ok table) :
    Catalog.backend.answer (.create name spec) catalog = (.ok table.rowCount, catalog.with_ [(name, table)]) := by
  have created : catalog.create name spec = .ok (catalog.with_ [(name, table)], table.rowCount) := by
    simp only [create, absent, evaluated]
    rfl
  simp only [Catalog.backend, created]

theorem create_of_evaluate_error {catalog : Catalog} {name : RelationName} {spec : RelationSpec} {error : Error}
    (absent : catalog.contains name = false) (failed : catalog.evaluate spec = .error error) :
    Catalog.backend.answer (.create name spec) catalog = (.error error, catalog) := by
  have refused : catalog.create name spec = .error error := by
    simp only [create, absent, failed]
    rfl
  simp only [Catalog.backend, refused]

/-- A creation either fails and changes nothing, or adds the relation that its spec evaluates to. -/
theorem create_cases (catalog : Catalog) (name : RelationName) (spec : RelationSpec) :
    (∃ error, (catalog.contains name = true → error = .alreadyExists name.text) ∧
      Catalog.backend.answer (.create name spec) catalog = (.error error, catalog)) ∨
      ∃ table, catalog.contains name = false ∧ catalog.evaluate spec = .ok table ∧
        Catalog.backend.answer (.create name spec) catalog = (.ok table.rowCount, catalog.with_ [(name, table)]) := by
  cases absent : catalog.contains name with
  | true =>
    have refused : catalog.create name spec = .error (.alreadyExists name.text) := by
      simp only [create, absent]
      rfl
    exact .inl ⟨.alreadyExists name.text, fun _ => rfl, by simp only [Catalog.backend, refused]⟩
  | false =>
    cases evaluated : catalog.evaluate spec with
    | ok table => exact .inr ⟨table, rfl, rfl, create_of_evaluate absent evaluated⟩
    | error error => exact .inl ⟨error, nofun, create_of_evaluate_error absent evaluated⟩

theorem run_dropAll (names : List RelationName) (catalog : Catalog) :
    (Catalog.backend.run (Staging.dropAll names) catalog).2 =
      ⟨catalog.relations.filter fun entry => !names.contains entry.1⟩ := by
  induction names generalizing catalog with
  | nil =>
    rw [List.filter_eq_self.mpr (by simp)]
    rfl
  | cons name rest ih =>
    change (Catalog.backend.run (Staging.dropAll rest) (catalog.drop name)).2 = _
    rw [ih]
    simp only [drop, List.filter_filter, List.contains_cons, Bool.not_or, bne]
    congr 2
    funext entry
    exact Bool.and_comm _ _

/-- Dropping names that a catalog does not have takes away what was added under them. -/
theorem drop_with {catalog : Catalog} {names : List RelationName} (made : List (RelationName × Table))
    (absent : ∀ name ∈ names, catalog.contains name = false) :
    (Catalog.backend.run (Staging.dropAll names) (catalog.with_ made)).2 =
      catalog.with_ (made.filter fun entry => !names.contains entry.1) := by
  have old : ∀ entry ∈ catalog.relations, entry.1 ∉ names := by
    intro entry member listed
    have present : catalog.contains entry.1 = true := List.any_eq_true.mpr ⟨entry, member, by simp⟩
    simp [absent entry.1 listed] at present
  rw [run_dropAll]
  simp only [with_, List.filter_append]
  rw [List.filter_eq_self.mpr (by simpa using old)]

theorem drop_made {catalog : Catalog} {names : List RelationName} {dropped kept : List (RelationName × Table)}
    (absent : ∀ name ∈ names, catalog.contains name = false)
    (named : ∀ entry ∈ dropped, entry.1 ∈ names) (others : ∀ entry ∈ kept, entry.1 ∉ names) :
    (Catalog.backend.run (Staging.dropAll names) (catalog.with_ (dropped ++ kept))).2 = catalog.with_ kept := by
  rw [drop_with _ absent, List.filter_append, List.filter_eq_nil_iff.mpr (by simpa using named),
    List.filter_eq_self.mpr (by simpa using others), List.nil_append]

end Catalog

end StratifiedSampling
