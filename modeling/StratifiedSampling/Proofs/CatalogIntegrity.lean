import StratifiedSampling.Proofs.CatalogAtomicity
import StratifiedSampling.Proofs.IntactTables

/-! The life of a catalog. Whatever is inserted, created and dropped in it, and in whatever
order, its tables stay intact; a call that fails changes nothing, and a table that is there
stays as it is until it is dropped. -/

namespace StratifiedSampling

inductive CatalogChange where
  | insert (name : RelationName) (table : Table)
  | create (name : RelationName) (spec : RelationSpec)
  | drop (name : RelationName)

namespace CatalogChange

/-- One call, with its reply and the catalog after it. Creations reply with a number of rows. -/
def run : CatalogChange → Catalog → Except Error (Option Nat) × Catalog
  | insert name table, catalog =>
    match catalog.insert name table with
    | .ok inserted => (.ok none, inserted)
    | .error error => (.error error, catalog)
  | create name spec, catalog =>
    let (reply, after) := Catalog.backend.answer (.create name spec) catalog
    (reply.map some, after)
  | drop name, catalog =>
    let (reply, after) := Catalog.backend.answer (.drop name) catalog
    (reply.map fun _ => none, after)

def runAll (changes : List CatalogChange) (catalog : Catalog) : Catalog :=
  changes.foldl (fun catalog change => (change.run catalog).2) catalog

end CatalogChange

namespace Catalog

/-- Names are taken once, and every table is intact. -/
structure Intact (catalog : Catalog) : Prop where
  distinct : (catalog.relations.map Prod.fst).Nodup
  tables : ∀ entry ∈ catalog.relations, entry.2.Intact

theorem Intact.empty : empty.Intact :=
  ⟨List.nodup_nil, by simp [Catalog.empty]⟩

theorem Intact.table {catalog : Catalog} {name : RelationName} {table : Table} (intact : catalog.Intact)
    (found : catalog.table name = .ok table) : table.Intact := by
  obtain ⟨entry, first, rfl⟩ := Option.map_eq_some_iff.mp (table?_of_table found)
  exact intact.tables entry (List.mem_of_find?_eq_some first)

theorem Intact.with_ {catalog : Catalog} {name : RelationName} {table : Table} (intact : catalog.Intact)
    (absent : catalog.contains name = false) (new : table.Intact) : (catalog.with_ [(name, table)]).Intact where
  distinct := by
    have apart : ∀ entry ∈ catalog.relations, entry.1 ≠ name := by simpa [contains] using absent
    simp only [Catalog.with_, List.map_append, List.map_cons, List.map_nil]
    refine List.nodup_append.mpr ⟨intact.distinct, by simp, ?_⟩
    intro first listed second last same
    obtain ⟨entry, member, rfl⟩ := List.mem_map.mp listed
    exact apart entry member (same.trans (List.mem_singleton.mp last))
  tables := by
    intro entry member
    rcases List.mem_append.mp member with member | member
    · exact intact.tables entry member
    · exact List.mem_singleton.mp member ▸ new

theorem Intact.drop {catalog : Catalog} (intact : catalog.Intact) (name : RelationName) : (catalog.drop name).Intact where
  distinct := (List.filter_sublist.map Prod.fst).nodup intact.distinct
  tables := fun entry member => intact.tables entry (List.mem_of_mem_filter member)

/-- A spec that can be evaluated gives an intact table, whatever it asks for. -/
theorem Intact.evaluate {catalog : Catalog} (intact : catalog.Intact) {spec : RelationSpec} {table : Table}
    (evaluated : catalog.evaluate spec = .ok table) : table.Intact := by
  cases spec with
  | project =>
    obtain ⟨source, found, built⟩ := bind_eq_ok evaluated
    exact (intact.table found).project built
  | randomLabel =>
    obtain ⟨source, found, built⟩ := bind_eq_ok evaluated
    exact (intact.table found).withRandomLabel built
  | groupQuantile =>
    obtain ⟨source, found, built⟩ := bind_eq_ok evaluated
    exact (intact.table found).groupQuantile built
  | rowNumber =>
    obtain ⟨source, found, built⟩ := bind_eq_ok evaluated
    exact (intact.table found).rowNumber built
  | groupDraws =>
    obtain ⟨source, found, built⟩ := bind_eq_ok evaluated
    exact (intact.table found).groupDraws built
  | join =>
    obtain ⟨left, leftFound, evaluated⟩ := bind_eq_ok evaluated
    obtain ⟨right, rightFound, built⟩ := bind_eq_ok evaluated
    exact (intact.table leftFound).join (intact.table rightFound) built
  | sortLimit =>
    obtain ⟨source, found, built⟩ := bind_eq_ok evaluated
    exact (intact.table found).sortLimit built

theorem table?_drop {catalog : Catalog} {name other : RelationName} (apart : other ≠ name) :
    (catalog.drop name).table? other = catalog.table? other := by
  simp only [table?, drop, List.find?_filter]
  congr 2
  funext entry
  by_cases same : entry.1 = other <;> simp [same, apart]

theorem table?_drop_self (catalog : Catalog) (name : RelationName) : (catalog.drop name).table? name = none := by
  simp [table?, drop]

theorem insert_eq_ok {catalog after : Catalog} {name : RelationName} {table : Table}
    (inserted : catalog.insert name table = .ok after) :
    catalog.contains name = false ∧ after = catalog.with_ [(name, table)] := by
  obtain ⟨-, -, inserted⟩ := bind_eq_ok inserted
  obtain ⟨absent, inserted⟩ := check_eq_ok inserted
  cases inserted
  exact ⟨by simpa using absent, rfl⟩

end Catalog

namespace CatalogChange

/-- What one call does to the catalog: it adds a relation of a new name, drops one, or fails. -/
theorem run_cases (change : CatalogChange) (before : Catalog) :
    (∃ error, change.run before = (.error error, before)) ∨
    (∃ name table, change = insert name table ∧ before.contains name = false ∧
      change.run before = (.ok none, before.with_ [(name, table)])) ∨
    (∃ name spec table, change = create name spec ∧ before.contains name = false ∧
      before.evaluate spec = .ok table ∧
      change.run before = (.ok (some table.rowCount), before.with_ [(name, table)])) ∨
    ∃ name, change = drop name ∧ change.run before = (.ok none, before.drop name) := by
  cases change with
  | insert name table =>
    cases inserted : before.insert name table with
    | error error => exact .inl ⟨error, by simp [run, inserted]⟩
    | ok after =>
      obtain ⟨absent, rfl⟩ := Catalog.insert_eq_ok inserted
      exact .inr (.inl ⟨name, table, rfl, absent, by simp [run, inserted]⟩)
  | create name spec =>
    rcases Catalog.create_cases before name spec with ⟨error, -, reply⟩ | ⟨table, absent, evaluated, reply⟩
    · exact .inl ⟨error, by rw [run, reply]; rfl⟩
    · exact .inr (.inr (.inl ⟨name, spec, table, rfl, absent, evaluated, by rw [run, reply]; rfl⟩))
  | drop name => exact .inr (.inr (.inr ⟨name, rfl, rfl⟩))

/-- A call that fails changes nothing; a creation replies with the rows of the table it has
stored; tables stay until a call drops their name. -/
structure Lawful (change : CatalogChange) (before : Catalog) (reply : Except Error (Option Nat)) (after : Catalog) :
    Prop where
  failed : ∀ error, reply = .error error → after = before
  stored : ∀ name spec rows, change = create name spec → reply = .ok rows →
    ∃ table, after.table? name = some table ∧ rows = some table.rowCount
  kept : ∀ name table, before.table? name = some table → change ≠ drop name → after.table? name = some table
  dropped : ∀ name, change = drop name → after.table? name = none

theorem run_lawful (change : CatalogChange) (before : Catalog) :
    Lawful change before (change.run before).1 (change.run before).2 where
  failed := by
    intro error failed
    rcases run_cases change before with ⟨_, ran⟩ | ⟨_, _, -, -, ran⟩ | ⟨_, _, _, -, -, -, ran⟩ | ⟨_, -, ran⟩
    · rw [ran]
    all_goals
      rw [ran] at failed
      cases failed
  stored := by
    rintro name spec rows rfl wrote
    rcases run_cases (create name spec) before with ⟨_, ran⟩ | ⟨_, _, same, -⟩ | ⟨_, _, table, same, absent, -, ran⟩ |
      ⟨_, same, -⟩
    · rw [ran] at wrote
      cases wrote
    · cases same
    · cases same
      rw [ran] at wrote ⊢
      cases wrote
      exact ⟨table, Catalog.table?_added absent table, rfl⟩
    · cases same
  kept := by
    intro name table found different
    rcases run_cases change before with ⟨_, ran⟩ | ⟨_, _, -, -, ran⟩ | ⟨_, _, _, -, -, -, ran⟩ | ⟨other, rfl, ran⟩ <;>
      rw [ran]
    · exact found
    · exact Catalog.table?_with found
    · exact Catalog.table?_with found
    · have apart : name ≠ other := fun same => different (congrArg drop same.symm)
      exact (Catalog.table?_drop apart).trans found
  dropped := by
    rintro name rfl
    exact Catalog.table?_drop_self before name

theorem run_intact {change : CatalogChange} {before : Catalog} (intact : before.Intact)
    (formed : ∀ name table, change = insert name table → table.Intact) : (change.run before).2.Intact := by
  rcases run_cases change before with ⟨error, ran⟩ | ⟨name, table, same, absent, ran⟩ |
    ⟨name, spec, table, same, absent, evaluated, ran⟩ | ⟨name, same, ran⟩ <;> rw [ran]
  · exact intact
  · exact intact.with_ absent (formed name table same)
  · exact intact.with_ absent (intact.evaluate evaluated)
  · exact intact.drop name

theorem runAll_intact {changes : List CatalogChange} {before : Catalog} (intact : before.Intact)
    (formed : ∀ name table, insert name table ∈ changes → table.Intact) : (runAll changes before).Intact := by
  induction changes generalizing before with
  | nil => exact intact
  | cons change rest ih =>
    have step := run_intact intact fun name table same => formed name table (same ▸ List.mem_cons_self)
    exact ih step fun name table member => formed name table (List.mem_cons_of_mem _ member)

end CatalogChange

/-- In every catalog that calls can lead to, all tables are intact if those that were inserted
were, whatever else was asked for; and there every further call is lawful. -/
theorem catalog_stays_intact (changes : List CatalogChange)
    (formed : ∀ name table, .insert name table ∈ changes → table.Intact) :
    (CatalogChange.runAll changes .empty).Intact ∧
      ∀ change : CatalogChange, change.Lawful (CatalogChange.runAll changes .empty)
        (change.run (CatalogChange.runAll changes .empty)).1 (change.run (CatalogChange.runAll changes .empty)).2 :=
  ⟨CatalogChange.runAll_intact .empty formed, fun change => change.run_lawful _⟩

namespace ThreeSales

/-- The sales are inserted, sampled by hand, and dropped. -/
def life : List CatalogChange :=
  [.insert name table, .create output (.randomLabel name "label" 7), .create output (.project name ["id", "id"]),
    .drop name]

theorem table_intact : table.Intact where
  named := rfl
  distinct := by decide
  even := by decide
  fitted := .cons (Column.Packed.fits (Cells.packed_present _) rfl) (.cons (Column.fits_int64 _) .nil)

theorem life_stays_intact : (CatalogChange.runAll life .empty).Intact ∧
    ∃ sample, (CatalogChange.runAll life .empty).relations = [(output, sample)] ∧ sample.rowCount = 3 := by
  have formed : ∀ other inserted, .insert other inserted ∈ life → inserted.Intact := by
    intro other inserted member
    simp only [life, List.mem_cons, CatalogChange.insert.injEq, reduceCtorEq, List.not_mem_nil, or_false] at member
    exact member.2 ▸ table_intact
  exact ⟨(catalog_stays_intact life formed).1, _, rfl, rfl⟩

end ThreeSales

end StratifiedSampling
