import StratifiedSampling.Relation.Join
import StratifiedSampling.Relation.OrderStatistics

/-! The in-memory catalog: tables by name, in the order in which they were made.
Creating a relation evaluates its spec on the tables there are; a name that is taken
or a spec that fails leaves the catalog as it was. -/

namespace StratifiedSampling

structure BackendSettings where
  /-- Relations with at least this many rows may have random columns made in parallel,
  which changes none of their values. -/
  parallelThreshold : Nat
  deriving DecidableEq

def BackendSettings.standard : BackendSettings := ⟨16384⟩

structure Catalog where
  relations : List (RelationName × Table)

namespace Catalog

def empty : Catalog := ⟨[]⟩

def table? (catalog : Catalog) (name : RelationName) : Option Table :=
  (catalog.relations.find? fun entry => entry.1 == name).map Prod.snd

def contains (catalog : Catalog) (name : RelationName) : Bool :=
  catalog.relations.any fun entry => entry.1 == name

def table (catalog : Catalog) (name : RelationName) : Except Error Table :=
  match catalog.table? name with
  | some table => .ok table
  | none => .error (.notFound name.text)

def size (catalog : Catalog) : Nat :=
  catalog.relations.length

def names (catalog : Catalog) : List String :=
  (catalog.relations.map fun entry => entry.1.text).mergeSort fun left right =>
    Value.orderChars left.toList right.toList != .gt

def insert (catalog : Catalog) (name : RelationName) (table : Table) : Except Error Catalog := do
  table.schema.validate
  if catalog.contains name then throw (.alreadyExists name.text)
  return ⟨catalog.relations ++ [(name, table)]⟩

def drop (catalog : Catalog) (name : RelationName) : Catalog :=
  ⟨catalog.relations.filter fun entry => entry.1 != name⟩

def evaluate (catalog : Catalog) : RelationSpec → Except Error Table
  | .project source columns => do (← catalog.table source).project columns
  | .randomLabel source labelColumn seed => do (← catalog.table source).withRandomLabel labelColumn seed
  | .groupQuantile source groupBy valueColumn proportion outputColumn => do
    (← catalog.table source).groupQuantile groupBy valueColumn proportion outputColumn
  | .rowNumber source partitionBy rankColumn => do (← catalog.table source).rowNumber partitionBy rankColumn
  | .groupDraws source groupBy proportion indexColumn seed => do
    (← catalog.table source).groupDraws groupBy proportion indexColumn seed
  | .join left right on predicate project => do
    let leftTable ← catalog.table left
    let rightTable ← catalog.table right
    leftTable.join rightTable on predicate project
  | .sortLimit source orderBy limit project => do (← catalog.table source).sortLimit orderBy limit project

def create (catalog : Catalog) (name : RelationName) (spec : RelationSpec) : Except Error (Catalog × Nat) := do
  if catalog.contains name then throw (.alreadyExists name.text)
  let table ← catalog.evaluate spec
  return (⟨catalog.relations ++ [(name, table)]⟩, table.rowCount)

end Catalog

end StratifiedSampling
