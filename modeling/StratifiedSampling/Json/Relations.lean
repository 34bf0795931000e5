import StratifiedSampling.Catalog
import StratifiedSampling.Json.Values

/-! The JSON form of relation names, specs, group counts and backend settings. -/

namespace StratifiedSampling

open JsonForm

/-- A name is read as any text is made a name, so that it is trimmed and may not be blank. -/
instance : JsonForm RelationName where
  write name := .string name.text
  read? tree := (readString? tree).bind RelationName.ofString?

namespace JoinPredicate

def tag (predicate : JoinPredicate) : String :=
  match predicate.comparison with
  | .lessEq => "LessEq"
  | .equal => "Eq"

def ofTagged? (tagged : Tagged) : Option JoinPredicate := do
  let comparison ←
    match tagged.name with
    | "LessEq" => some Comparison.lessEq
    | "Eq" => some Comparison.equal
    | _ => none
  let slots ← tagged.slots? ["left", "right"]
  return ⟨comparison, ← slots.get "left", ← slots.get "right"⟩

end JoinPredicate

instance : JsonForm JoinPredicate where
  write predicate := Tagged.write predicate.tag (.object [
    ("left", write predicate.left), ("right", write predicate.right)])
  read? tree := (Tagged.read? tree).bind JoinPredicate.ofTagged?

namespace RelationSpec

def ofTagged? (tagged : Tagged) : Option RelationSpec :=
  match tagged.name with
  | "Project" => do
    let slots ← tagged.slots? ["source", "columns"]
    return .project (← slots.get "source") (← slots.get "columns")
  | "WithRandomLabel" => do
    let slots ← tagged.slots? ["source", "label_column", "seed"]
    return .randomLabel (← slots.get "source") (← slots.get "label_column") (← slots.get "seed")
  | "GroupQuantile" => do
    let slots ← tagged.slots? ["source", "group_by", "value_column", "proportion", "output_column"]
    return .groupQuantile (← slots.get "source") (← slots.get "group_by") (← slots.get "value_column")
      (← slots.get "proportion") (← slots.get "output_column")
  | "RowNumber" => do
    let slots ← tagged.slots? ["source", "partition_by", "rank_column"]
    return .rowNumber (← slots.get "source") (← slots.get "partition_by") (← slots.get "rank_column")
  | "GroupDraws" => do
    let slots ← tagged.slots? ["source", "group_by", "proportion", "index_column", "seed"]
    return .groupDraws (← slots.get "source") (← slots.get "group_by") (← slots.get "proportion")
      (← slots.get "index_column") (← slots.get "seed")
  | "Join" => do
    let slots ← tagged.slots? ["left", "right", "on", "predicate", "project"]
    return .join (← slots.get "left") (← slots.get "right") (← slots.get "on") (← slots.get "predicate")
      (← slots.get "project")
  | "SortLimit" => do
    let slots ← tagged.slots? ["source", "order_by", "limit", "project"]
    return .sortLimit (← slots.get "source") (← slots.get "order_by") (← slots.get "limit") (← slots.get "project")
  | _ => none

def tagged : RelationSpec → Json
  | project source columns =>
    Tagged.write "Project" (.object [("source", write source), ("columns", write columns)])
  | randomLabel source labelColumn seed =>
    Tagged.write "WithRandomLabel" (.object [
      ("source", write source), ("label_column", write labelColumn), ("seed", write seed)])
  | groupQuantile source groupBy valueColumn proportion outputColumn =>
    Tagged.write "GroupQuantile" (.object [
      ("source", write source), ("group_by", write groupBy), ("value_column", write valueColumn),
      ("proportion", write proportion), ("output_column", write outputColumn)])
  | rowNumber source partitionBy rankColumn =>
    Tagged.write "RowNumber" (.object [
      ("source", write source), ("partition_by", write partitionBy), ("rank_column", write rankColumn)])
  | groupDraws source groupBy proportion indexColumn seed =>
    Tagged.write "GroupDraws" (.object [
      ("source", write source), ("group_by", write groupBy), ("proportion", write proportion),
      ("index_column", write indexColumn), ("seed", write seed)])
  | join left right on predicate columns =>
    Tagged.write "Join" (.object [
      ("left", write left), ("right", write right), ("on", write on), ("predicate", write predicate),
      ("project", write columns)])
  | sortLimit source orderBy limit columns =>
    Tagged.write "SortLimit" (.object [
      ("source", write source), ("order_by", write orderBy), ("limit", write limit), ("project", write columns)])

end RelationSpec

instance : JsonForm RelationSpec where
  write := RelationSpec.tagged
  read? tree := (Tagged.read? tree).bind RelationSpec.ofTagged?

instance : JsonForm GroupCount where
  write group := .object [("key", write group.key), ("count", write group.count)]
  read? tree := do
    let slots ← Slots.open? ["key", "count"] tree
    return ⟨← slots.get "key", ← slots.get "count"⟩

instance : JsonForm BackendSettings where
  write settings := .object [("parallel_threshold", write settings.parallelThreshold)]
  read? tree := do
    let slots ← Slots.open? ["parallel_threshold"] tree
    return ⟨← slots.getD "parallel_threshold" BackendSettings.standard.parallelThreshold⟩

end StratifiedSampling
