import StratifiedSampling.Number.Double
import StratifiedSampling.Relation.Name

/-! What a new relation is made of: one bulk operation on whole relations. Grouping
columns are compared with NULL equal to NULL, so that rows without a key value form a
group of their own. -/

namespace StratifiedSampling

inductive Comparison where
  | lessEq
  | equal
  deriving DecidableEq

def Comparison.mark : Comparison → String
  | lessEq => "<="
  | equal => "="

structure JoinPredicate where
  comparison : Comparison
  left : String
  right : String
  deriving DecidableEq

inductive RelationSpec where
  /-- Some columns of the source, in that order. -/
  | project (source : RelationName) (columns : List String)
  /-- The source and a column of random labels. -/
  | randomLabel (source : RelationName) (labelColumn : String) (seed : UInt64)
  /-- One row a group: its key and the nearest-rank quantile of a column in the group. -/
  | groupQuantile (source : RelationName) (groupBy : List String) (valueColumn : String)
      (proportion : Double) (outputColumn : String)
  /-- The source and a column that numbers the rows of every partition from one. -/
  | rowNumber (source : RelationName) (partitionBy : List String) (rankColumn : String)
  /-- For every group as many rows as draws are taken from it: its key and a random rank in it. -/
  | groupDraws (source : RelationName) (groupBy : List String) (proportion : Double)
      (indexColumn : String) (seed : UInt64)
  /-- Pairs of rows with equal columns `on` that satisfy the predicate. An output column is
  taken from the left relation if it has one of that name, otherwise from the right. -/
  | join (left right : RelationName) (on : List String) (predicate : Option JoinPredicate)
      (project : List String)
  /-- The first rows of the source in ascending order of a column. -/
  | sortLimit (source : RelationName) (orderBy : String) (limit : Nat) (project : List String)
  deriving DecidableEq

namespace RelationSpec

def operation : RelationSpec → String
  | project .. => "project"
  | randomLabel .. => "random_label"
  | groupQuantile .. => "group_quantile"
  | rowNumber .. => "row_number"
  | groupDraws .. => "group_draws"
  | join .. => "join"
  | sortLimit .. => "sort_limit"

def inputs : RelationSpec → List RelationName
  | project source .. => [source]
  | randomLabel source .. => [source]
  | groupQuantile source .. => [source]
  | rowNumber source .. => [source]
  | groupDraws source .. => [source]
  | join left right .. => [left, right]
  | sortLimit source .. => [source]

end RelationSpec

end StratifiedSampling
