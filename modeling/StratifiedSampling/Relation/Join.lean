import StratifiedSampling.Relation.Grouping
import StratifiedSampling.Relation.Spec
import StratifiedSampling.Value.Order

/-! Joins of two tables. The right rows are entered in a table by key, and every left
row looks up its own key there. An equality predicate becomes part of the key; a row
that is NULL in it has no key. -/

namespace StratifiedSampling.Table

structure JoinKey where
  columns : List Column
  equated : Option Column

def JoinKey.at? (side : JoinKey) (row : Nat) : Option Key :=
  let cells := (keyAt side.columns row).cells
  match side.equated with
  | none => some ⟨cells⟩
  | some column =>
    let value := column.value row
    if value.isNull then none else some ⟨cells ++ [value]⟩

inductive JoinOutput where
  | left (index : Nat)
  | right (index : Nat)

def joinOutput? (left right : Table) (name : String) : Option JoinOutput :=
  match left.schema.index? name with
  | some index => some (.left index)
  | none => (right.schema.index? name).map .right

def joinOutputs (left right : Table) (names : List String) : Except Error (List JoinOutput) :=
  match names.filter fun name => (joinOutput? left right name).isNone with
  | [] => .ok (names.filterMap (joinOutput? left right))
  | missing => .error (.unknownColumns missing)

/-- Whether the values of a pair of rows are in order; NULL is in order with nothing. -/
def inOrder (compared : Column × Column) (leftRow rightRow : Nat) : Bool :=
  let left := compared.1.value leftRow
  let right := compared.2.value rightRow
  !left.isNull && !right.isNull && left.order right != .gt

/-- The matching pairs of positions, by the left position and then by the right. -/
def joinPairs (leftKey rightKey : JoinKey) (filter : Nat → Nat → Bool) (leftCount rightCount : Nat) :
    List (Nat × Nat) :=
  let table := KeyTable.build rightKey.at? rightCount
  (List.range leftCount).flatMap fun leftRow =>
    match leftKey.at? leftRow with
    | none => []
    | some key =>
      ((table.rows key).filter (filter leftRow)).map fun rightRow => (leftRow, rightRow)

def joinColumn (left right : Table) (pairs : List (Nat × Nat)) (output : JoinOutput) :
    Except Error (Option Field × Column) := do
  let (table, index, rows) := match output with
    | .left index => (left, index, pairs.map Prod.fst)
    | .right index => (right, index, pairs.map Prod.snd)
  let column ← table.columnAt index
  return (table.schema.fields[index]?, ← column.gather rows)

def join (left right : Table) (on : List String) (predicate : Option JoinPredicate) (project : List String) :
    Except Error Table := do
  if project.isEmpty then
    throw (.invalidArgument "join must project at least one column")
  let outputs ← joinOutputs left right project
  let leftKeys ← left.resolveColumns on
  let rightKeys ← right.resolveColumns on
  let pairs ←
    match predicate with
    | none =>
      pure (joinPairs ⟨leftKeys, none⟩ ⟨rightKeys, none⟩ (fun _ _ => true) left.rowCount right.rowCount)
    | some condition => do
      let leftColumn ← left.resolveColumn condition.left
      let rightColumn ← right.resolveColumn condition.right
      match condition.comparison with
      | .equal =>
        pure (joinPairs ⟨leftKeys, some leftColumn⟩ ⟨rightKeys, some rightColumn⟩ (fun _ _ => true)
          left.rowCount right.rowCount)
      | .lessEq =>
        pure (joinPairs ⟨leftKeys, none⟩ ⟨rightKeys, none⟩ (inOrder (leftColumn, rightColumn))
          left.rowCount right.rowCount)
  let columns ← outputs.mapM (joinColumn left right pairs)
  ofColumns ⟨columns.filterMap Prod.fst⟩ (columns.map Prod.snd)

end StratifiedSampling.Table
