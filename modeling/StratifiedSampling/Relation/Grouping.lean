import Std.Data.HashMap
import StratifiedSampling.Table
import StratifiedSampling.Value.Digest

/-! Groups of rows with equal keys. A hash table from keys to row positions serves
grouping and joining; the groups themselves are listed in the order of their first
rows, which the table does not show: a row opens a group if it is the first position
under its own key. -/

namespace StratifiedSampling

def sameCells : List Value → List Value → Bool
  | [], [] => true
  | left :: lefts, right :: rights => left.same right && sameCells lefts rights
  | _, _ => false

structure Key where
  cells : List Value

instance : BEq Key := ⟨fun left right => sameCells left.cells right.cells⟩

/-- Keys are hashed by the pieces they write, which are the same for equal keys. -/
instance : Hashable Key :=
  ⟨fun key => (Value.keyWrites key.cells).foldl (fun mixed piece =>
    piece.foldl (fun mixed byte => mixHash mixed byte.toUInt64) mixed) 7⟩

abbrev KeyTable := Std.HashMap Key (Array Nat)

namespace KeyTable

def add (table : KeyTable) (key : Key) (row : Nat) : KeyTable :=
  table.alter key fun
    | some rows => some (rows.push row)
    | none => some #[row]

/-- The positions below a count under their keys; positions without a key are left out. -/
def build (keyOf : Nat → Option Key) (count : Nat) : KeyTable :=
  (List.range count).foldl (fun table row =>
    match keyOf row with
    | some key => table.add key row
    | none => table) ∅

def rows (table : KeyTable) (key : Key) : List Nat :=
  (table.getD key #[]).toList

def first? (table : KeyTable) (key : Key) : Option Nat :=
  (table.getD key #[])[0]?

end KeyTable

structure Group where
  key : List Value
  rows : List Nat

namespace Table

def keyAt (columns : List Column) (row : Nat) : Key :=
  ⟨columns.map fun column => column.value row⟩

def groupsOf (columns : List Column) (count : Nat) : List Group :=
  let table := KeyTable.build (fun row => some (keyAt columns row)) count
  (List.range count).filterMap fun row =>
    let key := keyAt columns row
    if table.first? key = some row then some ⟨key.cells, table.rows key⟩ else none

def groups (table : Table) (groupBy : List String) : Except Error (List Group) := do
  let columns ← table.resolveColumns groupBy
  return groupsOf columns table.rowCount

/-- The number of every row among the rows with its key, counting up from one. -/
def rankRows (columns : List Column) : Std.HashMap Key Nat → List Nat → List Nat
  | _, [] => []
  | counts, row :: rows =>
    let key := keyAt columns row
    let rank := counts.getD key 0 + 1
    rank :: rankRows columns (counts.insert key rank) rows

end Table

/-- The number of rows with one key. -/
structure GroupCount where
  key : List Value
  count : Nat

namespace GroupCount

def orderKeys : List Value → List Value → Ordering
  | [], [] => .eq
  | [], _ :: _ => .lt
  | _ :: _, [] => .gt
  | left :: lefts, right :: rights => (left.order right).then (orderKeys lefts rights)

def sortedByKey (counts : List GroupCount) : List GroupCount :=
  counts.mergeSort fun left right => orderKeys left.key right.key != .gt

def totalBy (measure : GroupCount → Nat) : List GroupCount → Nat
  | [] => 0
  | group :: rest => measure group + totalBy measure rest

def total (counts : List GroupCount) : Nat :=
  totalBy GroupCount.count counts

end GroupCount

/-- The rows of every group; without grouping columns one count of all rows, even of none. -/
def Table.groupCounts (table : Table) (groupBy : List String) : Except Error (List GroupCount) :=
  if groupBy.isEmpty then .ok [⟨[], table.rowCount⟩]
  else do
    let groups ← table.groups groupBy
    return groups.map fun group => ⟨group.key, group.rows.length⟩

/-- A grouping key in messages. The key without columns is that of all rows. -/
def describeKey (columns : List String) (key : List Value) : String :=
  if key.isEmpty then "<all rows>"
  else String.intercalate ", " ((columns.zip key).map fun entry => entry.1 ++ "=" ++ entry.2.describe)

end StratifiedSampling
