import StratifiedSampling.Catalog

/-! What a sampler asks of a data backend, as a program of calls. A program is done, or
makes a call and goes on with whatever the backend replies, an error included. A
backend is any way to answer one call after another from a state of its own, and the
in-memory catalog is one of them. -/

namespace StratifiedSampling

inductive Call where
  | contains (name : RelationName)
  | isEmpty (name : RelationName)
  | columns (name : RelationName)
  | groupCounts (name : RelationName) (groupBy : List String)
  | create (name : RelationName) (spec : RelationSpec)
  | drop (name : RelationName)
  deriving DecidableEq

def Call.Reply : Call → Type
  | contains _ => Bool
  | isEmpty _ => Bool
  | columns _ => List String
  | groupCounts _ _ => List GroupCount
  | create _ _ => Nat
  | drop _ => Unit

namespace Call

def name : Call → String
  | contains _ => "exists"
  | isEmpty _ => "is_empty"
  | columns _ => "columns"
  | groupCounts .. => "row_count"
  | create .. => "create"
  | drop _ => "drop"

def relation : Call → RelationName
  | contains relation => relation
  | isEmpty relation => relation
  | columns relation => relation
  | groupCounts relation _ => relation
  | create relation _ => relation
  | drop relation => relation

end Call

inductive Program (α : Type) where
  | done (result : α)
  | request (call : Call) (next : Except Error call.Reply → Program α)

namespace Program

def bind (program : Program α) (next : α → Program β) : Program β :=
  match program with
  | .done result => next result
  | .request call rest => .request call fun reply => (rest reply).bind next

instance : Monad Program where
  pure := done
  bind := bind

end Program

abbrev Attempt := ExceptT Error Program

namespace Attempt

def settled (outcome : Except Error α) : Attempt α :=
  ExceptT.mk (Program.done outcome)

def call (call : Call) : Attempt call.Reply :=
  ExceptT.mk (Program.request call .done)

def contains (name : RelationName) : Attempt Bool :=
  call (.contains name)

def isEmpty (name : RelationName) : Attempt Bool :=
  call (.isEmpty name)

def columns (name : RelationName) : Attempt (List String) :=
  call (.columns name)

def groupCounts (name : RelationName) (groupBy : List String) : Attempt (List GroupCount) :=
  call (.groupCounts name groupBy)

end Attempt

structure Backend (σ : Type) where
  answer : (call : Call) → σ → Except Error call.Reply × σ

namespace Backend

variable {σ : Type}

/-- Runs a program to its end, and returns the state the backend is left in. -/
def run (backend : Backend σ) : Program α → σ → α × σ
  | .done result, state => (result, state)
  | .request call next, state =>
    let (reply, state) := backend.answer call state
    backend.run (next reply) state

def logged (backend : Backend σ) : Backend (List Call × σ) where
  answer call state :=
    let (reply, inner) := backend.answer call state.2
    (reply, (state.1 ++ [call], inner))

end Backend

/-- The catalog as a backend. A call that fails leaves it as it was. -/
def Catalog.backend : Backend Catalog where
  answer
    | .contains name, catalog => (.ok (catalog.contains name), catalog)
    | .isEmpty name, catalog => ((catalog.table name).map Table.isEmpty, catalog)
    | .columns name, catalog => ((catalog.table name).map fun table => table.schema.names, catalog)
    | .groupCounts name groupBy, catalog =>
      ((catalog.table name).bind fun table => table.groupCounts groupBy, catalog)
    | .create name spec, catalog =>
      match catalog.create name spec with
      | .ok (created, rows) => (.ok rows, created)
      | .error error => (.error error, catalog)
    | .drop name, catalog => (.ok (), catalog.drop name)

end StratifiedSampling
