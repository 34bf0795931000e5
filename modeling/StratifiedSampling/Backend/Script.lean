import StratifiedSampling.Backend

/-! A backend that follows a script. Its replies do not depend on what was created before,
and calls fail where the script says so, which shows what a program does then. -/

namespace StratifiedSampling

structure Failure where
  call : String
  suffix : String
  error : Error

structure Script where
  existing : List String
  empty : Bool
  columns : List String
  /-- The groups of relations; others have none. -/
  counts : List (String × List GroupCount)
  /-- The rows that an operation creates; others create none. -/
  created : List (String × Nat)
  failures : List Failure

/-- The star stands for any ending. -/
def Failure.concerns (failure : Failure) (call : Call) : Bool :=
  failure.call == call.name && (failure.suffix == "*" || call.relation.text.endsWith failure.suffix)

namespace Script

def find? (entries : List (String × α)) (name : String) : Option α :=
  (entries.find? fun entry => entry.1 == name).map Prod.snd

def reply (script : Script) : (call : Call) → Call.Reply call
  | .contains relation => script.existing.contains relation.text
  | .isEmpty _ => script.empty
  | .columns _ => script.columns
  | .groupCounts relation _ => (find? script.counts relation.text).getD []
  | .create _ spec => (find? script.created spec.operation).getD (0 : Nat)
  | .drop _ => ()

/-- The first failure that concerns a call is what it gets. -/
def backend (script : Script) : Backend Unit where
  answer call state :=
    match script.failures.find? fun failure => failure.concerns call with
    | some failure => (.error failure.error, state)
    | none => (.ok (script.reply call), state)

end Script

end StratifiedSampling
