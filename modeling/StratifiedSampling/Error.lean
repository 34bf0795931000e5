/-! Why a call fails. An error carries what its message names; callers that only
need to react look at the kind, which stays the same when a message changes. -/

namespace StratifiedSampling

inductive ErrorKind where
  | invalidArgument
  | alreadyExists
  | notFound
  | emptyInput
  | schemaMismatch
  | consistency
  | backend
  | internal
  deriving DecidableEq

namespace ErrorKind

def name : ErrorKind → String
  | invalidArgument => "InvalidArgument"
  | alreadyExists => "AlreadyExists"
  | notFound => "NotFound"
  | emptyInput => "EmptyInput"
  | schemaMismatch => "SchemaMismatch"
  | consistency => "ConsistencyError"
  | backend => "BackendError"
  | internal => "Internal"

end ErrorKind

inductive Error where
  | invalidArgument (detail : String)
  | alreadyExists (relation : String)
  | notFound (relation : String)
  | emptyInput (relation : String)
  | schemaMismatch (detail : String)
  | consistency (stratum detail : String)
  | backend (operation detail : String)
  | typeMismatch (expected actual : String)
  | internal (detail : String)
  deriving DecidableEq

namespace Error

/-- Storage is the only place where types are compared, so a type mismatch is a backend failure. -/
def kind : Error → ErrorKind
  | invalidArgument _ => .invalidArgument
  | alreadyExists _ => .alreadyExists
  | notFound _ => .notFound
  | emptyInput _ => .emptyInput
  | schemaMismatch _ => .schemaMismatch
  | consistency _ _ => .consistency
  | backend _ _ => .backend
  | typeMismatch _ _ => .backend
  | internal _ => .internal

def message : Error → String
  | invalidArgument detail => "Invalid argument: " ++ detail
  | alreadyExists relation => "Relation already exists: " ++ relation
  | notFound relation => "Relation not found: " ++ relation
  | emptyInput relation => "Relation is empty: " ++ relation
  | schemaMismatch detail => "Schema mismatch: " ++ detail
  | consistency stratum detail => "Consistency error in stratum " ++ stratum ++ ": " ++ detail
  | backend operation detail => "Backend error during " ++ operation ++ ": " ++ detail
  | typeMismatch expected actual => "Type mismatch: expected " ++ expected ++ ", got " ++ actual
  | internal detail => "Internal error: " ++ detail

def unknownColumns (names : List String) : Error :=
  .schemaMismatch ("unknown column(s): " ++ String.intercalate ", " names)

end Error

end StratifiedSampling
