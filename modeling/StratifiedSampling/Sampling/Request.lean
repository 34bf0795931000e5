import StratifiedSampling.Backend
import StratifiedSampling.Sampling.Strata

/-! Requests for a sample and their validation. The checks come in a fixed order and the
first that fails is reported; they only look at the backend and change nothing. -/

namespace StratifiedSampling

structure SampleRequest where
  source : String
  output : String
  proportion : Double
  /-- Columns that divide the source into strata; without any it is one stratum. -/
  keys : Option (List String)
  /-- Columns of the output; without any those that are not keys. -/
  targets : Option (List String)
  withReplacement : Bool
  deriving DecidableEq

/-- A request whose preconditions held when it was checked. -/
structure ValidRequest where
  source : RelationName
  output : RelationName
  proportion : Double
  strata : Strata
  targets : List String
  outputColumns : List String
  sourceColumns : List String
  withReplacement : Bool
  deriving DecidableEq

namespace SampleRequest

def namedRelation (raw role : String) : Except Error RelationName :=
  match RelationName.ofString? raw with
  | some name => .ok name
  | none => .error (.invalidArgument (role ++ " relation name must not be blank"))

def missingColumns (sourceColumns names : List String) : List String :=
  names.foldl (fun missing name =>
    if sourceColumns.contains name || missing.contains name then missing else missing ++ [name]) []

def resolve (request : SampleRequest) (source output : RelationName) (sourceColumns : List String) :
    Except Error ValidRequest :=
  let strata := Strata.resolve (request.keys.getD [])
  let targets := resolveTargets sourceColumns strata (request.targets.getD [])
  match missingColumns sourceColumns (strata.columns ++ targets) with
  | [] =>
    .ok {
      source
      output
      proportion := request.proportion
      strata
      targets
      outputColumns := StratifiedSampling.outputColumns targets strata
      sourceColumns
      withReplacement := request.withReplacement }
  | missing =>
    .error (.schemaMismatch ("unknown column(s) in '" ++ source.text ++ "': " ++ String.intercalate ", " missing))

def validate (request : SampleRequest) : Attempt ValidRequest := do
  let output ← Attempt.settled (namedRelation request.output "output")
  let source ← Attempt.settled (namedRelation request.source "source")
  if source = output then
    throw (.invalidArgument ("output relation '" ++ output.text ++ "' must differ from the source"))
  if ← Attempt.contains output then throw (.alreadyExists output.text)
  if !(← Attempt.contains source) then throw (.notFound source.text)
  if ← Attempt.isEmpty source then throw (.emptyInput source.text)
  Attempt.settled (Counts.checkProportion request.proportion)
  let sourceColumns ← Attempt.columns source
  Attempt.settled (request.resolve source output sourceColumns)

end SampleRequest

end StratifiedSampling
