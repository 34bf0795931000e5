import StratifiedSampling.Text.Blank

/-! Strata and output columns of a request. Lists of names are taken without blanks
around them, without blank names and without repeats, in the order of first mention. -/

namespace StratifiedSampling

def addNames (seen : List String) : List String → List String
  | [] => seen
  | raw :: rest =>
    let name := Text.trim raw
    if name = "" ∨ name ∈ seen then addNames seen rest else addNames (seen ++ [name]) rest

def normalizeNames (names : List String) : List String :=
  addNames [] names

/-- The pieces of a text between commas; always at least one. -/
def splitAtCommas : List Char → List (List Char)
  | [] => [[]]
  | char :: rest =>
    match splitAtCommas rest with
    | [] => [[char]]
    | piece :: pieces => if char = ',' then [] :: piece :: pieces else (char :: piece) :: pieces

def splitColumnList (text : String) : List String :=
  normalizeNames ((splitAtCommas text.toList).map String.ofList)

inductive Strata where
  /-- All rows are one stratum. -/
  | global
  /-- One stratum for every combination of values in some columns. -/
  | keys (columns : List String)
  deriving DecidableEq

namespace Strata

def resolve (keys : List String) : Strata :=
  match normalizeNames keys with
  | [] => .global
  | columns => .keys columns

def columns : Strata → List String
  | global => []
  | keys columns => columns

def isGlobal : Strata → Bool
  | global => true
  | keys _ => false

def contains (strata : Strata) (column : String) : Bool :=
  strata.columns.contains column

def display : Strata → String
  | global => "<global>"
  | keys columns => String.intercalate ", " columns

end Strata

def wildcard : String := "*"

/-- The columns asked for. No name at all, or the wildcard alone, asks for every column
that is not a key. -/
def resolveTargets (sourceColumns : List String) (strata : Strata) (targets : List String) : List String :=
  let explicit := normalizeNames targets
  if explicit = [] ∨ explicit = [wildcard] then sourceColumns.filter fun column => !strata.contains column
  else explicit

def outputColumns (targets : List String) (strata : Strata) : List String :=
  strata.columns.foldl (fun columns key => if columns.contains key then columns else columns ++ [key]) targets

end StratifiedSampling
