import StratifiedSampling.Backend

/-! The relations that one run creates. Names of staged relations carry a token of the
run, so that runs do not meet. Closing an area drops everything staged in it, last
first, and the output, too, unless it was committed. Failures to drop are ignored. -/

namespace StratifiedSampling

/-- A hyphenless random identifier, which tells the relations of one run from all others. -/
abbrev Token := String

structure Staging where
  stagingPrefix : String
  token : Token
  staged : List RelationName
  output : Option RelationName
  committed : Bool
  deriving DecidableEq

/-- Steps of a run that knows its staging area, which outlives an error. -/
abbrev Staged := ExceptT Error (StateT Staging Program)

namespace Staging

def start (stagingPrefix : String) (token : Token) : Staging :=
  ⟨Text.trim stagingPrefix, token, [], none, false⟩

def name (area : Staging) (suffix : String) : Except Error RelationName :=
  RelationName.ofString (area.stagingPrefix ++ "_" ++ area.token ++ "_" ++ suffix)

/-- Creates a staged relation. It belongs to the area from the attempt on. -/
def stage (suffix : String) (spec : RelationSpec) : Staged (RelationName × Nat) :=
  ExceptT.mk fun area =>
    match area.name suffix with
    | .error error => .done (.error error, area)
    | .ok name =>
      .request (.create name spec) fun reply =>
        .done (reply.map fun rows : Nat => (name, rows), { area with staged := area.staged ++ [name] })

/-- Creates the output. If its name turns out to be taken, it belongs to someone else and is left alone. -/
def createOutput (output : RelationName) (spec : RelationSpec) : Staged Nat :=
  ExceptT.mk fun area =>
    .request (.create output spec) fun reply =>
      let owned :=
        match reply with
        | .error error => if error.kind = .alreadyExists then none else some output
        | .ok _ => some output
      .done (reply, { area with output := owned })

def groupCounts (name : RelationName) (groupBy : List String) : Staged (List GroupCount) :=
  ExceptT.mk fun area => .request (.groupCounts name groupBy) fun reply => .done (reply, area)

def commit (area : Staging) : Staging :=
  { area with committed := true }

def leftovers (area : Staging) : List RelationName :=
  area.staged.reverse ++ (if area.committed then [] else area.output.toList)

def dropAll : List RelationName → Program Unit
  | [] => .done ()
  | name :: rest => .request (.drop name) fun _ => dropAll rest

def close (area : Staging) : Program Unit :=
  dropAll area.leftovers

end Staging

end StratifiedSampling
