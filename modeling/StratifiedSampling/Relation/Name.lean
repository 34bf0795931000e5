import StratifiedSampling.Error
import StratifiedSampling.Text.Blank

/-! Names of relations. A name is trimmed when it is made and is never blank, so that
two names are equal exactly if their texts are. -/

namespace StratifiedSampling

structure RelationName where
  text : String
  trimmed : Text.trim text = text
  solid : text ≠ ""
  deriving DecidableEq

namespace RelationName

def ofString? (raw : String) : Option RelationName :=
  if blank : Text.trim raw = "" then none else some ⟨Text.trim raw, Text.trim_trim raw, blank⟩

def ofString (raw : String) : Except Error RelationName :=
  match ofString? raw with
  | some name => .ok name
  | none => .error (.invalidArgument "relation name must not be blank")

end RelationName

end StratifiedSampling
