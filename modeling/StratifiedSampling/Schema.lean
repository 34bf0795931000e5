import StratifiedSampling.Error
import StratifiedSampling.Value.Basic

/-! The columns a table declares. A schema may hold a name twice until it is
validated; a name then stands for the first field that has it. -/

namespace StratifiedSampling

inductive FieldMode where
  | nullable
  | required
  deriving DecidableEq

structure Field where
  name : String
  dataType : DataType
  mode : FieldMode
  description : Option String
  deriving DecidableEq

namespace Field

def nullable (name : String) (dataType : DataType) : Field :=
  ⟨name, dataType, .nullable, none⟩

def required (name : String) (dataType : DataType) : Field :=
  ⟨name, dataType, .required, none⟩

def renamed (field : Field) (name : String) : Field :=
  { field with name }

def isNullable (field : Field) : Bool :=
  field.mode == .nullable

end Field

structure Schema where
  fields : List Field
  deriving DecidableEq

namespace Schema

def names (schema : Schema) : List String :=
  schema.fields.map Field.name

def size (schema : Schema) : Nat :=
  schema.fields.length

def isEmpty (schema : Schema) : Bool :=
  schema.fields.isEmpty

def add (schema : Schema) (field : Field) : Schema :=
  ⟨schema.fields ++ [field]⟩

def find? (schema : Schema) (name : String) : Option Field :=
  schema.fields.find? fun field => field.name == name

def index? (schema : Schema) (name : String) : Option Nat :=
  schema.fields.findIdx? fun field => field.name == name

def contains (schema : Schema) (name : String) : Bool :=
  (schema.index? name).isSome

def missing (schema : Schema) (names : List String) : List String :=
  names.filter fun name => !schema.contains name

/-- The positions of some columns; all names without a column are reported at once. -/
def resolve (schema : Schema) (names : List String) : Except Error (List Nat) :=
  match schema.missing names with
  | [] => .ok (names.filterMap schema.index?)
  | missing => .error (.unknownColumns missing)

def firstRepeated (seen : List String) : List String → Option String
  | [] => none
  | name :: rest => if seen.contains name then some name else firstRepeated (name :: seen) rest

def validate (schema : Schema) : Except Error Unit :=
  match firstRepeated [] schema.names with
  | none => .ok ()
  | some name => .error (.schemaMismatch ("Duplicate field name: " ++ name))

end Schema

end StratifiedSampling
