import StratifiedSampling.Json.Basic
import StratifiedSampling.Json.Tree

/-! Types with a JSON form. A record is written as an object and read from an object, in
any order and with other members beside, or from an array of its members in order. A
variant is written as its name, or as an object that holds its content under its name. -/

namespace StratifiedSampling

class JsonForm (α : Type) where
  write : α → Json
  read? : Json.Tree → Option α
  /-- What a member stands for that is missing from an object, if it may be missing. -/
  absent? : Option α := none

namespace JsonForm

def text [JsonForm α] (value : α) : String :=
  (write value).compact

def parse? [JsonForm α] (text : String) : Option α :=
  (Json.parse? text).bind read?

def readNat? : Json.Tree → Option Nat
  | .whole value => if 0 ≤ value ∧ value < UInt64.size then some value.toNat else none
  | _ => none

def readInt64? : Json.Tree → Option Int64
  | .whole value =>
    if Int64.minValue.toInt ≤ value ∧ value ≤ Int64.maxValue.toInt then some (Int64.ofInt value) else none
  | _ => none

def readByte? (tree : Json.Tree) : Option UInt8 :=
  (readNat? tree).bind fun value => if value < UInt8.size then some (UInt8.ofNat value) else none

def readBool? : Json.Tree → Option Bool
  | .bool value => some value
  | _ => none

def readDouble? : Json.Tree → Option Double
  | .double value => some value
  | .whole value => some (.ofInt value)
  | _ => none

def readString? : Json.Tree → Option String
  | .string value => some value
  | _ => none

def readList? [JsonForm α] : Json.Tree → Option (List α)
  | .array items => items.mapM read?
  | _ => none

def readOption? [JsonForm α] : Json.Tree → Option (Option α)
  | .null => some none
  | tree => (read? tree).map some

instance : JsonForm Bool where
  write value := .bool value
  read? := readBool?

instance : JsonForm Nat where
  write value := .whole value
  read? := readNat?

instance : JsonForm UInt64 where
  write value := .whole value.toNat
  read? tree := (readNat? tree).map UInt64.ofNat

instance : JsonForm Int64 where
  write value := .whole value.toInt
  read? := readInt64?

instance : JsonForm UInt8 where
  write value := .whole value.toNat
  read? := readByte?

instance : JsonForm Double where
  write value := .double value
  read? := readDouble?

instance : JsonForm String where
  write value := .string value
  read? := readString?

instance [JsonForm α] : JsonForm (List α) where
  write items := .array (items.map write)
  read? := readList?

instance [JsonForm α] : JsonForm (Array α) where
  write items := .array (items.toList.map write)
  read? tree := (readList? tree).map List.toArray

instance [JsonForm α] : JsonForm (Option α) where
  write
    | none => .null
    | some value => write value
  read? := readOption?
  absent? := some none

end JsonForm

structure Slots where
  found : List (String × Json.Tree)
  /-- They came in an array, where a member is missing only at the end. -/
  positional : Bool

namespace Slots

/-- The members that belong to a record. None of them may come twice; any other member is
an error if the record is closed, and is passed over otherwise. -/
def ofMembers? (names : List String) (closed : Bool) :
    List (Option String × Json.Tree) → Option (List (String × Json.Tree))
  | [] => some []
  | (none, _) :: _ => none
  | (some name, value) :: rest => do
    let found ← ofMembers? names closed rest
    if names.contains name then
      if found.any fun entry => entry.1 == name then none else some ((name, value) :: found)
    else if closed then none
    else some found

def read? (names : List String) (closed : Bool) : Json.Tree → Option Slots
  | .object members => (ofMembers? names closed members).map fun found => ⟨found, false⟩
  | .array items => if items.length ≤ names.length then some ⟨names.zip items, true⟩ else none
  | _ => none

def open? (names : List String) (tree : Json.Tree) : Option Slots :=
  read? names false tree

def closed? (names : List String) (tree : Json.Tree) : Option Slots :=
  read? names true tree

def find? (slots : Slots) (name : String) : Option Json.Tree :=
  (slots.found.find? fun entry => entry.1 == name).map Prod.snd

def get [JsonForm α] (slots : Slots) (name : String) : Option α :=
  match slots.find? name with
  | some tree => JsonForm.read? tree
  | none => if slots.positional then none else JsonForm.absent?

def getD [JsonForm α] (slots : Slots) (name : String) (standard : α) : Option α :=
  match slots.find? name with
  | some tree => JsonForm.read? tree
  | none => some standard

end Slots

/-- The name of a variant, and its content unless the name stands alone. -/
structure Tagged where
  name : String
  content : Option Json.Tree

namespace Tagged

def read? : Json.Tree → Option Tagged
  | .string name => some ⟨name, none⟩
  | .object [(some name, content)] => some ⟨name, some content⟩
  | _ => none

/-- A variant without content, which may also be written with a null. -/
def bare? (tagged : Tagged) (value : α) : Option α :=
  match tagged.content with
  | none => some value
  | some .null => some value
  | some _ => none

def content? [JsonForm α] (tagged : Tagged) : Option α :=
  tagged.content.bind JsonForm.read?

def slots? (tagged : Tagged) (names : List String) : Option Slots :=
  tagged.content.bind (Slots.open? names)

def write (name : String) (content : Json) : Json :=
  .object [(name, content)]

end Tagged

end StratifiedSampling
