import StratifiedSampling.Json.Form
import StratifiedSampling.Value.Basic

/-! The JSON form of values and their types. Decimals, dates and timestamps are strings;
a decimal is also read from a number. -/

namespace StratifiedSampling

open JsonForm

namespace Decimal

/-- A double stands for the decimal that its text shows. -/
def ofTree? : Json.Tree → Option Decimal
  | .string text => read? text
  | .whole value => some (ofInt value)
  | .double value => readPlain? value.display.toList
  | _ => none

end Decimal

instance : JsonForm Decimal where
  write value := .string value.display
  read? := Decimal.ofTree?

instance : JsonForm Date where
  write value := .string value.display
  read? tree := (readString? tree).bind Date.read?

instance : JsonForm Timestamp where
  write value := .string value.zuluText
  read? tree := (readString? tree).bind Timestamp.read?

namespace DataType

def tag : DataType → String
  | unknown => "Unknown"
  | bool => "Bool"
  | int64 => "Int64"
  | float64 => "Float64"
  | numeric => "Numeric"
  | string => "String"
  | bytes => "Bytes"
  | date => "Date"
  | timestamp => "Timestamp"

def all : List DataType :=
  [unknown, bool, int64, float64, numeric, string, bytes, date, timestamp]

end DataType

instance : JsonForm DataType where
  write value := .string value.tag
  read? tree := do
    let tagged ← Tagged.read? tree
    let value ← DataType.all.find? fun value => value.tag == tagged.name
    tagged.bare? value

namespace Value

def ofTagged? (tagged : Tagged) : Option Value :=
  match tagged.name with
  | "Null" => tagged.bare? null
  | "Bool" => tagged.content?.map bool
  | "Int64" => tagged.content?.map int64
  | "Float64" => tagged.content?.map float64
  | "Numeric" => tagged.content?.map numeric
  | "String" => tagged.content?.map string
  | "Bytes" => tagged.content?.map bytes
  | "Date" => tagged.content?.map date
  | "Timestamp" => tagged.content?.map timestamp
  | _ => none

def tagged : Value → Json
  | null => .string "Null"
  | bool value => Tagged.write "Bool" (write value)
  | int64 value => Tagged.write "Int64" (write value)
  | float64 value => Tagged.write "Float64" (write value)
  | numeric value => Tagged.write "Numeric" (write value)
  | string value => Tagged.write "String" (write value)
  | bytes value => Tagged.write "Bytes" (write value)
  | date value => Tagged.write "Date" (write value)
  | timestamp value => Tagged.write "Timestamp" (write value)

end Value

instance : JsonForm Value where
  write := Value.tagged
  read? tree := (Tagged.read? tree).bind Value.ofTagged?

end StratifiedSampling
