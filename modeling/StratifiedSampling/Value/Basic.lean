import StratifiedSampling.Calendar.Timestamp
import StratifiedSampling.Json.Basic
import StratifiedSampling.Number.Decimal
import StratifiedSampling.Number.DoubleText

/-! Cell values and their types, how a value is read as another type, and how it is
written in messages and in JSON. A NULL has no type of its own. -/

namespace StratifiedSampling

inductive DataType where
  | unknown
  | bool
  | int64
  | float64
  | numeric
  | string
  | bytes
  | date
  | timestamp
  deriving DecidableEq

def DataType.name : DataType → String
  | unknown => "UNKNOWN"
  | bool => "BOOL"
  | int64 => "INT64"
  | float64 => "FLOAT64"
  | numeric => "NUMERIC"
  | string => "STRING"
  | bytes => "BYTES"
  | date => "DATE"
  | timestamp => "TIMESTAMP"

inductive Value where
  | null
  | bool (value : Bool)
  | int64 (value : Int64)
  | float64 (value : Double)
  | numeric (value : Decimal)
  | string (value : String)
  | bytes (value : List UInt8)
  | date (value : Date)
  | timestamp (value : Timestamp)

namespace Value

def isNull : Value → Bool
  | null => true
  | _ => false

def dataType : Value → DataType
  | null => .unknown
  | bool _ => .bool
  | int64 _ => .int64
  | float64 _ => .float64
  | numeric _ => .numeric
  | string _ => .string
  | bytes _ => .bytes
  | date _ => .date
  | timestamp _ => .timestamp

def asBool? : Value → Option Bool
  | bool value => some value
  | _ => none

def asInt64? : Value → Option Int64
  | int64 value => some value
  | _ => none

/-- A whole number is also read as the nearest double. -/
def asDouble? : Value → Option Double
  | float64 value => some value
  | int64 value => some (.ofInt value.toInt)
  | _ => none

def asDecimal? : Value → Option Decimal
  | numeric value => some value
  | _ => none

def asString? : Value → Option String
  | string value => some value
  | _ => none

def asBytes? : Value → Option (List UInt8)
  | bytes value => some value
  | _ => none

def asDate? : Value → Option Date
  | date value => some value
  | _ => none

def asTimestamp? : Value → Option Timestamp
  | timestamp value => some value
  | _ => none

def display : Value → String
  | null => "NULL"
  | bool value => if value then "true" else "false"
  | int64 value => toString value.toInt
  | float64 value => value.display
  | numeric value => value.display
  | string value => value
  | bytes value => Text.hexText value
  | date value => value.display
  | timestamp value => value.display

/-- The text of a value in messages, which shows its type where the bare text does not. -/
def describe : Value → String
  | string value => "'" ++ value ++ "'"
  | bytes value => "b'" ++ Text.hexText value ++ "'"
  | date value => "DATE '" ++ value.display ++ "'"
  | timestamp value => "TIMESTAMP '" ++ value.display ++ "'"
  | value => value.display

def toJson : Value → Json
  | null => .null
  | bool value => .bool value
  | int64 value => .whole value.toInt
  | float64 value => if value.isFinite then .double value else .null
  | numeric value => .string value.display
  | string value => .string value
  | bytes value => .string (Text.hexText value)
  | date value => .string value.display
  | timestamp value => .string value.internetText

end Value

end StratifiedSampling
