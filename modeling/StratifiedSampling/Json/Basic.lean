import StratifiedSampling.Number.DoubleText
import StratifiedSampling.Text.Digits

/-! JSON values and their compact text. Members of an object keep their order. A
control character is written as an escape, every other character as itself. A
number is whole or a double, and the two are told apart in the text. -/

namespace StratifiedSampling

inductive Json where
  | null
  | bool (value : Bool)
  | whole (value : Int)
  | double (value : Double)
  | string (text : String)
  | array (items : List Json)
  | object (members : List (String × Json))

namespace Json

def escaped (char : Char) : List Char :=
  if char = '"' then ['\\', '"']
  else if char = '\\' then ['\\', '\\']
  else if char = '\n' then ['\\', 'n']
  else if char = '\r' then ['\\', 'r']
  else if char = '\t' then ['\\', 't']
  else if char.toNat = 8 then ['\\', 'b']
  else if char.toNat = 12 then ['\\', 'f']
  else if char.toNat < 32 then '\\' :: 'u' :: '0' :: '0' :: Text.hexPair (UInt8.ofNat char.toNat)
  else [char]

def quoted (text : String) : String :=
  "\"" ++ String.ofList (text.toList.flatMap escaped) ++ "\""

mutual
/-- The text without any blanks; a double that is not finite is null. -/
def compact : Json → String
  | null => "null"
  | bool value => if value then "true" else "false"
  | whole value => toString value
  | double value => (value.jsonText?).getD "null"
  | string text => quoted text
  | array items => "[" ++ String.intercalate "," (compactItems items) ++ "]"
  | object members => "\x7b" ++ String.intercalate "," (compactMembers members) ++ "\x7d"

def compactItems : List Json → List String
  | [] => []
  | item :: rest => compact item :: compactItems rest

def compactMembers : List (String × Json) → List String
  | [] => []
  | (key, value) :: rest => (quoted key ++ ":" ++ compact value) :: compactMembers rest
end

end Json

end StratifiedSampling
