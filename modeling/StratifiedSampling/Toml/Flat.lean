import StratifiedSampling.Toml.Strings

/-! Flat TOML documents: lines that give a whole number or a string to a key. A document
that uses anything else of the language, such as tables, arrays or other scalars, is
good TOML but not flat, and is refused like one with a fault. -/

namespace StratifiedSampling.Toml

inductive Scalar where
  | whole (value : Int)
  | text (value : String)
  deriving DecidableEq

/-- Further digits of a number, where an underscore may stand between two digits. -/
def moreDigits (base value : Nat) : List Char → Nat × List Char
  | '_' :: char :: rest =>
    match Text.digitIn? base char with
    | some digit => moreDigits base (value * base + digit) rest
    | none => (value, '_' :: char :: rest)
  | char :: rest =>
    match Text.digitIn? base char with
    | some digit => moreDigits base (value * base + digit) rest
    | none => (value, char :: rest)
  | [] => (value, [])

def digits? (base : Nat) : List Char → Option (Nat × List Char)
  | char :: rest => (Text.digitIn? base char).map fun digit => moreDigits base digit rest
  | [] => none

/-- A number that starts with zero is zero; whatever digits follow are not part of it. -/
def decimal? : List Char → Option (Nat × List Char)
  | '0' :: rest => some (0, rest)
  | chars => digits? 10 chars

def whole? (chars : List Char) : Option (Int × List Char) := do
  let (value, rest) ←
    match chars with
    | '0' :: 'x' :: rest => (digits? 16 rest).map fun (value, rest) => ((value : Int), rest)
    | '0' :: 'o' :: rest => (digits? 8 rest).map fun (value, rest) => ((value : Int), rest)
    | '0' :: 'b' :: rest => (digits? 2 rest).map fun (value, rest) => ((value : Int), rest)
    | '-' :: rest => (decimal? rest).map fun (value, rest) => (-(value : Int), rest)
    | '+' :: rest => (decimal? rest).map fun (value, rest) => ((value : Int), rest)
    | chars => (decimal? chars).map fun (value, rest) => ((value : Int), rest)
  if Int64.minValue.toInt ≤ value ∧ value ≤ Int64.maxValue.toInt then some (value, rest) else none

def scalar? (chars : List Char) : Option (Scalar × List Char) :=
  match string? chars with
  | some (text, rest) => some (.text (String.ofList text), rest)
  | none => (whole? chars).map fun (value, rest) => (.whole value, rest)

def isKeyChar (char : Char) : Bool :=
  char.isAlphanum || char == '_' || char == '-'

def key? : List Char → Reading
  | '"' :: rest => basic? rest
  | '\x27' :: rest => literal? rest
  | chars =>
    match chars.takeWhile isKeyChar with
    | [] => none
    | key => some (key, chars.dropWhile isKeyChar)

def skipComment : List Char → List Char
  | '#' :: rest => rest.dropWhile isPlain
  | chars => chars

/-- The end of a line, or of the document, after spaces and a comment. -/
def finishLine? (chars : List Char) : Option (List Char) :=
  match skipComment (skipSpaces chars) with
  | [] => some []
  | rest => lineEnd? rest

def entry? (chars : List Char) : Option ((String × Scalar) × List Char) := do
  let (key, rest) ← key? chars
  match skipSpaces rest with
  | '=' :: rest =>
    let (value, rest) ← scalar? (skipSpaces rest)
    some ((String.ofList key, value), ← finishLine? rest)
  | _ => none

/-- The entries of a document, each key once. Every line takes one unit of fuel. -/
def entries? : Nat → List (String × Scalar) → List Char → Option (List (String × Scalar))
  | 0, _, _ => none
  | fuel + 1, entries, chars =>
    match skipSpaces chars with
    | [] => some entries
    | line =>
      match finishLine? line with
      | some rest => entries? fuel entries rest
      | none => do
        let (entry, rest) ← entry? line
        if entries.any fun earlier => earlier.1 == entry.1 then none
        else entries? fuel (entries ++ [entry]) rest

/-- The entries of a flat document in their order; a byte order mark before them is ignored. -/
def read? (text : String) : Option (List (String × Scalar)) :=
  let chars :=
    match text.toList with
    | '\ufeff' :: rest => rest
    | chars => chars
  entries? (chars.length + 1) [] chars

end StratifiedSampling.Toml
