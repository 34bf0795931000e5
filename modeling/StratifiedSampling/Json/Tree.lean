import StratifiedSampling.Json.Number

/-! JSON text as a tree. The text follows the grammar as a whole or there is no tree. A
number beyond all doubles and a string with half of a surrogate pair are good grammar
that stands for no value, which is no fault where nobody reads them. -/

namespace StratifiedSampling.Json

inductive Tree where
  | null
  | bool (value : Bool)
  | whole (value : Int)
  | double (value : Double)
  | string (text : String)
  | array (items : List Tree)
  | object (members : List (Option String × Tree))
  /-- A number or a string that has no value. -/
  | unreadable

namespace Tree

def ofText : Option String → Tree
  | some text => string text
  | none => unreadable

def ofLiteral (literal : Literal) : Tree :=
  match literal.toWhole? with
  | some value => whole value
  | none =>
    match literal.toDouble? with
    | some value => double value
    | none => unreadable

end Tree

def isSpace (char : Char) : Bool :=
  char == ' ' || char == '\t' || char == '\n' || char == '\r'

def skipSpaces (chars : List Char) : List Char :=
  chars.dropWhile isSpace

def escape? : Char → Option Char
  | '"' => some '"'
  | '\\' => some '\\'
  | '/' => some '/'
  | 'b' => some '\x08'
  | 'f' => some '\x0c'
  | 'n' => some '\n'
  | 'r' => some '\r'
  | 't' => some '\t'
  | _ => none

/-- The code points of a string up to its closing quote, halves of surrogate pairs on their own. -/
def stringCodes? : List Char → Option (List Nat × List Char)
  | [] => none
  | '"' :: rest => some ([], rest)
  | '\\' :: 'u' :: a :: b :: c :: d :: rest => do
    let code ← Text.readHex? [a, b, c, d]
    let (codes, rest) ← stringCodes? rest
    some (code :: codes, rest)
  | '\\' :: mark :: rest => do
    let char ← escape? mark
    let (codes, rest) ← stringCodes? rest
    some (char.toNat :: codes, rest)
  | char :: rest => do
    if char.toNat < 32 ∨ char = '\\' then none
    else
      let (codes, rest) ← stringCodes? rest
      some (char.toNat :: codes, rest)

def isHighHalf (code : Nat) : Bool :=
  0xD800 ≤ code && code < 0xDC00

def isLowHalf (code : Nat) : Bool :=
  0xDC00 ≤ code && code < 0xE000

/-- Characters from code points; a high half needs a low half right after it. -/
def joinHalves? : List Nat → Option (List Char)
  | [] => some []
  | high :: low :: rest =>
    if isHighHalf high then
      if isLowHalf low then
        (joinHalves? rest).map (Char.ofNat (0x10000 + (high - 0xD800) * 0x400 + (low - 0xDC00)) :: ·)
      else none
    else if isLowHalf high then none
    else (joinHalves? (low :: rest)).map (Char.ofNat high :: ·)
  | [code] => if isHighHalf code || isLowHalf code then none else some [Char.ofNat code]

def stringText? (chars : List Char) : Option (Option String × List Char) := do
  let (codes, rest) ← stringCodes? chars
  some ((joinHalves? codes).map String.ofList, rest)

def digits? (chars : List Char) : Option (List Char × List Char) :=
  match chars.takeWhile Char.isDigit with
  | [] => none
  | digits => some (digits, chars.dropWhile Char.isDigit)

def integer? : List Char → Option (List Char × List Char)
  | '0' :: rest => some (['0'], rest)
  | chars => digits? chars

def fraction? : List Char → Option (List Char × List Char)
  | '.' :: rest => digits? rest
  | chars => some ([], chars)

def exponent? (chars : List Char) : Option (Option Int × List Char) :=
  match chars with
  | [] => some (none, [])
  | mark :: rest =>
    if mark = 'e' ∨ mark = 'E' then do
      let (sign, rest) :=
        match rest with
        | '-' :: rest => ((-1 : Int), rest)
        | '+' :: rest => (1, rest)
        | rest => (1, rest)
      let (digits, rest) ← digits? rest
      some (some (sign * (Text.digitsValue digits : Int)), rest)
    else some (none, chars)

def number? (negative : Bool) (chars : List Char) : Option (Tree × List Char) := do
  let (integer, chars) ← integer? chars
  let (fraction, chars) ← fraction? chars
  let (exponent, chars) ← exponent? chars
  some (.ofLiteral ⟨negative, integer, fraction, exponent⟩, chars)

mutual
/-- The value at the start of a text, and the rest. Every value, item and member takes one
unit of fuel and at least one character. -/
def value? : Nat → List Char → Option (Tree × List Char)
  | 0, _ => none
  | fuel + 1, chars =>
    match skipSpaces chars with
    | 'n' :: 'u' :: 'l' :: 'l' :: rest => some (.null, rest)
    | 't' :: 'r' :: 'u' :: 'e' :: rest => some (.bool true, rest)
    | 'f' :: 'a' :: 'l' :: 's' :: 'e' :: rest => some (.bool false, rest)
    | '"' :: rest => (stringText? rest).map fun (text, rest) => (.ofText text, rest)
    | '[' :: rest =>
      match skipSpaces rest with
      | ']' :: rest => some (.array [], rest)
      | rest => (items? fuel rest).map fun (items, rest) => (.array items, rest)
    | '\x7b' :: rest =>
      match skipSpaces rest with
      | '\x7d' :: rest => some (.object [], rest)
      | rest => (members? fuel rest).map fun (members, rest) => (.object members, rest)
    | '-' :: rest => number? true rest
    | rest => number? false rest

def items? : Nat → List Char → Option (List Tree × List Char)
  | 0, _ => none
  | fuel + 1, chars => do
    let (item, rest) ← value? fuel chars
    match skipSpaces rest with
    | ',' :: rest => (items? fuel rest).map fun (items, rest) => (item :: items, rest)
    | ']' :: rest => some ([item], rest)
    | _ => none

def members? : Nat → List Char → Option (List (Option String × Tree) × List Char)
  | 0, _ => none
  | fuel + 1, chars =>
    match skipSpaces chars with
    | '"' :: rest => do
      let (key, rest) ← stringText? rest
      match skipSpaces rest with
      | ':' :: rest =>
        let (value, rest) ← value? fuel rest
        match skipSpaces rest with
        | ',' :: rest => (members? fuel rest).map fun (members, rest) => ((key, value) :: members, rest)
        | '\x7d' :: rest => some ([(key, value)], rest)
        | _ => none
      | _ => none
    | _ => none
end

def parse? (text : String) : Option Tree := do
  let chars := text.toList
  let (tree, rest) ← value? (2 * chars.length + 1) chars
  if (skipSpaces rest).isEmpty then some tree else none

end StratifiedSampling.Json
