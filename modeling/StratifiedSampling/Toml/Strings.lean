import StratifiedSampling.Text.Digits

/-! The four kinds of TOML strings. Readers start after the opening quotes and return the
text and what follows the closing ones. Basic strings have escapes and literal strings
have none; a string of many lines may hold up to two quotes right before the closing
three, and a line ending in it is read as a line feed. -/

namespace StratifiedSampling.Toml

abbrev Reading := Option (List Char × List Char)

def before (char : Char) (reading : Reading) : Reading :=
  reading.map fun (chars, rest) => (char :: chars, rest)

def isSpace (char : Char) : Bool :=
  char == ' ' || char == '\t'

/-- A character of comments and strings, which is no control character except the tab. -/
def isPlain (char : Char) : Bool :=
  char == '\t' || (32 ≤ char.toNat && char.toNat != 127)

def skipSpaces (chars : List Char) : List Char :=
  chars.dropWhile isSpace

def lineEnd? : List Char → Option (List Char)
  | '\n' :: rest => some rest
  | '\r' :: '\n' :: rest => some rest
  | _ => none

/-- A character from the digits of its code point, which may not be half of a surrogate pair. -/
def unicode? (digits : List Char) : Option Char := do
  let code ← Text.readHex? digits
  if code < 0xD800 ∨ (0xE000 ≤ code ∧ code < 0x110000) then some (Char.ofNat code) else none

def escape? : Char → Option Char
  | 'b' => some '\x08'
  | 'f' => some '\x0c'
  | 'n' => some '\n'
  | 'r' => some '\r'
  | 't' => some '\t'
  | '"' => some '"'
  | '\\' => some '\\'
  | _ => none

def basic? : List Char → Reading
  | [] => none
  | '"' :: rest => some ([], rest)
  | '\\' :: 'u' :: a :: b :: c :: d :: rest => do
    before (← unicode? [a, b, c, d]) (basic? rest)
  | '\\' :: 'U' :: a :: b :: c :: d :: e :: f :: g :: h :: rest => do
    before (← unicode? [a, b, c, d, e, f, g, h]) (basic? rest)
  | '\\' :: mark :: rest => do before (← escape? mark) (basic? rest)
  | char :: rest => if isPlain char then before char (basic? rest) else none

def literal? : List Char → Reading
  | [] => none
  | '\x27' :: rest => some ([], rest)
  | char :: rest => if isPlain char then before char (literal? rest) else none

/-- A basic string of many lines. A backslash at the end of a line removes the blanks and
line endings after it; `trimming` tells that they are being removed. -/
def longBasic? (trimming : Bool) : List Char → Reading
  | [] => none
  | '"' :: '"' :: '"' :: '"' :: '"' :: rest => some (['"', '"'], rest)
  | '"' :: '"' :: '"' :: '"' :: rest => some (['"'], rest)
  | '"' :: '"' :: '"' :: rest => some ([], rest)
  | '\r' :: '\n' :: rest => if trimming then longBasic? true rest else before '\n' (longBasic? false rest)
  | '\n' :: rest => if trimming then longBasic? true rest else before '\n' (longBasic? false rest)
  | '\\' :: 'u' :: a :: b :: c :: d :: rest => do
    before (← unicode? [a, b, c, d]) (longBasic? false rest)
  | '\\' :: 'U' :: a :: b :: c :: d :: e :: f :: g :: h :: rest => do
    before (← unicode? [a, b, c, d, e, f, g, h]) (longBasic? false rest)
  | '\\' :: mark :: rest =>
    if (lineEnd? (skipSpaces (mark :: rest))).isSome then longBasic? true (mark :: rest)
    else do before (← escape? mark) (longBasic? false rest)
  | char :: rest =>
    if trimming && isSpace char then longBasic? true rest
    else if isPlain char then before char (longBasic? false rest)
    else none

def longLiteral? : List Char → Reading
  | [] => none
  | '\x27' :: '\x27' :: '\x27' :: '\x27' :: '\x27' :: rest => some (['\x27', '\x27'], rest)
  | '\x27' :: '\x27' :: '\x27' :: '\x27' :: rest => some (['\x27'], rest)
  | '\x27' :: '\x27' :: '\x27' :: rest => some ([], rest)
  | '\r' :: '\n' :: rest => before '\n' (longLiteral? rest)
  | '\n' :: rest => before '\n' (longLiteral? rest)
  | char :: rest => if isPlain char then before char (longLiteral? rest) else none

/-- A line ending right after the opening quotes does not belong to the text. -/
def dropLineEnd (chars : List Char) : List Char :=
  (lineEnd? chars).getD chars

def string? : List Char → Reading
  | '"' :: '"' :: '"' :: rest => longBasic? false (dropLineEnd rest)
  | '"' :: rest => basic? rest
  | '\x27' :: '\x27' :: '\x27' :: rest => longLiteral? (dropLineEnd rest)
  | '\x27' :: rest => literal? rest
  | _ => none

end StratifiedSampling.Toml
