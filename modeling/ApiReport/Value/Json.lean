import ApiReport.Value

/-!
# JSON text

Reading allows no extensions of the grammar: blanks are space, tab, line feed and
carriage return only, and nothing may follow the value. A key written twice keeps its first position
and its last value. Writing is compact.

A string is a sequence of code units, and an escape may leave it with half of a surrogate pair.
Texts here are sequences of characters, so such a half is read as U+FFFD: documents with one lie
outside of what is modelled.

Key definitions: `Json.read`, `Json.write`.
-/
namespace ApiReport.Json

/-- A reader of one construct: what it denotes and the text after it, or the text at which it
failed. -/
abbrev Reader (α : Type) := List Char → Except (List Char) (α × List Char)

/-- The text after leading blanks. -/
def skipBlanks : List Char → List Char :=
  List.dropWhile fun c => c == ' ' || c == '\t' || c == '\n' || c == '\r'

def hexDigit? (c : Char) : Option Nat :=
  if c.isDigit then some (c.toNat - 48)
  else if 'a' ≤ c && c ≤ 'f' then some (c.toNat - 87)
  else if 'A' ≤ c && c ≤ 'F' then some (c.toNat - 55)
  else none

def hexNumber? (cs : List Char) : Option Nat :=
  cs.foldlM (fun n c => (hexDigit? c).map (16 * n + ·)) 0

/-- The character that a letter stands for after a reverse solidus. -/
def escaped? : Char → Option Char
  | '"' => some '"'
  | '\\' => some '\\'
  | '/' => some '/'
  | 'b' => some '\x08'
  | 'f' => some '\x0c'
  | 'n' => some '\n'
  | 'r' => some '\r'
  | 't' => some '\t'
  | _ => none

/-- The code units of a string up to its closing quote. -/
def stringBody : List Char → Except (List Char) (List Nat × List Char)
  | [] => .error []
  | '"' :: rest => .ok ([], rest)
  | '\\' :: 'u' :: a :: b :: c :: d :: rest =>
    match hexNumber? [a, b, c, d] with
    | none => .error (a :: b :: c :: d :: rest)
    | some n => (stringBody rest).map fun r => (n :: r.1, r.2)
  | '\\' :: c :: rest =>
    match escaped? c with
    | none => .error (c :: rest)
    | some e => (stringBody rest).map fun r => (e.toNat :: r.1, r.2)
  | c :: rest =>
    if c.toNat < 0x20 || c = '\\' then .error (c :: rest)
    else (stringBody rest).map fun r => (c.toNat :: r.1, r.2)

/-- The text of a string whose opening quote has been read. -/
def string : Reader String := fun cs =>
  (stringBody cs).map fun r => (String.ofList (Text.ofCodes r.1), r.2)

/-- The number that decimal digits denote. -/
def decimal (ds : List Char) : Nat := ds.foldl (fun n d => 10 * n + (d.toNat - 48)) 0

/-- One or more decimal digits. -/
def digits1 : Reader (List Char) := fun cs =>
  match cs.takeWhile Char.isDigit with
  | [] => .error cs
  | ds => .ok (ds, cs.dropWhile Char.isDigit)

/-- The integral digits of a number: no zero stands before another digit. -/
def integral : Reader (List Char)
  | '0' :: rest => .ok (['0'], rest)
  | cs => digits1 cs

/-- The digits after a decimal point, if there is one. -/
def fractional : Reader (List Char)
  | '.' :: rest => digits1 rest
  | cs => .ok ([], cs)

/-- The power of ten after an exponent mark, or zero. -/
def exponent : Reader Int
  | cs =>
    let signed : Reader Int
      | '-' :: rest => (digits1 rest).map fun r => (-(decimal r.1 : Int), r.2)
      | '+' :: rest => (digits1 rest).map fun r => ((decimal r.1 : Int), r.2)
      | rest => (digits1 rest).map fun r => ((decimal r.1 : Int), r.2)
    match cs with
    | 'e' :: rest | 'E' :: rest => signed rest
    | cs => .ok (0, cs)

def number : Reader Number := fun cs => do
  let (negative, cs) := match cs with
    | '-' :: rest => (true, rest)
    | cs => (false, cs)
  let (whole, cs) ← integral cs
  let (part, cs) ← fractional cs
  let (power, cs) ← exponent cs
  return (Number.ofDecimal negative (decimal (whole ++ part)) (power - part.length), cs)

/-- A fixed word and the value it denotes. -/
def word (w : List Char) (v : Value) : Reader Value := fun cs =>
  if w.isPrefixOf cs then .ok (v, cs.drop w.length) else .error cs

mutual

/-- A value, within `fuel` nested constructs. -/
def value (fuel : Nat) : Reader Value := fun cs =>
  match fuel with
  | 0 => .error cs
  | fuel + 1 =>
    match skipBlanks cs with
    | [] => .error []
    | '"' :: rest => (string rest).map fun r => (.text r.1, r.2)
    | '[' :: rest =>
      match skipBlanks rest with
      | ']' :: rest => .ok (.list [], rest)
      | rest => (items fuel rest).map fun r => (.list r.1, r.2)
    | '{' :: rest =>
      match skipBlanks rest with
      | '}' :: rest => .ok (.mapping [], rest)
      | rest => (fields fuel rest).map fun r => (Value.ofEntries r.1, r.2)
    | 't' :: rest => word ['t', 'r', 'u', 'e'] (.bool true) ('t' :: rest)
    | 'f' :: rest => word ['f', 'a', 'l', 's', 'e'] (.bool false) ('f' :: rest)
    | 'n' :: rest => word ['n', 'u', 'l', 'l'] .null ('n' :: rest)
    | rest => (number rest).map fun r => (.number r.1, r.2)

/-- The items of a list up to its closing bracket. -/
def items (fuel : Nat) : Reader (List Value) := fun cs =>
  match fuel with
  | 0 => .error cs
  | fuel + 1 => do
    let (v, cs) ← value fuel cs
    match skipBlanks cs with
    | ',' :: rest =>
      let (more, rest) ← items fuel rest
      return (v :: more, rest)
    | ']' :: rest => return ([v], rest)
    | rest => .error rest

/-- The entries of a mapping up to its closing brace. -/
def fields (fuel : Nat) : Reader (List (String × Value)) := fun cs =>
  match fuel with
  | 0 => .error cs
  | fuel + 1 => do
    let (key, cs) ← match skipBlanks cs with
      | '"' :: rest => string rest
      | rest => .error rest
    let cs ← match skipBlanks cs with
      | ':' :: rest => pure rest
      | rest => .error rest
    let (v, cs) ← value fuel cs
    match skipBlanks cs with
    | ',' :: rest =>
      let (more, rest) ← fields fuel rest
      return ((key, v) :: more, rest)
    | '}' :: rest => return ([(key, v)], rest)
    | rest => .error rest

end

/-- The value of a JSON text, or the part of the text at which reading failed. Every nested
construct takes a character, so the length of the text bounds the nesting. -/
def read (cs : List Char) : Except (List Char) Value := do
  let (v, rest) ← value (cs.length + 1) cs
  match skipBlanks rest with
  | [] => return v
  | rest => .error rest

/-- A character inside a written string. -/
def writeChar (c : Char) : List Char :=
  match c with
  | '"' => ['\\', '"']
  | '\\' => ['\\', '\\']
  | '\x08' => ['\\', 'b']
  | '\x0c' => ['\\', 'f']
  | '\n' => ['\\', 'n']
  | '\r' => ['\\', 'r']
  | '\t' => ['\\', 't']
  | c =>
    if c.toNat < 0x20 then
      ['\\', 'u', '0', '0', Nat.digitChar (c.toNat / 16), Nat.digitChar (c.toNat % 16)]
    else [c]

def writeString (s : String) : String :=
  String.ofList ('"' :: s.toList.flatMap writeChar ++ ['"'])

/-- A number; NaN and the infinities have no JSON form and are written as null. -/
def writeNumber : Number → String
  | .nan | .infinity _ => "null"
  | n => n.text

mutual

/-- A value as compact JSON text. A special value, which is never written, goes as an empty
mapping. -/
def write : Value → String
  | .null => "null"
  | .bool b => if b then "true" else "false"
  | .number n => writeNumber n
  | .text s => writeString s
  | .list items => "[" ++ ",".intercalate (writeItems items) ++ "]"
  | .mapping entries => "\x7b" ++ ",".intercalate (writeEntries entries) ++ "\x7d"
  | .special _ => "\x7b\x7d"

def writeItems : List Value → List String
  | [] => []
  | v :: rest => write v :: writeItems rest

def writeEntries : List (String × Value) → List String
  | [] => []
  | (k, v) :: rest => (writeString k ++ ":" ++ write v) :: writeEntries rest

end

end ApiReport.Json
