import ApiReport.Text.Find

/-!
# Environment files

A line of an environment file may set a variable: a name, an equals sign (or a colon and a blank),
and a value. A value in quotes may run over several lines; any other value ends at the end of the
line or at a number sign, which starts a comment. Other lines are passed over.

Key definitions: `EnvFile.Assignment`, `EnvFile.unifyLineEnds`, `EnvFile.lineEnd?`,
`EnvFile.quotedValue?`, `EnvFile.value`, `EnvFile.assignment?`, `EnvFile.meaning`,
`EnvFile.assignments`.
-/
namespace ApiReport.EnvFile

/-- A variable and the text of its value as it stands in the file. -/
structure Assignment where
  name : List Char
  written : List Char
  deriving DecidableEq, Repr

/-- A text with a line feed for every carriage return, one that a line feed follows being dropped.
-/
def unifyLineEnds : List Char → List Char
  | [] => []
  | '\r' :: '\n' :: cs => '\n' :: unifyLineEnds cs
  | c :: cs => (if c = '\r' then '\n' else c) :: unifyLineEnds cs

/-- A character that ends a line. -/
def isLineEnd (c : Char) : Bool := c == '\n' || c == '\r' || c == '\u2028' || c == '\u2029'

/-- A text from the last line end among the blanks at its start. -/
def lastLineEnd? : List Char → Option (List Char)
  | [] => none
  | c :: cs =>
    if Text.isBlank c then lastLineEnd? cs <|> if isLineEnd c then some (c :: cs) else none
    else none

/-- What follows a value: blanks, maybe a comment, and then the end of a line, at which the rest
starts. -/
def lineEnd? (cs : List Char) : Option (List Char) :=
  match Text.skipBlanks cs with
  | [] => some []
  | '#' :: rest => some (rest.dropWhile fun c => !isLineEnd c)
  | _ => lastLineEnd? cs

/-- The places where a quoted text can end, each with what stands before and behind the closing
quote: first the first quote without a reverse solidus before it, then the quotes before that one,
from the last to the first. -/
def closings (quote : Char) (escaped : Bool) : List Char → List (List Char × List Char)
  | [] => []
  | c :: cs =>
    if c = quote then
      if escaped then (closings quote false cs).map (fun r => (c :: r.1, r.2)) ++ [([], cs)]
      else [([], cs)]
    else (closings quote (c == '\\') cs).map fun r => (c :: r.1, r.2)

/-- A value in quotes behind blanks, and the rest from the end of its line on. -/
def quotedValue? (quote : Char) (cs : List Char) : Option (List Char × List Char) := do
  let body ← Text.after? [quote] (Text.skipBlanks cs)
  (closings quote false body).findSome? fun r =>
    (lineEnd? r.2).map fun rest => (quote :: r.1 ++ [quote], rest)

/-- A character of a value without quotes. -/
def isPlain (c : Char) : Bool := c != '#' && c != '\n' && c != '\r'

/-- A value, and the rest from the end of its line on. -/
def value (cs : List Char) : List Char × List Char :=
  let quoted := quotedValue? '\'' cs <|> quotedValue? '"' cs <|> quotedValue? '`' cs
  quoted.getD (cs.takeWhile isPlain, (lineEnd? (cs.dropWhile isPlain)).getD [])

/-- A character of the name of a variable. -/
def isNameChar (c : Char) : Bool := c.isAlphanum || c == '_' || c == '.' || c == '-'

/-- What follows the sign between a name and its value. -/
def assigned? (cs : List Char) : Option (List Char) :=
  Text.after? ['='] (Text.skipBlanks cs) <|>
    match cs with
    | ':' :: c :: rest => if Text.isBlank c then some rest else none
    | _ => none

/-- A name and its value. -/
def named? (cs : List Char) : Option (Assignment × List Char) := do
  let name := cs.takeWhile isNameChar
  let rest ← assigned? (cs.dropWhile isNameChar)
  let (written, rest) := value rest
  if name.isEmpty then none else some ({ name, written }, rest)

/-- A name and its value behind the word `export` and blanks. -/
def exported? (cs : List Char) : Option (Assignment × List Char) := do
  let rest ← Text.after? ['e', 'x', 'p', 'o', 'r', 't'] cs
  let body := Text.skipBlanks rest
  if body.length < rest.length then named? body else none

/-- An assignment at the start of a line, and the rest from its end on. -/
def assignment? (cs : List Char) : Option (Assignment × List Char) :=
  let body := Text.skipBlanks cs
  exported? body <|> named? body

/-- The text up to the last of some quotes that stand at the end of a line, and what follows that
quote. -/
def lastClosing? (quote : Char) : List Char → Option (List Char × List Char)
  | [] => none
  | c :: cs =>
    match lastClosing? quote cs with
    | some r => some (c :: r.1, r.2)
    | none => if c = quote && cs.head?.all isLineEnd then some ([], cs) else none

/-- A text without the quotes that enclose a line or several lines of it. -/
def withoutQuotes (atStart : Bool) : List Char → List Char
  | [] => []
  | c :: cs =>
    let isQuote := c == '\'' || c == '"' || c == '`'
    let enclosed := if atStart && isQuote then lastClosing? c cs else none
    match enclosed with
    | some r => r.1 ++ if r.2.length ≤ cs.length then withoutQuotes false r.2 else []
    | none => c :: withoutQuotes (isLineEnd c) cs
termination_by cs => cs.length

/-- A text with line feeds and carriage returns for their escapes. -/
def expanded : List Char → List Char
  | '\\' :: 'n' :: cs => '\n' :: expanded cs
  | '\\' :: 'r' :: cs => '\r' :: expanded cs
  | c :: cs => c :: expanded cs
  | [] => []

/-- What the text of a value means: it is taken without blanks and quotes around it, and has escapes
if its first character is a double quote. -/
def meaning (written : List Char) : List Char :=
  let body := Text.trim written
  let text := withoutQuotes true body
  if body.head? = some '"' then expanded text else text

/-- An assignment where a line ends and the next one starts. -/
def nextAssignment? : List Char → Option (Assignment × List Char)
  | c :: cs => if isLineEnd c then assignment? cs else none
  | [] => none

/-- The variables that a file sets, in order. -/
def assignments (text : List Char) : List (String × String) :=
  (Text.allAt nextAssignment? ('\n' :: unifyLineEnds text)).map fun a =>
    (String.ofList a.name, String.ofList (meaning a.written))

end ApiReport.EnvFile
