import ApiReport.Text.Find
import ApiReport.Text.Pieces
import ApiReport.Text.Upper

/-!
# The shapes of declarations

Declarations are recognised by their shape in the text, not by parsing the language around them. A
quoted text runs from a quote to the next one, the arguments of an attribute to the next closing
parenthesis, a list to the next closing square bracket.

Key definitions: `quoted?`, `literals`, `middlewareNames`, `attribute?`, `Arguments`,
`Arguments.ofText`, `className?`, `functionName?`.
-/
namespace ApiReport.Route

/-- A quoted text at the start of a text, and what follows it. -/
def quoted? (cs : List Char) : Option (List Char × List Char) := do
  let body ← Text.after? ['\''] cs
  let rest ← Text.after? ['\''] (body.dropWhile (· != '\''))
  return (body.takeWhile (· != '\''), rest)

/-- A quoted text that is not empty. -/
def quotedWord? (cs : List Char) : Option (List Char × List Char) :=
  (quoted? cs).filter fun r => !r.1.isEmpty

/-- A list in square brackets at the start of a text, without the brackets, and what follows it. -/
def bracketed? (cs : List Char) : Option (List Char × List Char) := do
  let body ← Text.after? ['['] cs
  let rest ← Text.after? [']'] (body.dropWhile (· != ']'))
  return (body.takeWhile (· != ']'), rest)

/-- The quoted texts of a text, from left to right. -/
def literals (cs : List Char) : List (List Char) := Text.allAt quoted? cs

/-- A text without the quotes at its ends. -/
def unquoted (cs : List Char) : List Char :=
  ((cs.dropWhile (· == '\'')).reverse.dropWhile (· == '\'')).reverse

/-- The names in a comma-separated list of quoted names. -/
def middlewareNames (cs : List Char) : List String :=
  (Text.commaList cs).map fun entry => String.ofList (unquoted entry)

/-- What follows the name of an argument and its colon at the start of a text. -/
def argument? (name : String) (cs : List Char) : Option (List Char) := do
  let rest ← Text.after? name.toList cs
  let rest ← Text.after? [':'] (Text.skipBlanks rest)
  return Text.skipBlanks rest

/-- The quoted value of an argument; two quotes with nothing between them are no value. -/
def textArgument? (name : String) (cs : List Char) : Option (List Char) := do
  let rest ← argument? name cs
  return (← quotedWord? rest).1

/-- The list that is the value of an argument. -/
def listArgument? (name : String) (cs : List Char) : Option (List Char) := do
  let rest ← argument? name cs
  return (← bracketed? rest).1

structure Arguments where
  path : Option String
  method : Option String
  description : Option String
  middleware : List String
  deriving DecidableEq, Repr

/-- The arguments in the text between the parentheses of a route attribute. The path is the first
quoted text, wherever it stands. -/
def Arguments.ofText (cs : List Char) : Arguments :=
  { path := (literals cs).head?.map String.ofList
    method :=
      (Text.firstAt? (textArgument? "method") cs).map fun m => String.ofList (Text.uppercase m)
    description := (Text.firstAt? (textArgument? "description") cs).map String.ofList
    middleware := ((Text.firstAt? (listArgument? "middleware") cs).map middlewareNames).getD [] }

/-- The text between the parentheses of an attribute at the start of a text. -/
def attribute? (name : String) (cs : List Char) : Option (List Char) := do
  let body ← Text.after? ('#' :: '[' :: name.toList ++ ['(']) cs
  let _ ← Text.after? [')', ']'] (body.dropWhile (· != ')'))
  return body.takeWhile (· != ')')

/-- A character of a name. -/
def isNameChar (c : Char) : Bool := c.isAlphanum || c == '_'

/-- The name behind a keyword at the start of a text, and what follows it. Blanks separate the two.
-/
def nameAfter? (keyword : String) (cs : List Char) : Option (List Char × List Char) := do
  let rest ← Text.after? keyword.toList cs
  let body := Text.skipBlanks rest
  let name := body.takeWhile isNameChar
  if body.length < rest.length && !name.isEmpty then some (name, body.dropWhile isNameChar)
  else none

/-- The name of the first class that a line declares. -/
def className? (line : List Char) : Option (List Char) :=
  Text.firstAt? (fun cs => (nameAfter? "class" cs).map Prod.fst) line

/-- The name of the first function that a line declares; a parenthesis has to follow it. -/
def functionName? (line : List Char) : Option (List Char) :=
  Text.firstAt? (fun cs => do
    let (name, rest) ← nameAfter? "function" cs
    let _ ← Text.after? ['('] (Text.skipBlanks rest)
    return name) line

/-- The text between the parentheses of the first route attribute of a line. -/
def routeAttribute? (line : List Char) : Option (List Char) :=
  Text.firstAt? (attribute? "Route") line

/-- The path that the first group attribute of a line gives. -/
def groupPath? (line : List Char) : Option (List Char) :=
  (Text.firstAt? (attribute? "RouteGroup") line).bind fun arguments => (literals arguments).head?

end ApiReport.Route
