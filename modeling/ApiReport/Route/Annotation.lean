import ApiReport.Route
import ApiReport.Route.Pattern

/-!
# Annotated routes

A source file is read line by line. A line is commented if it holds a comment mark, stands inside of
a block comment, or starts like a comment line; such lines declare nothing. Every other line may
give the path of a group, name a class, and declare a route, for which the last group and the last
class hold.

Key definitions: `Place`, `Place.step`, `handlerAmong?`, `Scan`, `annotated`.
-/
namespace ApiReport.Route

/-- Where a line starts. -/
inductive Place where
  | code
  | comment
  deriving DecidableEq, Repr

/-- Where the next line starts, and whether this one is commented. A line that closes a comment is
commented as a whole, also if it opens one as well; comments do not nest. -/
def Place.step (p : Place) (line : List Char) : Place × Bool :=
  let body := Text.trimStart line
  if Text.contains ['*', '/'] body then (.code, true)
  else if Text.contains ['/', '*'] body then (.comment, true)
  else
    match p with
    | .comment => (.comment, true)
    | .code => (.code, ['/', '/'].isPrefixOf body || ['*'].isPrefixOf body)

/-- How many lines behind a route attribute are searched for its handler. -/
def handlerReach : Nat := 5

/-- The first function declared in the lines behind a route attribute, commented or not. -/
def handlerAmong? (following : List (List Char)) : Option (List Char) :=
  (following.take handlerReach).findSome? functionName?

/-- What the lines read so far say about the next one. -/
structure Scan where
  place : Place := .code
  /-- The path of the last group. -/
  group : List Char := []
  /-- The name of the last class. -/
  owner : List Char := []
  deriving DecidableEq, Repr

/-- What a line says, commented or not, about the lines behind it. -/
def Scan.next (s : Scan) (line : List Char) : Scan :=
  let (place, commented) := s.place.step line
  if commented then { s with place }
  else { place, group := (groupPath? line).getD s.group, owner := (className? line).getD s.owner }

/-- The method of a route whose attribute names none. -/
def defaultMethod : String := "GET"

/-- The route that an attribute declares, given the scan up to and with its line. -/
def Scan.route (s : Scan) (source : String) (arguments : Arguments) (following : List (List Char)) :
    Route :=
  { method := arguments.method.getD defaultMethod
    path := String.ofList s.group ++ arguments.path.getD ""
    description := arguments.description.getD ""
    controller := String.ofList s.owner
    handler := String.ofList ((handlerAmong? following).getD [])
    source
    middleware := arguments.middleware
    origin := .annotated }

/-- The route that a line declares, given the scan before it and the lines behind it. -/
def Scan.declared? (s : Scan) (source : String) (line : List Char) (following : List (List Char)) :
    Option Route :=
  if (s.place.step line).2 then none
  else (routeAttribute? line).map fun text =>
    (s.next line).route source (Arguments.ofText text) following

/-- The routes that lines declare, given the scan before them. -/
def annotatedFrom (source : String) : Scan → List (List Char) → List Route
  | _, [] => []
  | s, line :: following =>
    (s.declared? source line following).toList ++ annotatedFrom source (s.next line) following

/-- The routes that the annotations of a text declare, in the order of the text. -/
def annotated (source : String) (text : List Char) : List Route :=
  annotatedFrom source {} (Text.lines text)

end ApiReport.Route
