import ApiReport.Route
import ApiReport.Route.Pattern
import ApiReport.Verb

/-!
# Registered routes

A routes file registers routes by calls such as `Router::get('/users', [Users::class, 'index'])`.
The first call of `Router::group` holds for all of them, wherever it stands. Names of calls may be
written in either case.

Key definitions: `Group`, `Group.find?`, `registered`.
-/
namespace ApiReport.Route

/-- The quoted text and the list that a call starts with, behind its opening parenthesis, and what
follows. -/
def callArguments? (cs : List Char) : Option ((List Char × List Char) × List Char) := do
  let (path, rest) ← quotedWord? (← Text.after? ['('] cs)
  let rest ← Text.after? [','] (Text.skipBlanks rest)
  let (items, rest) ← bracketed? (Text.skipBlanks rest)
  return ((path, items), rest)

/-- What follows the name of a router call. -/
def routerCall? (name : String) (cs : List Char) : Option (List Char) :=
  Text.afterAnyCase? ("router::" ++ name).toList cs

/-- What a group call gives to all routes of its file. -/
structure Group where
  path : String
  middleware : List String
  deriving DecidableEq, Repr

/-- A group call at the start of a text. -/
def Group.read? (cs : List Char) : Option Group := do
  let ((path, items), _) ← callArguments? (← routerCall? "group" cs)
  return { path := String.ofList path, middleware := middlewareNames items }

/-- The first group call of a text. -/
def Group.find? (cs : List Char) : Option Group := Text.firstAt? Group.read? cs

/-- A route call: its verb, its path and its handler reference. -/
structure Call where
  verb : Verb
  path : List Char
  handler : List Char
  deriving DecidableEq, Repr

/-- A route call at the start of a text, and what follows it. -/
def Call.read? (cs : List Char) : Option (Call × List Char) := do
  let (verb, rest) ← Verb.all.findSome? fun v => (routerCall? v.key cs).map fun rest => (v, rest)
  let ((path, handler), rest) ← callArguments? rest
  if handler.isEmpty then none else some ({ verb, path, handler }, rest)

def registeredDescription : String := "Router route"

/-- The route that a call registers. -/
def Call.route (c : Call) (source : String) (group : Group) : Route :=
  { method := c.verb.method
    path := group.path ++ String.ofList c.path
    description := registeredDescription
    controller := String.ofList (Text.trim c.handler)
    handler := ""
    source
    middleware := group.middleware
    origin := .registered }

/-- The routes that the calls of a text register, in the order of the text. -/
def registered (source : String) (text : List Char) : List Route :=
  let group := (Group.find? text).getD { path := "", middleware := [] }
  (Text.allAt Call.read? text).map fun c => c.route source group

end ApiReport.Route
