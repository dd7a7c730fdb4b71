import ApiReport.Path
import ApiReport.Report
import ApiReport.Route

/-!
# The report on declared routes

The report counts the routes, names the controllers without any, and lists the routes under one
heading for each path.

Key definitions: `Route.lines`, `Route.Options`, `Route.coverageLines`, `Route.listing`,
`Route.report`.
-/
namespace ApiReport.Route

def title : String := "API Details (Parsed from Code)"

/-- What a report says instead of a missing description. -/
def noDescription : String := "No description"

/-- How the handler of a route is shown: with its class, or the class alone. -/
def handlerLabel? (r : Route) : Option String :=
  if r.handler ≠ "" then some (r.controller ++ "::" ++ r.handler)
  else if r.controller ≠ "" then some r.controller
  else none

/-- The entry of a route: what is not known of its handler and middleware takes no line. -/
def lines (rootDir : String) (r : Route) : List String :=
  ["- **" ++ r.method ++ "** — " ++ if r.description = "" then noDescription else r.description] ++
    ((handlerLabel? r).map fun label => "  - Handler: " ++ label).toList ++
    (if r.middleware.isEmpty then [] else ["  - Middleware: " ++ ", ".intercalate r.middleware]) ++
    ["  - Source: " ++ Path.display rootDir r.source, ""]

/-- What a report on routes needs to know apart from its routes. -/
structure Options where
  instant : Option Int
  zone : Option String
  rootDir : String
  routesFileName : String

/-- The counts of a report, and the controllers without routes. -/
def coverageLines (routes : List Route) (withoutRoutes : List String) (o : Options) : List String :=
  let s := summary routes
  ["## Coverage Summary",
    "- Total routes: " ++ toString s.total,
    "- Attribute routes: " ++ toString s.annotated,
    "- " ++ o.routesFileName ++ " routes: " ++ toString s.registered,
    "- Controllers without routes: " ++ toString withoutRoutes.length,
    ""] ++
    if withoutRoutes.isEmpty then []
    else ["## Potentially Missing Routes (Controllers without Route attributes)"] ++
      withoutRoutes.map (fun file => Report.bullet (Path.display o.rootDir file)) ++ [""]

def heading (path : String) : String := "## " ++ path

/-- The entries of routes in their order, with a heading where the path differs from that of the
route before. -/
def listing (rootDir : String) : (previous : Option String) → List Route → List String
  | _, [] => []
  | previous, r :: routes =>
    (if previous = some r.path then [] else [heading r.path]) ++ lines rootDir r ++
      listing rootDir (some r.path) routes

def reportLines (routes : List Route) (withoutRoutes : List String) (o : Options) : List String :=
  Report.header title o.instant o.zone ++ Report.preamble ++ coverageLines routes withoutRoutes o ++
    listing o.rootDir none routes

def report (routes : List Route) (withoutRoutes : List String) (o : Options) : String :=
  Report.text (reportLines routes withoutRoutes o)

end ApiReport.Route
