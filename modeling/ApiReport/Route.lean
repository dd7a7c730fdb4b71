import ApiReport.Text.Units

/-!
# Routes

A route as it is declared somewhere in the sources of an application: by an annotation in front of
its handler, or by a registration in a routes file.

Key definitions: `Origin`, `Route`, `Route.le`, `Route.sorted`, `Route.Summary`, `Route.summary`.
-/
namespace ApiReport

/-- How a route is declared. A record from elsewhere may carry another label; it counts as neither
of the two. -/
inductive Origin where
  | annotated
  | registered
  | other (label : String)
  deriving DecidableEq, Repr

structure Route where
  /-- The method in upper case. -/
  method : String
  /-- The group's path followed by the route's own. -/
  path : String
  description : String
  /-- The class that owns the handler, or the handler reference of a registration. -/
  controller : String
  /-- The function that handles the route; empty if none is known. -/
  handler : String
  /-- The file that holds the declaration. -/
  source : String
  middleware : List String
  origin : Origin
  deriving DecidableEq, Repr

namespace Route

/-- The order in which routes are reported: by path, then by method. -/
def le (a b : Route) : Bool :=
  if a.path = b.path then Text.unitsLE a.method b.method else Text.unitsLE a.path b.path

/-- Routes in the order in which they are reported; routes with equal path and method keep their
order. -/
def sorted (routes : List Route) : List Route := routes.mergeSort le

/-- How many routes there are, by origin. -/
structure Summary where
  total : Nat
  annotated : Nat
  registered : Nat
  deriving DecidableEq, Repr

def summary (routes : List Route) : Summary :=
  { total := routes.length
    annotated := routes.countP fun r => r.origin = .annotated
    registered := routes.countP fun r => r.origin = .registered }

end Route

end ApiReport
