import ApiReport.Failure
import ApiReport.FileTree.Listing
import ApiReport.Log
import ApiReport.Route.Annotation
import ApiReport.Route.Registration

/-!
# Surveying sources

The source files below the scan roots are read, each once however many roots lead to it, and
searched for routes: for annotations all of them, for registrations the routes files. Controller
files in which no route was found are what the survey misses.

Key definitions: `Route.scanFiles`, `Route.Source`, `Route.routesOf`, `Route.Survey`,
`Route.Survey.ofTree`, `Route.Survey.log`, `Route.Coverage`, `Route.Coverage.ofTree`.
-/
namespace ApiReport.Route

/-- The files below directories whose names end in a given way, each once. -/
def filesIn (t : FileTree) (directories : List String) (ending : String) :
    Except Failure (List String) := do
  let lists ← directories.mapM fun d => (t.sources d ending).mapError fun f => .system f "scandir"
  return lists.flatten.eraseDups

def existingRoots (t : FileTree) (s : Settings) : List String := s.scanRoots.filter t.isDirectory

/-- The files below the scan roots that are not excluded. A project none of whose roots exists is
refused. -/
def scanFiles (t : FileTree) (s : Settings) : Except Failure (List String) := do
  if (existingRoots t s).isEmpty then .error (.noScanRoot s.scanRoots)
  let files ← filesIn t (existingRoots t s) s.sourceExtension
  return files.filter fun file => !s.excludedFiles.contains file

/-- Warnings about scan roots that are no directories. -/
def rootWarnings (t : FileTree) (s : Settings) : List Log.Entry :=
  (s.scanRoots.filter fun root => !t.isDirectory root).map fun root =>
    { level := .warn, message := "Skipping missing scan root " ++ root }

structure Source where
  path : String
  text : List Char
  /-- Whether bytes that are no text had to be replaced. -/
  lossy : Bool

/-- The source file that a path leads to. -/
def Source.read (t : FileTree) (path : String) : Except FileTree.Fault Source :=
  (t.read path).map fun bytes =>
    { path, text := Text.Utf8.decodeSource bytes, lossy := !Text.Utf8.isText bytes }

/-- The routes declared in source files: those of annotations, then those of registrations. -/
def routesOf (routesFileName : String) (sources : List Source) : List Route :=
  sources.flatMap (fun f => annotated f.path f.text) ++
    (sources.filter fun f => Path.baseName f.path = routesFileName).flatMap fun f =>
      registered f.path f.text

structure Survey where
  /-- The files scanned. -/
  files : List String
  /-- Those of them that are not text throughout. -/
  lossy : List String
  /-- The routes in the order of reports. -/
  routes : List Route

namespace Survey

def ofTree (t : FileTree) (s : Settings) : Except Failure Survey := do
  let files ← scanFiles t s
  let sources ← files.mapM fun file => (Source.read t file).mapError fun f => .system f "open"
  return {
    files
    lossy := (sources.filter Source.lossy).map Source.path
    routes := sorted (routesOf s.routesFileName sources) }

/-- The files that declare routes, in ascending order. -/
def filesWithRoutes (v : Survey) : List String :=
  Text.sortByKey id (v.routes.map Route.source).eraseDups

/-- Warnings about files that are not text throughout. -/
def lossyWarnings (v : Survey) : List Log.Entry :=
  v.lossy.map fun file =>
    { level := .warn, message := "Replaced undecodable bytes while reading " ++ file }

/-- The warnings of a survey, those about scan roots first. A survey that fails has no others. -/
def log (t : FileTree) (s : Settings) : List Log.Entry :=
  rootWarnings t s ++
    match ofTree t s with
    | .ok v => v.lossyWarnings
    | .error _ => []

end Survey

/-- Which controllers declare routes. -/
structure Coverage where
  /-- The controller files in ascending order. -/
  controllers : List String
  /-- Those of them without routes. -/
  withoutRoutes : List String

/-- The coverage of the controller directories that exist, given the files that declare routes. -/
def Coverage.ofTree (t : FileTree) (directories : List String) (ending : String)
    (filesWithRoutes : List String) : Except Failure Coverage := do
  let files ← filesIn t (directories.filter t.isDirectory) ending
  let controllers := Text.sortByKey id files
  return { controllers, withoutRoutes := controllers.filter fun f => !filesWithRoutes.contains f }

end ApiReport.Route
