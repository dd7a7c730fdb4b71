import ApiReport.FileTree.Change
import ApiReport.Route.Report
import ApiReport.Route.Survey
import ApiReport.Spec.Load
import ApiReport.Spec.Report

/-!
# Generating reports

A run reads a file tree and either writes its report or, to check it, compares it with the one that
is there. Its steps hand on the tree, also where one of them fails.

Key definitions: `Status`, `Run`, `Task`, `Task.runOn`, `readReport`, `writeReport`, `finish`,
`generateSpec`, `generateCode`.
-/
namespace ApiReport

/-- What has become of a report. -/
inductive Status where
  | written
  | upToDate
  | stale
  deriving DecidableEq, Repr

def Status.name : Status → String
  | written => "written"
  | upToDate => "up-to-date"
  | stale => "stale"

/-- A run: its log, the tree that it leaves, and its result. -/
structure Run (α : Type) where
  log : List Log.Entry
  tree : FileTree
  result : Except Failure α

/-- A task that reads and changes a file tree. One that fails leaves what it has changed so far. -/
abbrev Task (α : Type) := EStateM Failure FileTree α

namespace Task

variable {α : Type}

/-- A look at the tree. -/
def look (read : FileTree → Except Failure α) : Task α := fun t =>
  match read t with
  | .ok a => .ok a t
  | .error f => .error f t

/-- A change of the tree, given the failure that its fault stands for. -/
def change (c : FileTree.Change) (failure : FileTree.Fault → Failure) : Task Unit :=
  c.adaptExcept failure

/-- The run of a task on a tree: its warnings, and what it says if it succeeds. -/
def runOn (task : Task α) (t : FileTree) (warnings : List Log.Entry) (message : α → String) :
    Run α :=
  match task t with
  | .ok r tree =>
    { log := warnings ++ [{ level := .info, message := message r }], tree, result := .ok r }
  | .error f tree => { log := warnings, tree, result := .error f }

end Task

/-- The report at a path, if anything is there. -/
def readReport (t : FileTree) (path : String) : Except Failure (Option String) :=
  if t.exists? path then ((t.readText path).map some).mapError fun f => .system f "read"
  else .ok none

/-- Writes a report at a path. -/
def writeReport (path content : String) : Task Unit :=
  .change (FileTree.write path (Text.Utf8.encode content.toList)) fun f =>
    .unwritable path (f.message ("open " ++ path))

/-- Writes a report, or compares it with the one that is there. -/
def finish (path content : String) (check : Bool) : Task Status := do
  if check then
    let existing ← Task.look fun t => readReport t path
    return if existing.any fun r => Report.same r content then .upToDate else .stale
  else
    writeReport path content
    return .written

/-- The result of a report on a description document. -/
structure SpecResult where
  outputPath : String
  operationCount : Nat
  status : Status
  content : String
  deriving DecidableEq, Repr

/-- The task of reporting on a description document. -/
def specTask (yaml : YamlReader) (s : Settings) (instant : Option Int) (check : Bool) :
    Task SpecResult := do
  let operations := Spec.operations (← Task.look fun t => Spec.load yaml t s.specPath)
  let content := Spec.report operations instant s.timeZone
  let status ← finish s.outputPath content check
  return { outputPath := s.outputPath, operationCount := operations.length, status, content }

/-- Reports on the description document of a project. -/
def generateSpec (yaml : YamlReader) (t : FileTree) (s : Settings) (instant : Option Int)
    (check : Bool) : Run SpecResult :=
  (specTask yaml s instant check).runOn t [] fun r =>
    "Rendered " ++ toString r.operationCount ++ " operations from " ++ s.specPath ++ " (" ++
      r.status.name ++ ")"

/-- The result of a report on declared routes. -/
structure CodeResult where
  outputPath : String
  counts : Route.Summary
  fileCount : Nat
  withoutRoutes : List String
  status : Status
  content : String
  deriving DecidableEq, Repr

def codeTask (s : Settings) (instant : Option Int) (check : Bool) : Task CodeResult := do
  let survey ← Task.look fun t => Route.Survey.ofTree t s
  let coverage ← Task.look fun t =>
    Route.Coverage.ofTree t s.controllerDirs s.sourceExtension survey.filesWithRoutes
  let content := Route.report survey.routes coverage.withoutRoutes
    { instant, zone := s.timeZone, rootDir := s.rootDir, routesFileName := s.routesFileName }
  let status ← finish s.codeOutputPath content check
  return {
    outputPath := s.codeOutputPath
    counts := Route.summary survey.routes
    fileCount := survey.files.length
    withoutRoutes := coverage.withoutRoutes
    status
    content }

/-- Reports on the routes that the sources of a project declare. -/
def generateCode (t : FileTree) (s : Settings) (instant : Option Int) (check : Bool) :
    Run CodeResult :=
  (codeTask s instant check).runOn t (Route.Survey.log t s) fun r =>
    "Found " ++ toString r.counts.total ++ " routes in " ++ toString r.fileCount ++ " files, " ++
      toString r.withoutRoutes.length ++ " controllers without routes (" ++ r.status.name ++ ")"

end ApiReport
