import ApiReport.CommandLine
import ApiReport.EnvFile
import ApiReport.Generate
import ApiReport.Settings.Load

/-!
# Scripts

A script reads environment files and its arguments, generates a report, and tells by its exit code
whether the report is written or up to date. Environment files are read as they stand: an encrypted
store beside one (`.env.vault`, opened with `DOTENV_KEY`) is not modelled.

Key definitions: `Environment.Loaded`, `Environment.load`, `Script`, `Script.Outcome`,
`Script.main`, `Script.run`.
-/
namespace ApiReport

namespace Environment

/-- The environment after files have been read into it, and the files. -/
structure Loaded where
  env : Environment
  files : List String := []

/-- A variable that is not empty. -/
def nonEmpty? (env : Environment) (name : String) : Option String :=
  (env.lookup name).filter fun s => s ≠ ""

/-- The name of the environment in which a script runs. -/
def stage (env : Environment) : String :=
  Text.trimmed ((env.nonEmpty? "API_DOCS_ENV" <|> env.nonEmpty? "NODE_ENV").getD "development")

/-- The names of the files that may set variables, in the order in which they are read. -/
def fileNames (stage : String) : List String :=
  [".env", ".env." ++ stage, ".env." ++ stage ++ ".local"]

/-- Sets variables, each in place of an earlier value. -/
def assign (env : Environment) (assignments : List (String × String)) : Environment :=
  assignments.foldl (fun env a => Entries.put a.1 a.2 env) env

/-- Reads a file into an environment, if there is one that has not been read. -/
def Loaded.add (t : FileTree) (before : Loaded) (path : String) : Loaded :=
  if t.exists? path && !before.files.contains path then
    let text := match t.read path with
      | .ok bytes => Text.Utf8.decode bytes
      | .error _ => []
    { env := before.env.assign (EnvFile.assignments text), files := before.files ++ [path] }
  else before

/-- The environment after the files in given directories have been read. -/
def load (t : FileTree) (directories : List String) (env : Environment) : Loaded :=
  let paths := (fileNames env.stage).flatMap fun name => directories.map fun d => Path.within d name
  paths.foldl (Loaded.add t) { env }

/-- What the console shows of the files that have been read. -/
def Loaded.lines (l : Loaded) : List Log.Line :=
  if l.files.isEmpty then []
  else [{ stream := .log, text := "📝 Loaded environment files: " ++ ", ".intercalate l.files }]

end Environment

/-- The scripts, one for each report. -/
inductive Script where
  | spec
  | code
  deriving DecidableEq, Repr

namespace Script

/-- How the log entries of a script are labelled. -/
def scope : Script → String
  | spec => "SpecRenderer"
  | code => "RouteScanner"

/-- The setting that says where a script writes its report. -/
def outputKey : Script → Settings.Key
  | spec => .outputPath
  | code => .codeOutputPath

/-- What a script says about itself. -/
def help : Script → String
  | spec => "\n".intercalate [
      "",
      "Generate API details from the API document",
      "------------------------------------------",
      "",
      "  npx tsx generator/scripts/generate-api-details.ts [options]",
      "",
      "Options:",
      "  --spec <path>        API document (.json, .yaml or .yml)",
      "  --out <path>         Markdown output file",
      "  --root <dir>         Directory relative paths resolve against",
      "  --time-zone <zone>   IANA zone for the Generated line",
      "  --check              Exit 1 when the output is stale instead of writing it",
      ""]
  | code => "\n".intercalate [
      "",
      "Generate API details from source code",
      "-------------------------------------",
      "",
      "  npx tsx generator/scripts/generate-api-details-from-code.ts [options]",
      "",
      "Options:",
      "  --scan <dirs>         Comma-separated directories to scan for routes",
      "  --controllers <dirs>  Comma-separated controller directories for the coverage report",
      "  --out <path>          Markdown output file",
      "  --root <dir>          Directory relative paths resolve against",
      "  --time-zone <zone>    IANA zone for the Generated line",
      "  --check               Exit 1 when the output is stale instead of writing it",
      ""]

/-- What a script leaves behind. -/
structure Outcome where
  exitCode : Nat
  output : List Log.Line
  tree : FileTree

/-- A line written without a label. -/
def plainLine (text : String) : Log.Line := { stream := .log, text }

/-- The entry about a run that has failed. -/
def failureEntry (description : String) : Log.Entry :=
  { level := .error, message := "Generation failed: " ++ description }

/-- The entry about a report that is out of date. -/
def staleEntry (path : String) : Log.Entry :=
  { level := .error, message := path ++ " is out of date; rerun without --check to regenerate" }

/-- The outcome of a script that fails before its run. -/
def refused (script : Script) (t : FileTree) (description : String) : Outcome :=
  { exitCode := 1, output := [(failureEntry description).line script.scope], tree := t }

/-- The outcome of a run, given what is to be said if its report is written or up to date. -/
def concluded {α : Type} (script : Script) (run : Run α) (path : α → String) (status : α → Status)
    (closing : α → List Log.Line) : Outcome :=
  let lines := run.log.map (Log.Entry.line script.scope)
  match run.result with
  | .error f =>
    { exitCode := 1
      output := lines ++ [(failureEntry f.describe).line script.scope]
      tree := run.tree }
  | .ok r =>
    if status r = .stale then
      { exitCode := 1
        output := lines ++ [(staleEntry (path r)).line script.scope]
        tree := run.tree }
    else { exitCode := 0, output := lines ++ closing r, tree := run.tree }

/-- What is said about a report on a description document. -/
def specClosing (r : SpecResult) : List Log.Line :=
  if r.status = .written then [plainLine ("API details written to " ++ r.outputPath)] else []

/-- What is said about a report on declared routes. -/
def codeClosing (r : CodeResult) : List Log.Line :=
  let count := r.withoutRoutes.length
  (if count = 0 then []
    else
      let entry : Log.Entry :=
        { level := .warn, message := toString count ++ " controllers have no detected routes" }
      [entry.line (scope code)]) ++
    if r.status = .written then [plainLine ("Wrote " ++ r.outputPath)] else []

def generate (script : Script) (yaml : YamlReader) (t : FileTree) (s : Settings)
    (instant : Option Int) (check : Bool) : Outcome :=
  match script with
  | spec =>
    concluded spec (generateSpec yaml t s instant check) SpecResult.outputPath SpecResult.status
      specClosing
  | code =>
    concluded code (generateCode t s instant check) CodeResult.outputPath CodeResult.status
      codeClosing

/-- A script with its arguments and its environment. -/
def main (script : Script) (yaml : YamlReader) (t : FileTree) (workingDir : String)
    (env : Environment) (arguments : List String) (instant : Option Int) : Outcome :=
  match CommandLine.parse script.outputKey arguments with
  | .error f => script.refused t f.message
  | .ok options =>
    if options.help then { exitCode := 0, output := [plainLine script.help], tree := t }
    else
      match Settings.load workingDir env options.given with
      | .error problems => script.refused t (Failure.settings problems).describe
      | .ok s => script.generate yaml t s instant options.check

/-- A script that first reads the environment files in given directories. -/
def run (script : Script) (yaml : YamlReader) (t : FileTree) (workingDir : String)
    (envDirs : List String) (env : Environment) (arguments : List String) (instant : Option Int) :
    Outcome :=
  let loaded := Environment.load t envDirs env
  let outcome := script.main yaml t workingDir loaded.env arguments instant
  { outcome with output := loaded.lines ++ outcome.output }

end Script

end ApiReport
