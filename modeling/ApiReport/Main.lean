import ApiReport.Disk
import ApiReport.Script
import ApiReport.Yaml.Document

/-!
# The command line program

The first argument chooses the report, `spec` or `code`; the others are those of its script.

Key definitions: `Program.environment`, `Program.treeFor`, `Program.runScript`, `main`.
-/
namespace ApiReport.Program

/-- The environment variables that a script looks at. -/
def environment : IO Environment := do
  let names := "API_DOCS_ENV" :: "NODE_ENV" :: Settings.Key.all.map Settings.Key.envName
  names.filterMapM fun name => do
    return (← IO.getEnv name).map fun value => (name, value)

/-- Reads the environment files of a directory. -/
def readEnvFiles (directory : String) (env : Environment) : IO FileTree :=
  (Environment.fileNames env.stage).foldlM
    (fun t name => Disk.readPath t (Path.within directory name))
    FileTree.empty

/-- Reads what a script with given settings looks at. -/
def treeFor (script : Script) (s : Settings) (t : FileTree) : IO FileTree :=
  match script with
  | .spec => do Disk.readPath (← Disk.readPath t s.specPath) s.outputPath
  | .code => do
    let t ← (s.scanRoots ++ s.controllerDirs).foldlM
      (fun t directory => Disk.readBelow t directory s.sourceExtension) t
    Disk.readPath t s.codeOutputPath

/-- Writes a line to its stream. -/
def printLine (l : Log.Line) : IO Unit :=
  match l.stream with
  | .log => IO.println l.text
  | .warn | .error => IO.eprintln l.text

/-- Runs a script in the working directory. -/
def runScript (script : Script) (arguments : List String) : IO UInt32 := do
  let directory := (← IO.currentDir).toString
  let env ← environment
  let envTree ← readEnvFiles directory env
  let loaded := Environment.load envTree [directory] env
  let settings? :=
    match CommandLine.parse script.outputKey arguments with
    | .ok options => (Settings.load directory loaded.env options.given).toOption
    | .error _ => none
  let before ← match settings? with
    | some s => treeFor script s envTree
    | none => pure envTree
  let now ← Disk.now
  let outcome := script.run Yaml.reader before directory [directory] env arguments (some now)
  Disk.writeBack before outcome.tree
  outcome.output.forM printLine
  return outcome.exitCode.toUInt32

/-- Runs the script that the first argument chooses. -/
def run : List String → IO UInt32
  | "spec" :: arguments => runScript .spec arguments
  | "code" :: arguments => runScript .code arguments
  | _ => do
    IO.eprintln "usage: api-report (spec | code) [options]"
    return 2

end ApiReport.Program

def main (arguments : List String) : IO UInt32 := ApiReport.Program.run arguments
