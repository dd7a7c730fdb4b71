import ApiReport.Calendar.Zone
import ApiReport.Path
import ApiReport.Settings.Problem
import ApiReport.Text.Pieces

/-!
# Loading settings

A setting is what is given for it, else what the environment holds, else the standard value. Every
setting is checked on its own, and all problems are reported together. Relative paths are then taken
from the root directory.

Key definitions: `Environment`, `Settings.raw`, `Settings.check`, `Settings.resolve`,
`Settings.load`.
-/
namespace ApiReport

abbrev Environment := List (String × String)

namespace Settings

/-- What is given for a setting. A null gives nothing, except for the time zone, where it stands for
the zone of the host. -/
def givenValue? (given : Given) (key : Key) : Option Value :=
  match given.get? key with
  | some .null => if key = .timeZone then some .null else none
  | v => v

/-- The value of an environment variable without blanks around it, if any is left. -/
def envText? (env : Environment) (name : String) : Option String :=
  ((env.lookup name).map Text.trimmed).filter fun s => s ≠ ""

/-- What the environment holds for a setting; lists are separated by commas. -/
def environmentValue? (env : Environment) (key : Key) : Option Value :=
  (envText? env key.envName).map fun s =>
    if key.isList then .list ((Text.commaList s.toList).map fun e => .text (String.ofList e))
    else .text s

/-- The value of a setting before it is checked. -/
def raw (workingDir : String) (env : Environment) (given : Given) (key : Key) : Value :=
  (givenValue? given key <|> environmentValue? env key).getD (key.standard workingDir)

/-- A problem with a setting as a whole or with an item of it. -/
def faulty {α : Type} (key : Key) (item : Option Nat) (wrong : Wrong) : Checked α :=
  .faulty [{ key, item, wrong }]

/-- A path: a text that is not blank, without the blanks around it. -/
def checkPath (key : Key) (item : Option Nat) : Value → Checked String
  | .text s => if Text.trimmed s = "" then faulty key item .blank else .fine (Text.trimmed s)
  | v => faulty key item (.notText v.kind)

/-- A list of paths, each of which reports its own place in the list. -/
def checkPaths (key : Key) : Value → Checked (List String)
  | .list items => .all (items.zipIdx.map fun e => checkPath key (some e.2) e.1)
  | v => faulty key none (.notList v.kind)

/-- The list of scan roots, which must not be empty. -/
def checkScanRoots : Value → Checked (List String)
  | .list [] => faulty .scanRoots none .noScanRoot
  | v => checkPaths .scanRoots v

/-- A full stop and letters or digits after it. -/
def isExtension (s : String) : Bool :=
  match s.toList with
  | '.' :: cs => !cs.isEmpty && cs.all Char.isAlphanum
  | _ => false

/-- The ending of source files, which is taken as it is given. -/
def checkExtension : Value → Checked String
  | .text s => if isExtension s then .fine s else faulty .sourceExtension none .noExtension
  | v => faulty .sourceExtension none (.notText v.kind)

/-- The name of routes files: not empty, and in no directory. -/
def checkFileName : Value → Checked String
  | .text s =>
    if s = "" then faulty .routesFileName none .blank
    else if s.toList.any fun c => c == '/' || c == '\\' then faulty .routesFileName none .noBareName
    else .fine s
  | v => faulty .routesFileName none (.notText v.kind)

/-- The time zone of stamps: the host's, or one that is known by its name. -/
def checkZone : Value → Checked (Option String)
  | .null => .fine none
  | .text s =>
    if (Calendar.Zone.named? s).isSome then .fine (some s) else faulty .timeZone none .unknownZone
  | v => faulty .timeZone none (.notText v.kind)

/-- All settings; the problems of each come in the order of the settings. -/
def check (raw : Key → Value) : Checked Settings :=
  (Checked.fine Settings.mk).apply (checkPath .rootDir none (raw .rootDir))
    |>.apply (checkPath .specPath none (raw .specPath))
    |>.apply (checkPath .outputPath none (raw .outputPath))
    |>.apply (checkPath .codeOutputPath none (raw .codeOutputPath))
    |>.apply (checkScanRoots (raw .scanRoots))
    |>.apply (checkPaths .controllerDirs (raw .controllerDirs))
    |>.apply (checkPaths .excludedFiles (raw .excludedFiles))
    |>.apply (checkExtension (raw .sourceExtension))
    |>.apply (checkFileName (raw .routesFileName))
    |>.apply (checkZone (raw .timeZone))

/-- Settings with all paths absolute: the root directory is taken from the working directory, every
other path from the root directory. -/
def resolve (workingDir : String) (s : Settings) : Settings :=
  let rootDir := Path.resolve workingDir s.rootDir
  { s with
    rootDir
    specPath := Path.resolve rootDir s.specPath
    outputPath := Path.resolve rootDir s.outputPath
    codeOutputPath := Path.resolve rootDir s.codeOutputPath
    scanRoots := s.scanRoots.map (Path.resolve rootDir)
    controllerDirs := s.controllerDirs.map (Path.resolve rootDir)
    excludedFiles := s.excludedFiles.map (Path.resolve rootDir) }

/-- The settings of a run that starts in a working directory, or all problems with them. -/
def load (workingDir : String) (env : Environment) (given : Given) :
    Except (List Problem) Settings :=
  match check (raw workingDir env given) with
  | .fine s => .ok (s.resolve workingDir)
  | .faulty problems => .error problems

end Settings

end ApiReport
