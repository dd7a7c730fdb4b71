import ApiReport.Value

/-!
# Settings

What a run is told: where the project lies, what is read and written, which files are scanned, and
in which time zone stamps are written.

Key definitions: `Settings`, `Settings.Key`, `Settings.Key.standard`, `Settings.Given`.
-/
namespace ApiReport

/-- The settings of a run. Paths are absolute. -/
structure Settings where
  /-- The directory from which relative paths are taken; reports show paths relative to it. -/
  rootDir : String
  specPath : String
  outputPath : String
  codeOutputPath : String
  scanRoots : List String
  controllerDirs : List String
  excludedFiles : List String
  sourceExtension : String
  routesFileName : String
  /-- The time zone of stamps; none is that of the host. -/
  timeZone : Option String
  deriving DecidableEq, Repr

namespace Settings

/-- The names of the settings. -/
inductive Key where
  | rootDir
  | specPath
  | outputPath
  | codeOutputPath
  | scanRoots
  | controllerDirs
  | excludedFiles
  | sourceExtension
  | routesFileName
  | timeZone
  deriving DecidableEq, Repr

namespace Key

/-- Every key, in the order in which problems are reported. -/
def all : List Key :=
  [rootDir, specPath, outputPath, codeOutputPath, scanRoots, controllerDirs, excludedFiles,
    sourceExtension, routesFileName, timeZone]

def name : Key → String
  | rootDir => "rootDir"
  | specPath => "specPath"
  | outputPath => "outputPath"
  | codeOutputPath => "codeOutputPath"
  | scanRoots => "scanRoots"
  | controllerDirs => "controllerDirs"
  | excludedFiles => "excludedFiles"
  | sourceExtension => "sourceExtension"
  | routesFileName => "routesFileName"
  | timeZone => "timeZone"

/-- The environment variable that holds a setting. -/
def envName : Key → String
  | rootDir => "API_DOCS_ROOT"
  | specPath => "API_DOCS_SPEC_PATH"
  | outputPath => "API_DOCS_OUTPUT_PATH"
  | codeOutputPath => "API_DOCS_CODE_OUTPUT_PATH"
  | scanRoots => "API_DOCS_SCAN_ROOTS"
  | controllerDirs => "API_DOCS_CONTROLLER_DIRS"
  | excludedFiles => "API_DOCS_EXCLUDED_FILES"
  | sourceExtension => "API_DOCS_SOURCE_EXTENSION"
  | routesFileName => "API_DOCS_ROUTES_FILE"
  | timeZone => "API_DOCS_TIME_ZONE"

/-- Whether a setting is a list. -/
def isList : Key → Bool
  | scanRoots | controllerDirs | excludedFiles => true
  | _ => false

def textList (items : List String) : Value := .list (items.map Value.text)

/-- The value of a setting that is not given, in a run that starts in a working directory. -/
def standard (workingDir : String) : Key → Value
  | rootDir => .text workingDir
  | specPath => .text "docs/architecture/openapi.json"
  | outputPath => .text "docs/architecture/API_DETAILS.md"
  | codeOutputPath => .text "docs/architecture/API_DETAILS_FROM_CODE.md"
  | scanRoots => textList ["backend/app", "backend/modules"]
  | controllerDirs => textList ["backend/app/Controllers"]
  | excludedFiles => textList ["backend/app/Console/Commands/MakeModuleCommand.php"]
  | sourceExtension => .text ".php"
  | routesFileName => .text "routes.php"
  | timeZone => .null

end Key

/-- Values that are given for some of the settings, of whatever kind. -/
abbrev Given := List (Key × Value)

/-- Gives a value for a setting, in place of one given before. -/
def Given.set (key : Key) (value : Value) : Given → Given
  | [] => [(key, value)]
  | (k, v) :: rest => if k = key then (k, value) :: rest else (k, v) :: Given.set key value rest

/-- Looks up what is given for a setting. -/
def Given.get? (key : Key) : Given → Option Value
  | [] => none
  | (k, v) :: rest => if k = key then some v else Given.get? key rest

theorem Given.get?_set (key k : Key) (value : Value) (g : Given) :
    Given.get? k (Given.set key value g) = if k = key then some value else Given.get? k g := by
  induction g with
  | nil => simp [Given.set, Given.get?, eq_comm]
  | cons e g ih =>
    obtain ⟨a, v⟩ := e
    by_cases ha : a = key
    · subst ha
      by_cases h : a = k
      · simp [Given.set, Given.get?, h]
      · simp [Given.set, Given.get?, h, Ne.symm h]
    · by_cases h : a = k
      · subst h; simp [Given.set, Given.get?, ha]
      · simp [Given.set, Given.get?, ha, h, ih]

/-- Settings given as values. -/
def given (s : Settings) : Given := [
  (.rootDir, .text s.rootDir),
  (.specPath, .text s.specPath),
  (.outputPath, .text s.outputPath),
  (.codeOutputPath, .text s.codeOutputPath),
  (.scanRoots, Key.textList s.scanRoots),
  (.controllerDirs, Key.textList s.controllerDirs),
  (.excludedFiles, Key.textList s.excludedFiles),
  (.sourceExtension, .text s.sourceExtension),
  (.routesFileName, .text s.routesFileName),
  (.timeZone, (s.timeZone.map Value.text).getD .null)]

end Settings

end ApiReport
