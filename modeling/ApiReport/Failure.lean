import ApiReport.FileTree.Walk
import ApiReport.Settings.Problem
import ApiReport.Value.Json

/-!
# Failures

Why a run fails. A failure of its own kind has a name, a message and maybe details, and is described
by all three. What is thrown elsewhere, a fault of the file system or the refusal of the schema of
documents, has no name and is described by its wording alone.

Key definitions: `Failure`, `Failure.Kind`, `Failure.message`, `Failure.details?`,
`Failure.describe`.
-/
namespace ApiReport

inductive Spec.Format where
  | json
  | yaml
  deriving DecidableEq, Repr

def Spec.Format.name : Spec.Format → String
  | .json => "JSON"
  | .yaml => "YAML"

/-- Why a run fails. -/
inductive Failure where
  | settings (problems : List Settings.Problem)
  | specMissing (path : String)
  | specUnreadable (source : String) (format : Spec.Format) (cause : String)
  | specNoMapping (source : String)
  | specRefused (kind : String)
  | noScanRoot (roots : List String)
  | unwritable (path cause : String)
  | system (fault : FileTree.Fault) (operation : String)
  deriving Repr

namespace Failure

/-- Which part of a run has failed. -/
inductive Kind where
  | config
  | input
  | output
  deriving DecidableEq, Repr

def Kind.name : Kind → String
  | config => "ConfigError"
  | input => "InputError"
  | output => "OutputError"

/-- The kind of a failure; faults of the file system and refusals of a schema have none. -/
def kind? : Failure → Option Kind
  | settings _ => some .config
  | specMissing _ | specUnreadable .. | specNoMapping _ | noScanRoot _ => some .input
  | unwritable .. => some .output
  | specRefused _ | system .. => none

/-- The message about settings that are not valid. -/
def settingsMessage : String := "Invalid documentation config"

/-- The message with which the schema of documents refuses an object that is no mapping: its one
issue as JSON text, two columns a level. -/
def refusal (kind : String) : String :=
  "\n".intercalate [
    "[",
    "  \x7b",
    "    \"code\": \"invalid_type\",",
    "    \"expected\": \"object\",",
    "    \"received\": " ++ Json.writeString kind ++ ",",
    "    \"path\": [],",
    "    \"message\": " ++ Json.writeString ("Expected object, received " ++ kind),
    "  \x7d",
    "]"]

def message : Failure → String
  | settings _ => settingsMessage
  | specMissing path => "Spec document not found: " ++ path
  | specUnreadable source format _ => "Unable to parse " ++ source ++ " as " ++ format.name
  | specNoMapping source => "Expected " ++ source ++ " to contain a mapping at the top level"
  | specRefused kind => refusal kind
  | noScanRoot _ => "None of the configured scan roots exist"
  | unwritable path _ => "Unable to write " ++ path
  | system fault operation => fault.message operation

def causeDetails (cause : String) : Value := .ofEntries [("cause", .text cause)]

/-- What a failure is described with besides its message, if anything. -/
def details? : Failure → Option Value
  | settings problems => some (.list (problems.map fun p => .text p.text))
  | specUnreadable _ _ cause | unwritable _ cause => some (causeDetails cause)
  | noScanRoot roots => some (.ofEntries [("scanRoots", .list (roots.map Value.text))])
  | specMissing _ | specNoMapping _ | specRefused _ | system .. => none

/-- A failure described by its name, its message and its details. -/
def wording (name message : String) (details : Option Value) : String :=
  name ++ ": " ++ message ++ (details.map fun d => " " ++ Json.write d).getD ""

/-- A failure as it is printed: without a kind, it is its message alone. -/
def describe (f : Failure) : String :=
  match f.kind? with
  | some kind => wording kind.name f.message f.details?
  | none => f.message

end Failure

end ApiReport
