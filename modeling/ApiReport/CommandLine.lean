import ApiReport.Settings
import ApiReport.Text.Pieces

/-!
# Command line arguments

An argument is a flag, a flag that takes the next argument as its value, or stands for itself and is
passed over. A value is not empty and does not start with two hyphens. Of a flag given twice the
last value holds.

Key definitions: `CommandLine.Options`, `CommandLine.Fault`, `CommandLine.valueKey?`,
`CommandLine.isValue`, `CommandLine.parse`.
-/
namespace ApiReport.CommandLine

/-- What the arguments ask for. -/
structure Options where
  check : Bool := false
  help : Bool := false
  given : Settings.Given := []

/-- Why arguments are refused. -/
inductive Fault where
  | noValue (flag : String)
  | unknown (argument : String)
  deriving DecidableEq, Repr

def Fault.message : Fault → String
  | noValue flag => flag ++ " requires a value"
  | unknown argument => "Unknown option: " ++ argument

/-- The setting that a flag gives, `--out` giving the one passed in. -/
def valueKey? (output : Settings.Key) (flag : String) : Option Settings.Key :=
  match flag with
  | "--root" => some .rootDir
  | "--spec" => some .specPath
  | "--out" => some output
  | "--scan" => some .scanRoots
  | "--controllers" => some .controllerDirs
  | "--time-zone" => some .timeZone
  | _ => none

/-- Whether an argument can be the value of a flag. -/
def isValue (argument : String) : Bool :=
  argument ≠ "" && !(['-', '-'].isPrefixOf argument.toList)

/-- The value that an argument gives to a setting; lists are separated by commas. -/
def value (key : Settings.Key) (argument : String) : Value :=
  if key.isList then Settings.Key.textList ((Text.commaList argument.toList).map String.ofList)
  else .text argument

/-- Arguments read from the left, given what was asked for before. -/
def parseFrom (output : Settings.Key) (o : Options) : List String → Except Fault Options
  | [] => .ok o
  | "--check" :: rest => parseFrom output { o with check := true } rest
  | "--help" :: rest => parseFrom output { o with help := true } rest
  | "-h" :: rest => parseFrom output { o with help := true } rest
  | argument :: rest =>
    match valueKey? output argument with
    | some key =>
      match rest with
      | next :: rest =>
        if isValue next then
          parseFrom output { o with given := o.given.set key (value key next) } rest
        else .error (.noValue argument)
      | [] => .error (.noValue argument)
    | none =>
      if ['-'].isPrefixOf argument.toList then .error (.unknown argument)
      else parseFrom output o rest

/-- What the arguments of a command line ask for. -/
def parse (output : Settings.Key) (arguments : List String) : Except Fault Options :=
  parseFrom output {} arguments

end ApiReport.CommandLine
