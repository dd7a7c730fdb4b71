/-!
# Faults of a YAML text

Key definitions: `Fault`.
-/
namespace ApiReport.Yaml

/-- Why a text is no YAML document, and after how many units. -/
structure Fault where
  what : String
  offset : Nat
  deriving Repr

def Fault.message (f : Fault) : String := f.what ++ " at offset " ++ toString f.offset

end ApiReport.Yaml
