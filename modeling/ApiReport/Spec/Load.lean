import ApiReport.Failure
import ApiReport.Spec.Document

/-!
# Loading description documents

A document is read as YAML if its path says so, else as JSON. Which values YAML texts denote is up
to the reader that a run is given. The top level of a document has to be an object, and of objects
the schema of documents takes mappings only. That schema is applied outside of what catches faults
of reading, so its refusal is passed on as it is.

Key definitions: `YamlReader`, `Spec.formatOf`, `Spec.valueOfText`, `Spec.parse`, `Spec.load`.
-/
namespace ApiReport

/-- A reader of YAML: the value of a text, or the message that tells why it has none. -/
abbrev YamlReader := List Char → Except String Value

namespace Spec

/-- The format that a path says its document has. -/
def formatOf (path : String) : Format :=
  let ending := Verb.asciiLower (Path.extension path)
  if ending = ".yaml" || ending = ".yml" then .yaml else .json

/-- The value of a text, or why it has none. -/
def valueOfText (yaml : YamlReader) (format : Format) (cs : List Char) : Except String Value :=
  match format with
  | .yaml => yaml cs
  | .json =>
    (Json.read cs).mapError fun rest =>
      "unexpected text at offset " ++ toString (Text.unitCount cs - Text.unitCount rest)

/-- What messages call a document whose source is not known. -/
def unknownSource : String := "spec document"

/-- The document in a text, which may start with a byte-order mark. -/
def parse (yaml : YamlReader) (text : List Char) (format : Format)
    (source : String := unknownSource) : Except Failure Document := do
  let value ←
    (valueOfText yaml format (Text.Utf8.dropMark text)).mapError (.specUnreadable source format)
  if !value.isObject then .error (.specNoMapping source)
  match Document.ofValue? value with
  | some document => .ok document
  | none => .error (.specRefused value.kind)

/-- The document in the file that a path leads to. -/
def load (yaml : YamlReader) (t : FileTree) (path : String) : Except Failure Document := do
  if !t.exists? path then .error (.specMissing path)
  let bytes ← (t.read path).mapError fun f => .system f "read"
  parse yaml (Text.Utf8.decode bytes) (formatOf path) path

end Spec

end ApiReport
