import ApiReport.Report
import ApiReport.Spec.Operation

/-!
# The report on a description document

One section for each operation: what it does, whether it needs authentication, its parameters, its
request body and its responses.

Key definitions: `Operation.lines`, `Spec.report`.
-/
namespace ApiReport.Spec

def title : String := "API Details"

/-- A media type with the label of its schema. -/
def ContentEntry.line (indent : String) (e : ContentEntry) : String :=
  indent ++ "- " ++ e.contentType ++ ": " ++ e.schemaLabel

/-- A parameter: where it goes and its name, as far as they are known, its type, and whether it is
required. -/
def OperationParameter.line (p : OperationParameter) : String :=
  let label := " ".intercalate ([nonEmpty? p.location, nonEmpty? p.name].filterMap id)
  "- " ++ label ++ " (" ++ p.type ++ ", " ++ (if p.required then "required" else "optional") ++ ")"

def OperationResponse.lines (r : OperationResponse) : List String :=
  ("- " ++ r.status ++ ":" ++ if r.description = "" then "" else " " ++ r.description) ::
    r.content.map (ContentEntry.line "  ")

/-- A labelled line, if there is something to say. -/
def labelled (label : String) (value : Option String) : List String :=
  match nonEmpty? value with
  | some s => ["**" ++ label ++ ":** " ++ s]
  | none => []

/-- The line that starts the section of an operation. -/
def Operation.heading (o : Operation) : String := "## " ++ o.verb.method ++ " " ++ o.path

def Operation.authLine (o : Operation) : String :=
  "**Auth:** " ++ if o.authRequired then "Required" else "None"

/-- The section of an operation. Tags, parameters and responses have a block if there are any, a
body has one even if it names no media type. -/
def Operation.lines (o : Operation) : List String :=
  [o.heading] ++ labelled "Summary" o.summary ++ labelled "Description" o.description ++
    (if o.tags.isEmpty then [] else ["**Tags:** " ++ ", ".intercalate o.tags]) ++
    [o.authLine, ""] ++
    (if o.parameters.isEmpty then []
      else ["**Parameters:**"] ++ o.parameters.map OperationParameter.line ++ [""]) ++
    (match o.requestBody with
      | none => []
      | some content => ["**Request Body:**"] ++ content.map (ContentEntry.line "") ++ [""]) ++
    (if o.responses.isEmpty then []
      else ["**Responses:**"] ++ o.responses.flatMap OperationResponse.lines ++ [""]) ++
    ["---", ""]

def reportLines (ops : List Operation) (instant : Option Int) (zone : Option String) :
    List String :=
  Report.header title instant zone ++ Report.preamble ++ ops.flatMap Operation.lines

def report (ops : List Operation) (instant : Option Int) (zone : Option String) : String :=
  Report.text (reportLines ops instant zone)

end ApiReport.Spec
