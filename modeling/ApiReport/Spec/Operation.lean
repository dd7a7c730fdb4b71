import ApiReport.Spec.Document
import ApiReport.Verb

/-!
# Operations

The operations that a document declares: one for each path and each key of its item that spells a
verb, paths and keys in ascending order.

Key definitions: `hasRequirement`, `Schema.label`, `Operation`, `Operation.ofEntry?`, `operations`.
-/
namespace ApiReport.Spec

/-- A media type and the label of its schema. -/
structure ContentEntry where
  contentType : String
  schemaLabel : String
  deriving DecidableEq, Repr

structure OperationParameter where
  location : Option String
  name : Option String
  type : String
  required : Bool
  deriving DecidableEq, Repr

structure OperationResponse where
  status : String
  description : String
  content : List ContentEntry
  deriving DecidableEq, Repr

/-- What is reported of one verb of a path. A body that says something but names no media type has
an empty list. -/
structure Operation where
  path : String
  verb : Verb
  summary : Option String
  description : Option String
  tags : List String
  authRequired : Bool
  parameters : List OperationParameter
  requestBody : Option (List ContentEntry)
  responses : List OperationResponse
  deriving DecidableEq, Repr

/-- Whether a security field asks for anything: a list or an object does if it is not empty, and
sets, ordered mappings and instants are objects without entries. -/
def hasRequirement : Option Value → Bool
  | none => false
  | some (.list items) => !items.isEmpty
  | some (.mapping entries) => !entries.isEmpty
  | some (.special s) => !s.isObject
  | some v => v.isTruthy

def nonEmpty? : Option String → Option String
  | some s => if s = "" then none else some s
  | none => none

/-- The label of a schema: its reference, else its type, else a fixed word; empty texts count as
missing. -/
def Schema.label (s : Schema) : String :=
  ((nonEmpty? s.ref) <|> (nonEmpty? s.type)).getD "schema"

/-- The label of a schema that may be missing. -/
def schemaLabel (s : Option Schema) : String := (s.getD {}).label

/-- The entries of a content mapping, in its order. -/
def contentEntries (content : Option Content) : List ContentEntry :=
  (content.getD []).map fun e => ⟨e.1, schemaLabel e.2.schema⟩

/-- A parameter as reported; without a type it is an object. -/
def Parameter.reported (p : Parameter) : OperationParameter :=
  { location := p.location
    name := p.name
    type := (nonEmpty? (p.schema.bind Schema.type)).getD "object"
    required := p.required == some true }

/-- The body as reported: none if its mapping is empty. -/
def RequestBody.reported (b : RequestBody) : Option (List ContentEntry) :=
  if b.isEmpty then none else some (contentEntries b.content)

/-- The responses as reported, in ascending order of status. -/
def reportedResponses (responses : List (String × Response)) : List OperationResponse :=
  (Text.sortByKey Prod.fst responses).map fun e =>
    ⟨e.1, e.2.description.getD "", contentEntries e.2.content⟩

/-- The operation that an entry of a path item declares, if its key spells a verb. Its own security
requirement, unless empty, takes the place of the document's. -/
def Operation.ofEntry? (path key : String) (raw : Value) (documentSecurity : Option Value) :
    Option Operation :=
  (Verb.ofAnyCase? key).map fun verb =>
    let o := OperationObject.ofValue raw
    { path
      verb
      summary := nonEmpty? o.summary
      description := nonEmpty? o.description
      tags := o.tags.getD []
      authRequired :=
        hasRequirement (if hasRequirement o.security then o.security else documentSecurity)
      parameters := (o.parameters.getD []).map Parameter.reported
      requestBody := o.requestBody.bind RequestBody.reported
      responses := reportedResponses (o.responses.getD []) }

/-- The operations of a document in the order of their paths and, within a path, of their keys as
they are spelled there. -/
def operations (d : Document) : List Operation :=
  (Text.sortByKey Prod.fst (d.paths.getD [])).flatMap fun item =>
    (Text.sortByKey Prod.fst item.2).filterMap fun e => Operation.ofEntry? item.1 e.1 e.2 d.security

end ApiReport.Spec
