import ApiReport.Value

/-!
# API description documents

The part of a description document that is reported. Reading is tolerant: a field that is missing or
not of the expected shape is absent, and so is whatever it holds; nothing but a document that is no
mapping is refused. In a mapping whose keys are names (paths, verbs, media types, statuses) the key
`__proto__` names nothing.

Key definitions: `Schema`, `MediaType`, `Parameter`, `RequestBody`, `Response`, `OperationObject`,
`Document`, `Document.ofValue?`.
-/
namespace ApiReport.Spec

/-- The parts of a schema that can label it. -/
structure Schema where
  ref : Option String := none
  type : Option String := none
  deriving Repr

/-- What is said about one media type of a content mapping. -/
structure MediaType where
  schema : Option Schema := none
  deriving Repr

/-- The media types of a body, by name. -/
abbrev Content := List (String × MediaType)

structure Parameter where
  location : Option String := none
  name : Option String := none
  required : Option Bool := none
  schema : Option Schema := none
  deriving Repr

/-- A request body. `isEmpty` tells that the mapping has no key at all. -/
structure RequestBody where
  content : Option Content
  isEmpty : Bool
  deriving Repr

structure Response where
  description : Option String := none
  content : Option Content := none
  deriving Repr

/-- What is said about one verb of a path. -/
structure OperationObject where
  summary : Option String := none
  description : Option String := none
  tags : Option (List String) := none
  security : Option Value := none
  parameters : Option (List Parameter) := none
  requestBody : Option RequestBody := none
  responses : Option (List (String × Response)) := none
  deriving Repr

/-- A description document: its security requirement, and the items of its paths. -/
structure Document where
  security : Option Value
  paths : Option (List (String × List (String × Value)))
  deriving Repr

/-- The entries of a mapping that name something. -/
def named {α : Type} (entries : List (String × α)) : List (String × α) :=
  entries.filter fun e => e.1 != "__proto__"

def textOf? : Value → Option String
  | .text s => some s
  | _ => none

def textField? (key : String) (v : Value) : Option String := (v.get? key).bind textOf?

/-- A mapping of names, each of its values read. -/
def namesOf? {α : Type} (read : Value → α) (v : Value) : Option (List (String × α)) :=
  v.entries?.map fun entries => (named entries).map fun e => (e.1, read e.2)

/-- A schema; anything but a mapping is one without label. -/
def Schema.ofValue (v : Value) : Schema :=
  { ref := textField? "$ref" v, type := textField? "type" v }

def MediaType.ofValue (v : Value) : MediaType :=
  { schema := (v.get? "schema").map Schema.ofValue }

def contentField? (v : Value) : Option Content :=
  (v.get? "content").bind (namesOf? MediaType.ofValue)

def boolOf? : Value → Option Bool
  | .bool b => some b
  | _ => none

def Parameter.ofValue (v : Value) : Parameter :=
  { location := textField? "in" v
    name := textField? "name" v
    required := (v.get? "required").bind boolOf?
    schema := (v.get? "schema").map Schema.ofValue }

/-- A list of texts; one item of another kind spoils it. -/
def textsOf? : Value → Option (List String)
  | .list items => items.mapM textOf?
  | _ => none

/-- The parameters of a list. What is no mapping still counts as one, of which nothing is known. -/
def parametersOf? : Value → Option (List Parameter)
  | .list items => some (items.map Parameter.ofValue)
  | _ => none

/-- A request body, if it is a mapping at all: unlike a schema or a response, a body of another
shape is absent. -/
def RequestBody.ofValue? (v : Value) : Option RequestBody :=
  v.entries?.map fun entries => { content := contentField? v, isEmpty := (named entries).isEmpty }

def Response.ofValue (v : Value) : Response :=
  { description := textField? "description" v, content := contentField? v }

/-- What is said about a verb; anything but a mapping says nothing. -/
def OperationObject.ofValue (v : Value) : OperationObject :=
  { summary := textField? "summary" v
    description := textField? "description" v
    tags := (v.get? "tags").bind textsOf?
    security := v.get? "security"
    parameters := (v.get? "parameters").bind parametersOf?
    requestBody := (v.get? "requestBody").bind RequestBody.ofValue?
    responses := (v.get? "responses").bind (namesOf? Response.ofValue) }

/-- The entries of a path item; anything but a mapping has none. -/
def pathItem (v : Value) : List (String × Value) := named (v.entries?.getD [])

/-- A document, if the value is a mapping. -/
def Document.ofValue? (v : Value) : Option Document :=
  v.entries?.map fun _ =>
    { security := v.get? "security", paths := (v.get? "paths").bind (namesOf? pathItem) }

end ApiReport.Spec
