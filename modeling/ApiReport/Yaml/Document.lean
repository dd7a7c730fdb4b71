import ApiReport.Yaml.Node.Meaning

/-!
# YAML documents

A text is read as a stream of at most one document; an empty stream denotes null. Directives before
the document may declare tag handles. A directive for version 1.1 does not change what scalars
denote, where the older version has more forms of truth values, numbers and instants.

Key definitions: `Stream`, `Yaml.read`, `Yaml.reader`.
-/
namespace ApiReport.Yaml

/-- What has been read of a stream: the tag handles declared, whether directives wait for their
document, and the value of the document. -/
structure Stream where
  tags : TagTable := TagTable.standard
  directivesOpen : Bool := false
  value : Option Value := none

def directiveWords (m : Mark) : List String :=
  let pieces := Text.pieces ' ' ((Text.trim m.text).map fun c => if c = '\t' then ' ' else c)
  (pieces.filter fun p => !p.isEmpty).map String.ofList

/-- A version number: digits, a point, digits. -/
def isVersion (s : String) : Bool :=
  match Text.pieces '.' s.toList with
  | [a, b] => isDigits a && isDigits b
  | _ => false

namespace Stream

/-- Reads a directive. One with an unknown name is passed over. -/
def addDirective (s : Stream) (m : Mark) : Except Fault Stream :=
  let s := { s with directivesOpen := true }
  match directiveWords m with
  | "%TAG" :: arguments =>
    match arguments with
    | [handle, start] => .ok { s with tags := (handle, start) :: s.tags }
    | _ => m.fault "tag directive needs a handle and a start"
  | "%YAML" :: arguments =>
    match arguments with
    | [version] => if isVersion version then .ok s else m.fault "unknown version of the format"
    | _ => m.fault "version directive needs one version"
  | _ => .ok s

def addDocument (s : Stream) (o : Nat) (start : List Mark) (value : Option Block)
    (tail : List Mark) :
    Except Fault Stream := do
  if s.value.isSome then .error ⟨"second document", o⟩
  let next : Next := match value, tail with
    | some b, _ => .block b
    | none, m :: _ => .mark m
    | none, [] => .nothing
  let p ← properties ⟨.documentStart, false, 0, true⟩ next start
  if s.directivesOpen && p.found.isNone then .error ⟨"directives without a document start", o⟩
  if p.found.isSome && !p.hasLineEnd && value.any Block.isBlockCollection then
    .error ⟨"block collection on the line of a document start", o⟩
  let node ← match value with
    | some b => b.node s.tags true p
    | none => emptyScalar s.tags p
  checkTail false tail
  let (d, _) ← node.denote {}
  return { s with directivesOpen := false, value := some d.value }

def add (s : Stream) : Section → Except Fault Stream
  | .directive m => s.addDirective m
  | .document o start value tail => s.addDocument o start value tail
  | .documentEnd m tail => do
    if s.value.isNone then m.fault "document end without a document"
    checkTail true tail
    return s

end Stream

/-- The value of a YAML text, or the first fault in it. -/
def read (cs : List Char) : Except Fault Value := do
  let sections ← outline cs
  let s ← sections.foldlM Stream.add {}
  if s.value.isNone && s.directivesOpen then .error ⟨"directives without a document", 0⟩
  return s.value.getD .null

/-- The value of a YAML text, or the wording of the first fault in it. -/
def reader (cs : List Char) : Except String Value := (read cs).mapError Fault.message

end ApiReport.Yaml
