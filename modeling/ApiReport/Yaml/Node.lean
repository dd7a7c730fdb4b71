import ApiReport.Yaml.Block.Outline
import ApiReport.Yaml.Scalar
import ApiReport.Yaml.Tag

/-!
# Nodes

The nodes of a document, with what each scalar denotes, its anchors and its aliases. Building them
from blocks checks all that indentation alone does not: where gaps, commas and line ends have to
stand, that anchors and tags come once and in their place, that the keys of a mapping differ, and
that a collection is what its tag says.

Key definitions: `Label`, `Style`, `Node`, `Properties`, `properties`, `Properties.scalar`,
`Properties.mapping`, `Properties.sequence`, `Block.node`.
-/
namespace ApiReport.Yaml

/-- The anchor and the full tag of a node. -/
structure Label where
  anchor : Option String := none
  tag : Option String := none

/-- How a scalar is written. -/
inductive Style where
  | plain
  | singleQuoted
  | doubleQuoted
  | block
  deriving DecidableEq

/-- A node of a document. A scalar keeps its text beside what it denotes; an entry without a colon
has no value. A sequence whose tag asks for pairs has entries in place of items. -/
inductive Node where
  | alias (name : String)
  | scalar (label : Label) (style : Style) (text : List Char) (value : Value)
  | mapping (label : Label) (entries : List (Node × Option Node))
  | sequence (label : Label) (items : List Node)
  | pairs (label : Label) (entries : List (Node × Option Node))
  deriving Inhabited

/-- What comes after some lexemes. -/
inductive Next where
  | nothing
  | mark (m : Mark)
  | block (b : Block)

/-- The block that comes next, if any. -/
def Next.ofBlock : Option Block → Next
  | some b => .block b
  | none => .nothing

/-- Whether what comes next has to be kept apart from an anchor or a tag by a gap. -/
def Next.needsGap : Next → Bool
  | .nothing => false
  | .mark m => !(m.kind = .gap || m.kind = .lineEnd || m.kind = .comma)
  | .block (.leaf m _) => !(m.kind = .plain && m.text.isEmpty)
  | .block _ => true

/-- What the lexemes before a node say about it. -/
structure Properties where
  found : Option Mark := none
  comma : Bool := false
  anchor : Option Mark := none
  tag : Option Mark := none
  hasLineEnd : Bool := false
  /-- The last line end after an anchor or a tag. -/
  lineEndAfter : Option Mark := none

/-- The first anchor or tag. -/
def Properties.first (p : Properties) : Option Mark :=
  match p.anchor, p.tag with
  | some a, some t => some (if a.offset < t.offset then a else t)
  | some a, none => some a
  | none, t => t

/-- The last anchor or tag. -/
def Properties.last (p : Properties) : Option Mark :=
  match p.anchor, p.tag with
  | some a, some t => some (if a.offset < t.offset then t else a)
  | some a, none => some a
  | none, t => t

/-- What is known while the lexemes before a node are read. -/
structure PropertyState extends Properties where
  atNewLine : Bool
  afterGap : Bool
  needsGap : Bool := false
  tab : Option Mark := none

/-- How the lexemes before a node are to be read: the indicator that introduces it, whether they
stand in a flow collection, and the indentation of the collection around them. -/
structure PropertyRule where
  indicator : Kind
  inFlow : Bool
  parentIndent : Nat
  startsOnNewLine : Bool

def Mark.fault {α : Type} (m : Mark) (what : String) : Except Fault α := .error ⟨what, m.offset⟩

/-- Reads one lexeme before a node. -/
def PropertyState.read (rule : PropertyRule) (tabsAllowed : Bool) (s : PropertyState) (m : Mark) :
    Except Fault PropertyState := do
  if s.needsGap && !(m.kind = .gap || m.kind = .lineEnd || m.kind = .comma) then
    m.fault "tags and anchors must be separated from what follows"
  if s.tab.isSome && s.atNewLine && m.kind ≠ .comment && m.kind ≠ .lineEnd then
    m.fault "tabs are not allowed as indentation"
  let s := { s with needsGap := false, tab := none }
  match m.kind with
  | .gap =>
    let tab := if !tabsAllowed && m.text.contains '\t' then some m else none
    return { s with tab := tab, afterGap := true }
  | .comment =>
    if s.afterGap then return { s with atNewLine := false }
    else m.fault "comment without a gap before it"
  | .lineEnd =>
    let after := if s.anchor.isSome || s.tag.isSome then some m else s.lineEndAfter
    return { s with atNewLine := true, hasLineEnd := true, lineEndAfter := after, afterGap := true }
  | .anchor =>
    if s.anchor.isSome then m.fault "second anchor"
    else return { s with anchor := some m, atNewLine := false, afterGap := false, needsGap := true }
  | .tag =>
    if s.tag.isSome then m.fault "second tag"
    else return { s with tag := some m, atNewLine := false, afterGap := false, needsGap := true }
  | kind =>
    if kind = rule.indicator then
      if s.anchor.isSome || s.tag.isSome then m.fault "anchors and tags must follow the indicator"
      else if s.found.isSome then m.fault "second indicator"
      else
        let onNewLine := kind = .entryMark || kind = .keyMark
        return { s with found := some m, atNewLine := onNewLine, afterGap := false }
    else if kind = .comma && rule.inFlow && !s.comma then
      return { s with comma := true, atNewLine := false, afterGap := false }
    else m.fault "unexpected indicator"

/-- What the lexemes before a node say about it. -/
def properties (rule : PropertyRule) (next : Next) (marks : List Mark) :
    Except Fault Properties := do
  let beforeFlow : Bool := match next with
    | .block (.flow _ _ _ _ _) => true
    | _ => false
  let tabsAllowed := rule.inFlow || (rule.indicator = .documentStart && beforeFlow)
  let start : PropertyState :=
    { atNewLine := rule.startsOnNewLine, afterGap := rule.startsOnNewLine }
  let s ← marks.foldlM (PropertyState.read rule tabsAllowed) start
  if s.needsGap && next.needsGap then
    let offset := (marks.getLast?.map Mark.offset).getD 0
    .error ⟨"tags and anchors must be separated from what follows", offset⟩
  match s.tab with
  | some tab =>
    let beforeCollection : Bool := match next with
      | .block b => b.isBlockCollection
      | _ => false
    if (s.atNewLine && tab.indent ≤ rule.parentIndent) || beforeCollection then
      tab.fault "tabs are not allowed as indentation"
  | none => pure ()
  return s.toProperties

/-- The lexemes after a node: gaps, line ends and comments, these after a gap. -/
def checkTail (needsGap : Bool) (marks : List Mark) : Except Fault Unit := do
  let _ ← marks.foldlM (fun (afterGap : Bool) (m : Mark) =>
    match m.kind with
    | .gap | .lineEnd => .ok true
    | .comment =>
      if needsGap && !afterGap then m.fault "comment without a gap before it" else .ok afterGap
    | _ => m.fault "unexpected content after a node") false

/-- The name after the first character of an anchor or an alias. -/
def Mark.name (m : Mark) : Except Fault String :=
  match m.text.drop 1 with
  | [] => m.fault "anchor without a name"
  | cs => .ok (String.ofList cs)

/-- The name of an anchor, if there is one. -/
def Properties.anchorName (p : Properties) : Except Fault (Option String) :=
  match p.anchor with
  | none => .ok none
  | some m => m.name.map some

/-- The full name of a tag, if there is one. -/
def Properties.tagName (p : Properties) (tags : TagTable) : Except Fault (Option String) :=
  match p.tag with
  | none => .ok none
  | some m =>
    match tags.resolve? m.text with
    | some name => .ok (some name)
    | none => m.fault "tag cannot be resolved"

/-- The anchor and the full tag that stand before a node. -/
def Properties.label (p : Properties) (tags : TagTable) : Except Fault Label := do
  return { anchor := ← p.anchorName, tag := ← p.tagName tags }

def Properties.tagOffset (p : Properties) : Nat := (p.tag.map Mark.offset).getD 0

/-- A scalar with what it denotes: by its tag if it has one, by its form if it is plain. -/
def Properties.scalar (p : Properties) (tags : TagTable) (style : Style) (text : List Char) :
    Except Fault Node := do
  let label ← p.label tags
  let s := String.ofList text
  let value ← match label.tag with
    | some "!" => pure (.text s)
    | some tag => (taggedScalar tag s).mapError fun what => ⟨what, p.tagOffset⟩
    | none => pure (if style = .plain then plainValue s else .text s)
  return .scalar label style text value

/-- A scalar that is left out. -/
def emptyScalar (tags : TagTable) (p : Properties) : Except Fault Node := p.scalar tags .plain []

/-- What an alias or a scalar on its line stands for. -/
def leafNode (tags : TagTable) (p : Properties) (m : Mark) (tail : List Mark) :
    Except Fault Node := do
  checkTail true tail
  match m.kind with
  | .alias =>
    if p.anchor.isSome || p.tag.isSome then m.fault "alias with an anchor or a tag"
    else return .alias (← m.name)
  | .plain =>
    match m.text.head? with
    | some '\t' | some ',' | some '%' | some '|' | some '>' | some '@' | some '\x60' =>
      m.fault "plain scalar starts with an indicator"
    | _ => p.scalar tags .plain (foldLines m.text)
  | kind =>
    let (style, text?) :=
      if kind = .singleQuoted then (Style.singleQuoted, singleQuoted? m.text)
      else (.doubleQuoted, doubleQuoted? m.text)
    match text? with
    | some text => p.scalar tags style text
    | none => m.fault "quoted scalar is not closed or has an unknown escape"

/-- What a block scalar stands for. -/
def blockNode (tags : TagTable) (atRoot : Bool) (p : Properties) (parent : Nat) (header : List Mark)
    (body : List Char) : Except Fault Node := do
  let m := header.headD default
  checkTail true ((header.drop 1).filter fun x => x.kind ≠ .lineEnd)
  match BlockHeader.read? { folded := m.text.head? = some '>' } (m.text.drop 1) with
  | none => m.fault "header of a block scalar has extra characters"
  | some h =>
    match blockText? h parent atRoot body with
    | none => m.fault "block scalar is not indented enough"
    | some text => p.scalar tags .block text

/-- Whether two scalar values are the same key. -/
def sameScalar : Value → Value → Bool
  | .null, .null => true
  | .bool a, .bool b => a = b
  | .number a, .number b => a.same b
  | .text a, .text b => a = b
  | _, _ => false

/-- Whether a key is among the keys of some entries; only scalars are compared. -/
def hasKey (entries : List (Node × Option Node)) (key : Node) : Bool :=
  match key with
  | .scalar _ _ _ v => entries.any fun e =>
    match e.1 with
    | .scalar _ _ _ w => sameScalar w v
    | _ => false
  | _ => false

/-- Whether the value of an entry is left out, or null without a tag. -/
def isNullEntry : Node × Option Node → Bool
  | (_, none) => true
  | (_, some (.scalar label _ _ .null)) => label.tag.isNone
  | _ => false

/-- The entry that an item of a list of pairs stands for: the one of a mapping, else the item as a
key without a value; a mapping without entries has the key null. -/
def Node.asPair? : Node → Option (Node × Option Node)
  | .mapping _ [] => some (.scalar {} .plain [] .null, none)
  | .mapping _ [e] => some e
  | .mapping _ _ => none
  | node => some (node, none)

/-- A mapping, which has nulls only if its tag makes it a set. -/
def Properties.mapping (p : Properties) (label : Label) (entries : List (Node × Option Node)) :
    Except Fault Node := do
  if label.tag = some (coreTag "set") && !entries.all isNullEntry then
    .error ⟨"set items must all have null values", p.tagOffset⟩
  return .mapping label entries

/-- A sequence, or the entries of one whose tag asks for pairs. -/
def Properties.sequence (p : Properties) (label : Label) (items : List Node) :
    Except Fault Node :=
  if label.tag = some (coreTag "omap") || label.tag = some (coreTag "pairs") then
    match items.mapM Node.asPair? with
    | none => .error ⟨"each pair must have its own sequence indicator", p.tagOffset⟩
    | some entries => .ok (.pairs label entries)
  else .ok (.sequence label items)

mutual

def Block.hasLineEnd : Block → Bool
  | .leaf m tail => m.text.contains '\n' || hasKind .lineEnd (tail.getD [])
  | .flow _ _ _ items _ => itemsHaveLineEnd items
  | _ => true

/-- Whether one of some items holds a line end. -/
def itemsHaveLineEnd : List Item → Bool
  | [] => false
  | .mk start _ key between value :: rest =>
    hasKind .lineEnd start || hasKind .lineEnd (between.getD []) || optionHasLineEnd key ||
      optionHasLineEnd value || itemsHaveLineEnd rest

/-- Whether a block that may be missing holds a line end. -/
def optionHasLineEnd : Option Block → Bool
  | none => false
  | some b => b.hasLineEnd

end

/-- Where the first lexeme of a block stands. -/
def Block.offset : Block → Nat
  | .leaf m _ => m.offset
  | .scalar o _ _ _ | .mapping o _ _ | .sequence o _ _ | .flow o _ _ _ _ => o

/-- Where the last of some lexemes ends. -/
def endOffset? (marks : List Mark) : Option Nat :=
  marks.getLast?.map fun m => m.offset + Text.unitCount m.text

/-- Whether a key is too far from its colon: more than 1024 units after its first property, or after
the end of the lexemes before it, or after its own place `key`. -/
def tooFar (start : List Mark) (p : Properties) (key : Option Nat) (colon : Mark) : Bool :=
  let from? := (p.first.map Mark.offset) <|> endOffset? start <|> key
  match from? with
  | some o => o + 1024 < colon.offset
  | none => false

/-- What comes after the lexemes before a key. -/
def nextOfKey (key : Option Block) (between : Option (List Mark)) : Next :=
  match key, between with
  | some b, _ => .block b
  | none, some (m :: _) => .mark m
  | none, _ => .nothing

/-- The checks on an implicit key of a block mapping. -/
def checkImplicitKey (indent : Nat) (start : List Mark) (p : Properties) (key : Option Block) :
    Except Fault Unit := do
  let at_ := (key.map Block.offset <|> endOffset? start).getD 0
  match key with
  | some (.sequence o _ _) => .error ⟨"block sequence as an implicit key", o⟩
  | some b =>
    if b.indent ≠ indent then .error ⟨"mapping entries must start at the same column", b.offset⟩
  | none => pure ()
  if p.lineEndAfter.isSome || optionHasLineEnd key then
    .error ⟨"implicit key must be on a single line", at_⟩

/-- A collection needs a line end after its properties when it is a block sequence. -/
def checkSequenceProperties (p : Properties) : Except Fault Unit :=
  match p.last with
  | none => .ok ()
  | some last =>
    match p.lineEndAfter with
    | some nl =>
      if nl.offset < last.offset then last.fault "missing line end after properties" else .ok ()
    | none => last.fault "missing line end after properties"

/-- A block collection may not stand in a flow collection. -/
def checkInFlow : Option Block → Except Fault Unit
  | some b =>
    if b.isBlockCollection then .error ⟨"block collection in a flow collection", b.offset⟩
    else .ok ()
  | none => .ok ()

/-- An item that is left out may only be the last one. -/
def checkEmptyItem (last first : Bool) (start : List Mark) (p : Properties) : Except Fault Unit :=
  if (first && p.comma) || !last then
    .error ⟨"empty item in a flow collection", (endOffset? start).getD 0⟩
  else .ok ()

/-- A comma stands before every item but the first. -/
def checkComma (first : Bool) (start : List Mark) (p : Properties) : Except Fault Unit :=
  if first = p.comma then
    .error ⟨"comma missing or misplaced in a flow collection", (endOffset? start).getD 0⟩
  else .ok ()

/-- The colon of an implicit key in a flow sequence stands on the line of the key and not too far
from it. -/
def checkFlowColon (p : Properties) (start : List Mark) (key : Option Nat) (between : List Mark)
    (inMapping : Bool) (colon : Mark) : Except Fault Unit := do
  if !inMapping && p.found.isNone then
    if hasKind .lineEnd (between.takeWhile fun m => m.kind ≠ .valueMark) then
      colon.fault "implicit key must be on a single line"
    if tooFar start p key colon then colon.fault "colon too far from its key"

/-- The value of an entry in a flow collection; `key` is the place of its key, and `node` builds the
value from the properties before it. -/
def flowValue (indent : Nat) (p : Properties) (start : List Mark) (key : Option Nat)
    (between : List Mark) (inMapping : Bool) (value : Option Block)
    (node : Properties → Except Fault Node) : Except Fault (Option Node) := do
  let q ← properties ⟨.valueMark, true, indent, false⟩ (Next.ofBlock value) between
  match q.found with
  | some colon =>
    checkFlowColon p start key between inMapping colon
    checkInFlow value
    return some (← node q)
  | none =>
    match value with
    | some b => .error ⟨"missing comma or colon in a flow collection", b.offset⟩
    | none => return none

mutual

/-- The node of a block with the properties before it. -/
def Block.node (tags : TagTable) (atRoot : Bool) (p : Properties) : Block → Except Fault Node
  | .leaf m tail => leafNode tags p m (tail.getD [])
  | .scalar _ parent header body => blockNode tags atRoot p parent header body
  | .mapping o indent items => do
    let label ← p.label tags
    let (entries, trailing) ← mappingEntries tags indent items
    if trailing then .error ⟨"content after the end of a mapping", o⟩
    p.mapping label entries.reverse
  | .sequence _ indent items => do
    let label ← p.label tags
    checkSequenceProperties p
    let nodes ← sequenceNodes tags indent items
    p.sequence label nodes.reverse
  | .flow o indent opening items closing => do
    let label ← p.label tags
    let close := if opening.kind = .mapOpen then Kind.mapClose else .listClose
    match closing with
    | [] => .error ⟨"flow collection is not closed", o⟩
    | c :: tail =>
      if c.kind ≠ close then c.fault "flow collection is closed by the wrong bracket"
      checkTail true tail
      if opening.kind = .mapOpen then
        let entries ← flowEntries tags indent true items
        p.mapping label entries.reverse
      else
        let nodes ← flowNodes tags indent true items
        p.sequence label nodes.reverse

/-- The node of a block that may be left out. -/
def optionNode (tags : TagTable) (p : Properties) : Option Block → Except Fault Node
  | none => emptyScalar tags p
  | some b => b.node tags false p

/-- The entries of a block mapping, newest first, from its items, newest first; and whether its last
item follows an item without key and value. -/
def mappingEntries (tags : TagTable) (indent : Nat) :
    List Item → Except Fault (List (Node × Option Node) × Bool)
  | [] => .ok ([], false)
  | .mk start _ key between value :: older => do
    let (entries, _) ← mappingEntries tags indent older
    let p ← properties ⟨.keyMark, false, indent, true⟩ (nextOfKey key between) start
    let implicit := p.found.isNone
    if implicit && key.isNone && between.isNone && p.anchor.isNone && p.tag.isNone then
      return (entries, false)
    match p.found with
    | none => checkImplicitKey indent start p key
    | some m => if m.indent ≠ indent then m.fault "mapping entries must start at the same column"
    let k ← optionNode tags p key
    if hasKey entries k then .error ⟨"mapping keys must be unique", (key.map Block.offset).getD 0⟩
    let newLine : Bool := match key with
      | none | some (.scalar _ _ _ _) => true
      | _ => false
    let q ← properties ⟨.valueMark, false, indent, newLine⟩ (Next.ofBlock value) (between.getD [])
    match q.found with
    | some colon =>
      if implicit then
        match value with
        | some (.mapping o _ _) =>
          if !q.hasLineEnd then .error ⟨"nested mapping on the line of its key", o⟩
        | _ => pure ()
        if tooFar start p (key.map Block.offset) colon then colon.fault "colon too far from its key"
      let v ← optionNode tags q value
      return ((k, some v) :: entries, older.any fun i =>
        i.key.isNone && i.between.isNone && i.value.isNone && !i.explicit && isHollow i.start)
    | none =>
      if implicit then .error ⟨"implicit key without a value", (key.map Block.offset).getD 0⟩
      return ((k, none) :: entries, false)

/-- The nodes of a block sequence, newest first. -/
def sequenceNodes (tags : TagTable) (indent : Nat) : List Item → Except Fault (List Node)
  | [] => .ok []
  | .mk start _ _ _ value :: older => do
    let nodes ← sequenceNodes tags indent older
    let p ← properties ⟨.entryMark, false, indent, true⟩ (Next.ofBlock value) start
    if p.found.isNone then
      if p.anchor.isSome || p.tag.isSome || value.isSome then
        .error ⟨"sequence entry without its indicator", (endOffset? start).getD 0⟩
      return nodes
    return (← optionNode tags p value) :: nodes

/-- The entries of a flow mapping, newest first. `last` tells that the first of the items is the
last of the collection. -/
def flowEntries (tags : TagTable) (indent : Nat) (last : Bool) :
    List Item → Except Fault (List (Node × Option Node))
  | [] => .ok []
  | .mk start _ key between value :: older => do
    let entries ← flowEntries tags indent false older
    let p ← properties ⟨.keyMark, true, indent, false⟩ (nextOfKey key between) start
    if p.found.isNone && p.anchor.isNone && p.tag.isNone && between.isNone && value.isNone then
      checkEmptyItem last older.isEmpty start p
      return entries
    checkComma older.isEmpty start p
    let k ← optionNode tags p key
    checkInFlow key
    let v ← flowValue indent p start (key.map Block.offset) (between.getD []) true value
      fun q => optionNode tags q value
    if hasKey entries k then .error ⟨"mapping keys must be unique", (key.map Block.offset).getD 0⟩
    return (k, v) :: entries

/-- The nodes of a flow sequence, newest first; an item with a colon is a mapping of one entry. -/
def flowNodes (tags : TagTable) (indent : Nat) (last : Bool) : List Item → Except Fault (List Node)
  | [] => .ok []
  | .mk start _ key between value :: older => do
    let nodes ← flowNodes tags indent false older
    let p ← properties ⟨.keyMark, true, indent, false⟩ (nextOfKey key between) start
    if p.found.isNone && p.anchor.isNone && p.tag.isNone && between.isNone && value.isNone then
      checkEmptyItem last older.isEmpty start p
      return nodes
    if p.found.isNone && optionHasLineEnd key then
      .error ⟨"implicit key must be on a single line", (key.map Block.offset).getD 0⟩
    checkComma older.isEmpty start p
    if between.isNone && p.found.isNone then
      let v ← optionNode tags p value
      checkInFlow value
      return v :: nodes
    let k ← optionNode tags p key
    checkInFlow key
    let v ← flowValue indent p start (key.map Block.offset) (between.getD []) false value
      fun q => optionNode tags q value
    return .mapping {} [(k, v)] :: nodes

end

end ApiReport.Yaml
