import ApiReport.Yaml.Block
import ApiReport.Yaml.Fault
import ApiReport.Yaml.Lexeme.Stream
import ApiReport.Text.Units

/-!
# The outline of a YAML stream

Lexemes are put together into blocks by their indentation. A stack holds the blocks that are still
open, the innermost first; a lexeme goes to the innermost block that can take it, and the blocks
inside that one are closed and handed to their parents.

Key definitions: `Section`, `Frame`, `Outline`, `Outline.add`, `outline`.
-/
namespace ApiReport.Yaml

/-- A part of a stream that stands on its own. -/
inductive Section where
  | directive (mark : Mark)
  | document (offset : Nat) (start : List Mark) (value : Option Block) (tail : List Mark)
  | documentEnd (mark : Mark) (tail : List Mark)

/-- An open part of the stream. -/
inductive Frame where
  | document (offset : Nat) (start : List Mark) (value : Option Block) (tail : List Mark)
  | documentEnd (mark : Mark) (tail : List Mark)
  | block (b : Block)

/-- The outline of the lexemes so far: whether only gaps and indicators have been seen on the line,
the indentation reached on it, the units passed, whether the line holds a key, the open frames and
the closed sections (newest first). -/
structure Outline where
  atNewLine : Bool := true
  indent : Nat := 0
  offset : Nat := 0
  onKeyLine : Bool := false
  stack : List Frame := []
  sections : List Section := []

/-- Whether a kind of lexeme is among some. -/
def hasKind (k : Kind) (ms : List Mark) : Bool := ms.any fun m => m.kind = k

/-- Gaps, comments and line ends only. -/
def isHollow (ms : List Mark) : Bool :=
  ms.all fun m => m.kind = .gap || m.kind = .comment || m.kind = .lineEnd

/-- Parts lexemes in front of a key into those before its line or indicator, with the gap after it,
and those that belong to the key. -/
def splitKeyStart (ms : List Mark) : List Mark × List Mark :=
  let own := (ms.reverse.takeWhile fun m =>
    !(m.kind = .documentStart || m.kind = .keyMark || m.kind = .valueMark || m.kind = .entryMark ||
      m.kind = .lineEnd)).reverse
  let gap := own.takeWhile fun m => m.kind = .gap
  (ms.take (ms.length - own.length) ++ gap, own.drop gap.length)

/-- An item of a flow sequence that turned out to have no colon is a value, not a key. -/
def Item.asValue (item : Item) : Item :=
  match item with
  | .mk s e k (some b) none =>
    if hasKind .keyMark s || hasKind .valueMark b then .mk s e k (some b) none
    else
      match k with
      | some block =>
        if block.isInline then .mk s e none none (some (block.setTail (block.tail?.getD [] ++ b)))
        else .mk (s ++ b) e none none (some block)
      | none => .mk (s ++ b) e none none none
  | item => item

/-- A flow sequence with its items told apart into values and pairs. -/
def Block.settleItems : Block → Block
  | .flow o i opening items closing =>
    .flow o i opening (if opening.kind = .listOpen then items.map Item.asValue else items) closing
  | b => b

namespace Frame

def indent : Frame → Nat
  | .block b => b.indent
  | _ => 0

/-- Takes the lexemes that belong to a key about to be read away from the frame they were put into.
-/
def takeKeyStart : Frame → Frame × List Mark
  | .document o start v tail =>
    let (kept, own) := splitKeyStart start
    (.document o kept v tail, own)
  | .block (.mapping o i (item :: items)) =>
    match item.between with
    | some between =>
      let (kept, own) := splitKeyStart between
      (.block (.mapping o i (item.setBetween kept :: items)), own)
    | none =>
      let (kept, own) := splitKeyStart item.start
      (.block (.mapping o i (item.setStart kept :: items)), own)
  | .block (.sequence o i (item :: items)) =>
    let (kept, own) := splitKeyStart item.start
    (.block (.sequence o i (item.setStart kept :: items)), own)
  | f => (f, [])

end Frame

/-- Blank lines at the end of a closed collection belong to its parent. Answers the collection
without them, and them. -/
def Block.shedTail (b : Block) : Block × Option (List Mark) :=
  let sheds (i : Nat) (item : Item) : Bool :=
    item.between.isNone && item.value.isNone && !item.start.isEmpty && isHollow item.start &&
      (i = 0 || item.start.all fun m => m.kind ≠ .comment || m.indent < i)
  match b with
  | .mapping o i (item :: items) =>
    if sheds i item then (.mapping o i items, some item.start) else (b, none)
  | .sequence o i (item :: items) =>
    if sheds i item then (.sequence o i items, some item.start) else (b, none)
  | b => (b, none)

namespace Outline

/-- The fault at a lexeme. -/
def fault {α : Type} (m : Mark) (what : String) : Except Fault α := .error ⟨what, m.offset⟩

/-- Hands a closed block to the innermost frame. -/
def attach (t : Outline) (b : Block) : Except Fault Outline :=
  match t.stack with
  | [] => .error ⟨"block outside of a document", t.offset⟩
  | top :: below =>
    let b := match b with
      | .scalar o _ header body => .scalar o top.indent header body
      | .flow o i opening items closing =>
        let i := match top with
          | .document _ _ _ _ => 0
          | _ => i
        (Block.flow o i opening items closing).settleItems
      | b => b
    match top with
    | .document o start _ tail =>
      match b.shedTail with
      | (b, some marks) => .ok { t with stack := .document o start (some b) marks :: below }
      | (b, none) => .ok { t with stack := .document o start (some b) tail :: below }
    | .block (.mapping o i items) =>
      let item := items.headD default
      let older := items.drop 1
      if item.value.isSome then
        .ok { t with
          onKeyLine := true
          stack := .block (.mapping o i (.keyed [] (some b) [] :: items)) :: below }
      else if item.between.isSome then
        let (b, shed) := b.shedTail
        let items := item.setValue b :: older
        let items := match shed with
          | some marks => .begun marks :: items
          | none => items
        .ok { t with stack := .block (.mapping o i items) :: below }
      else
        .ok { t with
          onKeyLine := !item.explicit
          stack := .block (.mapping o i (item.setKey (some b) [] :: older)) :: below }
    | .block (.sequence o i items) =>
      let item := items.headD default
      let (b, shed) := b.shedTail
      let items :=
        if item.value.isSome then (Item.begun []).setValue b :: items
        else item.setValue b :: items.drop 1
      let items := match shed with
        | some marks => .begun marks :: items
        | none => items
      .ok { t with stack := .block (.sequence o i items) :: below }
    | .block (.flow o i opening items closing) =>
      let items := match items with
        | [] => [.keyed [] (some b) []]
        | item :: older =>
          if item.value.isSome then .keyed [] (some b) [] :: item :: older
          else if item.between.isSome then item.setValue b :: older
          else item.setKey (some b) [] :: older
      .ok { t with stack := .block (.flow o i opening items closing) :: below }
    | _ => .error ⟨"block after a scalar", t.offset⟩

def close (t : Outline) : Except Fault Outline :=
  match t.stack with
  | [] => .ok t
  | .document o start v tail :: below =>
    .ok { t with stack := below, sections := .document o start v tail :: t.sections }
  | .documentEnd m tail :: below =>
    .ok { t with stack := below, sections := .documentEnd m tail :: t.sections }
  | .block b :: below => { t with stack := below }.attach b

def closeAll : (n : Nat) → Outline → Except Fault Outline
  | 0, t => .ok t
  | n + 1, t => do closeAll n (← t.close)

def setTop (t : Outline) (f : Frame) : Outline := { t with stack := f :: t.stack.drop 1 }

def push (t : Outline) (b : Block) : Outline := { t with stack := .block b :: t.stack }

/-- The block that a lexeme begins in the content of the innermost frame, if it can begin one. -/
def opened? (t : Outline) (m : Mark) : Option Outline :=
  match m.kind with
  | .alias | .plain | .singleQuoted | .doubleQuoted => some (t.push (.leaf m none))
  | .blockHeader => some (t.push (.scalar m.offset m.indent [m] []))
  | .mapOpen | .listOpen => some (t.push (.flow m.offset m.indent m [] []))
  | .entryMark => some (t.push (.sequence m.offset m.indent [.begun [m]]))
  | .keyMark =>
    match t.stack with
    | [] => none
    | top :: below =>
      let (top, own) := top.takeKeyStart
      let t := { t with onKeyLine := true, stack := top :: below }
      some (t.push (.mapping m.offset m.indent [.asked (own ++ [m])]))
  | .valueMark =>
    match t.stack with
    | [] => none
    | top :: below =>
      let (top, own) := top.takeKeyStart
      let t := { t with onKeyLine := true, stack := top :: below }
      some (t.push (.mapping m.offset m.indent [.keyed own none [m]]))
  | _ => none

/-- What a lexeme does to the innermost frame: it is taken, or the frame has to be closed before it.
-/
inductive Step where
  | taken (t : Outline)
  | closeFirst (t : Outline)

/-- A lexeme after a value on its line. `put` adds a lexeme to the tail of that value. -/
def afterValue (t : Outline) (m : Mark) (put : Mark → Frame) : Except Fault Step :=
  match m.kind with
  | .comma | .documentStart | .documentEnd | .listClose | .mapClose | .valueMark =>
    .ok (.closeFirst t)
  | .lineEnd => do return .taken (← ({ t with onKeyLine := false }.setTop (put m)).close)
  | .gap | .comment => .ok (.taken (t.setTop (put m)))
  | _ => fault m "unexpected content after a value"

/-- Between documents. -/
def addToStream (t : Outline) (m : Mark) : Except Fault Outline :=
  match m.kind with
  | .directive => .ok { t with sections := .directive m :: t.sections }
  | .byteOrderMark | .gap | .comment | .lineEnd => .ok t
  | .contentStart => .ok { t with stack := [.document m.offset [] none []] }
  | .documentStart => .ok { t with stack := [.document m.offset [m] none []] }
  | _ => fault m "unexpected content between documents"

/-- In a document outside of every block. -/
def addToDocument (t : Outline) (m : Mark) (o : Nat) (start : List Mark) (v : Option Block)
    (tail : List Mark) : Except Fault Step :=
  if v.isSome then t.afterValue m fun m => .document o start v (tail ++ [m])
  else
    match m.kind with
    | .documentStart =>
      if isHollow start then .ok (.taken (t.setTop (.document o (start ++ [m]) v tail)))
      else .ok (.closeFirst t)
    | .anchor | .tag | .gap | .comment | .lineEnd =>
      .ok (.taken (t.setTop (.document o (start ++ [m]) v tail)))
    | _ =>
      match t.opened? m with
      | some t => .ok (.taken t)
      | none => fault m "unexpected content in a document"

/-- A colon after a block that ended on its line makes the block the key of a mapping. -/
def keyOf (t : Outline) (m : Mark) (b : Block) (tail : List Mark) (offset : Nat) : Outline :=
  match t.stack.drop 1 with
  | [] => t
  | parent :: below =>
    let (parent, own) := parent.takeKeyStart
    { t with
      onKeyLine := true
      stack :=
        .block (.mapping offset b.indent [.keyed own (some b) (tail ++ [m])]) :: parent :: below }

/-- After an alias or a scalar on its line. -/
def addToLeaf (t : Outline) (m : Mark) (mark : Mark) (tail : Option (List Mark)) :
    Except Fault Step :=
  if m.kind = .valueMark then .ok (.taken (t.keyOf m (.leaf mark none) (tail.getD []) mark.offset))
  else t.afterValue m fun m => .block (.leaf mark (some (tail.getD [] ++ [m])))

/-- In the header of a block scalar; its body follows the line end. -/
def addToScalar (t : Outline) (m : Mark) (o i : Nat) (header : List Mark) : Except Fault Step :=
  match m.kind with
  | .gap | .comment | .lineEnd => .ok (.taken (t.setTop (.block (.scalar o i (header ++ [m]) []))))
  | .plain => do
    let t := { t with atNewLine := true, indent := 0 }.setTop (.block (.scalar o i header m.text))
    return .taken (← t.close)
  | _ => .ok (.closeFirst t)

/-- A line end after the items of a block collection, the newest first. -/
def endItemLine (m : Mark) (items : List Item) : List Item :=
  match items with
  | [] => [.begun [m]]
  | item :: older =>
    match item.value with
    | some v =>
      let tail := v.tail?.getD []
      if (tail.getLast?.map Mark.kind) = some .comment then
        item.setValue (v.setTail (tail ++ [m])) :: older
      else .begun [m] :: item :: older
    | none => if item.between.isSome then item.addBetween m :: older else item.addStart m :: older

/-- A gap or a comment after the items of a block collection. A comment on a line of its own that is
indented more than the collection goes to the tail of the value before it. -/
def addHollow (m : Mark) (indent : Nat) (items : List Item) : List Item :=
  match items with
  | [] => [.begun [m]]
  | item :: older =>
    if item.value.isSome then .begun [m] :: item :: older
    else if item.between.isSome then item.addBetween m :: older
    else
      let indented := m.kind = .comment && indent < m.indent &&
        item.start.all fun s => s.kind = .lineEnd || s.kind = .gap
      match older with
      | before :: oldest =>
        let joined? (v : Block) := v.tail?.map fun tail => v.setTail (tail ++ item.start ++ [m])
        match before.value.bind joined? with
        | some v => if indented then before.setValue v :: oldest else item.addStart m :: older
        | none => item.addStart m :: older
      | [] => item.addStart m :: older

/-- The place in the lexemes between key and value from which they belong to the next item: the
second of the line ends since the last lexeme that is indented more than the mapping. -/
def nextItemStart? (indent : Nat) (between : List Mark) : Option Nat :=
  let ends := between.zipIdx.foldl (fun (ends : List Nat) (m, i) =>
    match m.kind with
    | .lineEnd => ends ++ [i]
    | .gap => ends
    | .comment => if indent < m.indent then [] else ends
    | _ => []) []
  ends[1]?

/-- A colon in a mapping. -/
def addColon (t : Outline) (m : Mark) (o i : Nat) (item : Item) (older : List Item) (atNext : Bool)
    (start : List Mark) : Outline :=
  let top (items : List Item) : Outline := t.setTop (.block (.mapping o i items))
  let between := item.between.getD []
  let t' :=
    if item.explicit then
      if item.between.isNone then
        if hasKind .lineEnd item.start then top (item.setKey none [m] :: older)
        else
          let (kept, own) := splitKeyStart item.start
          (top (item.setStart kept :: older)).push
            (.mapping m.offset m.indent [.keyed own none [m]])
      else if item.value.isSome then top (.keyed [] none [m] :: item :: older)
      else if hasKind .valueMark between then
        (top (item :: older)).push (.mapping m.offset m.indent [.keyed start none [m]])
      else if item.key.any Block.isInline && !hasKind .lineEnd between then
        let (kept, own) := splitKeyStart item.start
        (top ((item.setStart kept).dropKey :: older)).push
          (.mapping m.offset m.indent [.keyed own item.key (between ++ [m])])
      else top (item.setBetween (between ++ start ++ [m]) :: older)
    else if item.between.isNone then top (item.setKey none [m] :: older)
    else if item.value.isSome || atNext then top (.keyed start none [m] :: item :: older)
    else if hasKind .valueMark between then
      (top (item :: older)).push (.mapping m.offset m.indent [.keyed [] none [m]])
    else top (item.addBetween m :: older)
  { t' with onKeyLine := true }

/-- In a mapping of the block style. -/
def addToMapping (t : Outline) (m : Mark) (o i : Nat) (items : List Item) : Except Fault Step :=
  let top (t : Outline) (items : List Item) : Outline := t.setTop (.block (.mapping o i items))
  match m.kind with
  | .lineEnd => .ok (.taken (top { t with onKeyLine := false } (endItemLine m items)))
  | .gap | .comment => .ok (.taken (top t (addHollow m i items)))
  | kind =>
    if m.indent < i then .ok (.closeFirst t)
    else
      let item := items.headD default
      let older := items.drop 1
      let atIndent := !t.onKeyLine && m.indent = i
      let atNext := atIndent && (item.between.isSome || item.explicit) && kind ≠ .entryMark
      let between := item.between.getD []
      let cut :=
        if atNext && item.between.isSome && item.value.isNone then nextItemStart? i between
        else none
      let (item, start) := match cut with
        | some n => (item.setBetween (between.take n), between.drop n)
        | none => (item, [])
      let items := item :: older
      let begins := atNext || item.value.isSome
      match kind with
      | .anchor | .tag =>
        if begins then
          .ok (.taken (top { t with onKeyLine := true } (.begun (start ++ [m]) :: items)))
        else if item.between.isSome then .ok (.taken (top t (item.addBetween m :: older)))
        else .ok (.taken (top t (item.addStart m :: older)))
      | .keyMark =>
        let t := { t with onKeyLine := true }
        if item.between.isNone && !item.explicit then
          .ok (.taken (top t ((item.addStart m).setExplicit :: older)))
        else if begins then .ok (.taken (top t (.asked (start ++ [m]) :: items)))
        else .ok (.taken ((top t items).push (.mapping m.offset m.indent [.asked [m]])))
      | .valueMark => .ok (.taken (t.addColon m o i item older atNext start))
      | .alias | .plain | .singleQuoted | .doubleQuoted =>
        let leaf := Block.leaf m none
        if begins then
          .ok (.taken (top { t with onKeyLine := true } (.keyed start (some leaf) [] :: items)))
        else if item.between.isSome then .ok (.taken ((top t items).push leaf))
        else .ok (.taken (top { t with onKeyLine := true } (item.setKey (some leaf) [] :: older)))
      | .entryMark =>
        if !item.explicit && item.between.isSome && !hasKind .lineEnd between then
          fault m "sequence entry on the line of a key"
        else .ok (.taken ((top t items).push (.sequence m.offset m.indent [.begun [m]])))
      | _ =>
        match (top t (if atIndent then .begun start :: items else items)).opened? m with
        | some t => .ok (.taken t)
        | none => .ok (.closeFirst (top t items))

/-- In a sequence of the block style. -/
def addToSequence (t : Outline) (m : Mark) (o i : Nat) (items : List Item) : Except Fault Step :=
  let top (items : List Item) : Step := .taken (t.setTop (.block (.sequence o i items)))
  let item := items.headD default
  let older := items.drop 1
  let deeper (_ : Unit) : Except Fault Step :=
    if i < m.indent then
      match t.opened? m with
      | some t => .ok (.taken t)
      | none => .ok (.closeFirst t)
    else .ok (.closeFirst t)
  match m.kind with
  | .lineEnd => .ok (top (endItemLine m items))
  | .gap | .comment => .ok (top (addHollow m i items))
  | .anchor | .tag =>
    if item.value.isSome || m.indent ≤ i then deeper () else .ok (top (item.addStart m :: older))
  | .entryMark =>
    if m.indent ≠ i then deeper ()
    else if item.value.isSome || hasKind .entryMark item.start then .ok (top (.begun [m] :: items))
    else .ok (top (item.addStart m :: older))
  | _ => deeper ()

/-- In a flow collection that is not closed yet. -/
def addToFlow (t : Outline) (m : Mark) (o i : Nat) (opening : Mark) (items : List Item) :
    Except Fault Step :=
  let top (items : List Item) : Step := .taken (t.setTop (.block (.flow o i opening items [])))
  let onItem (fresh : List Item) (between start : Item → Item) : Step :=
    match items with
    | [] => top fresh
    | item :: older =>
      if item.value.isSome then top (fresh ++ items)
      else if item.between.isSome then top (between item :: older)
      else top (start item :: older)
  match m.kind with
  | .comma | .keyMark =>
    match items with
    | [] => .ok (top [.begun [m]])
    | item :: older =>
      if item.between.isSome then .ok (top (.begun [m] :: items))
      else .ok (top (item.addStart m :: older))
  | .valueMark =>
    .ok (onItem [.keyed [] none [m]] (·.addBetween m) (·.setKey none [m]))
  | .gap | .comment | .lineEnd | .anchor | .tag =>
    .ok (onItem [.begun [m]] (·.addBetween m) (·.addStart m))
  | .alias | .plain | .singleQuoted | .doubleQuoted =>
    let leaf := Block.leaf m none
    match items with
    | item :: _ =>
      if item.value.isNone && item.between.isSome then .ok (.taken (t.push leaf))
      else .ok (onItem [.keyed [] (some leaf) []] id (·.setKey (some leaf) []))
    | [] => .ok (top [.keyed [] (some leaf) []])
  | .mapClose | .listClose => .ok (.taken (t.setTop (.block (.flow o i opening items [m]))))
  | _ =>
    match t.opened? m with
    | some t => .ok (.taken t)
    | none => .ok (.closeFirst t)

/-- After the closing bracket of a flow collection. -/
def addAfterFlow (t : Outline) (m : Mark) (o i : Nat) (opening : Mark) (items : List Item)
    (closing : List Mark) : Except Fault Step :=
  let closesFirst : Bool := match t.stack.drop 1 with
    | .block (.mapping _ j older) :: _ =>
      (m.kind = .valueMark && j = i) ||
        (m.kind = .lineEnd && (older.head?.bind Item.between).isNone)
    | _ => false
  let inFlow : Bool := match t.stack.drop 1 with
    | .block (.flow _ _ _ _ _) :: _ => true
    | _ => false
  if closesFirst then .ok (.closeFirst t)
  else if m.kind = .valueMark && !inFlow then
    let b := (Block.flow o i opening items (closing.take 1)).settleItems
    .ok (.taken (t.keyOf m b (closing.drop 1) o))
  else t.afterValue m fun m => .block (.flow o i opening items (closing ++ [m]))

/-- Gives a lexeme to the innermost frame. -/
def offer (t : Outline) (m : Mark) : Except Fault Step :=
  match t.stack with
  | [] => do return .taken (← t.addToStream m)
  | .document o start v tail :: _ => t.addToDocument m o start v tail
  | .documentEnd mark tail :: _ =>
    if m.kind = .contentStart then .ok (.taken t)
    else
      let t := t.setTop (.documentEnd mark (tail ++ [m]))
      if m.kind = .lineEnd then do return .taken (← t.close) else .ok (.taken t)
  | .block (.leaf mark tail) :: _ => t.addToLeaf m mark tail
  | .block (.scalar o i header _) :: _ => t.addToScalar m o i header
  | .block (.mapping o i items) :: _ => t.addToMapping m o i items
  | .block (.sequence o i items) :: _ => t.addToSequence m o i items
  | .block (.flow o i opening items []) :: _ => t.addToFlow m o i opening items
  | .block (.flow o i opening items closing) :: _ => t.addAfterFlow m o i opening items closing

/-- Gives a lexeme to the innermost frame that takes it, closing those that do not; `fuel` bounds
how many are closed. -/
def place : (fuel : Nat) → Outline → Mark → Except Fault Outline
  | 0, _, m => fault m "no place for a lexeme"
  | fuel + 1, t, m => do
    match ← t.offer m with
    | .taken t => return t
    | .closeFirst t => place fuel (← t.close) m

/-- Ends all that is open and begins the part after an explicit end of a document. -/
def endDocument (t : Outline) (m : Mark) : Except Fault Outline := do
  let t ← closeAll t.stack.length t
  return { t with stack := [.documentEnd m []] }

/-- Adds a lexeme. -/
def add (t : Outline) (l : Lexeme) : Except Fault Outline := do
  let t := if l.kind = .plain then { t with atNewLine := false } else t
  let m : Mark := ⟨l.kind, l.text, t.indent, t.offset⟩
  let inEnd : Bool := match t.stack with
    | .documentEnd _ _ :: _ => true
    | _ => false
  if l.kind = .unknown then fault m "unexpected characters"
  else if l.kind = .flowCut then fault m "flow collection is not closed or not indented enough"
  else
    let t ←
      if l.kind = .documentEnd && !inEnd then t.endDocument m
      else place (t.stack.length + 2) t m
    let size := Text.unitCount l.text
    match l.kind with
    | .contentStart => return t
    | .plain => return { t with offset := t.offset + size }
    | .lineEnd => return { t with atNewLine := true, indent := 0, offset := t.offset + size }
    | .gap =>
      let deeper := t.atNewLine && l.text.head? = some ' '
      let indent := if deeper then t.indent + size else t.indent
      return { t with indent := indent, offset := t.offset + size }
    | .keyMark | .valueMark | .entryMark =>
      let indent := if t.atNewLine then t.indent + size else t.indent
      return { t with indent := indent, offset := t.offset + size }
    | _ => return { t with atNewLine := false, offset := t.offset + size }

end Outline

/-- The sections of a text, in order. -/
def outline (cs : List Char) : Except Fault (List Section) := do
  let t ← (Lexeme.stream cs).foldlM Outline.add {}
  let t ← Outline.closeAll t.stack.length t
  return t.sections.reverse

end ApiReport.Yaml
