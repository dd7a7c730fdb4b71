import ApiReport.Yaml.Lexeme

/-!
# The lexemes of a text

The text is cut from left to right. What a character means depends on the place it stands at:
between documents, at the start of a line, in the block content of a document, or in a flow
collection; and where a scalar of several lines ends depends on the indentation that its
continuation lines need.

Key definitions: `Cursor`, `Place`, `Cursor.step`, `Lexeme.stream`.
-/
namespace ApiReport.Yaml

/-- Where the cut stands: the text still to cut, the lexemes so far (newest first), the indentation
of the current line and the least indentation of its continuation lines, and in flow collections the
nesting level and whether a key has just ended, so that a colon needs no gap after it. -/
structure Cursor where
  rest : List Char
  lexemes : List Lexeme
  lineIndent : Nat
  nextIndent : Nat
  flowLevel : Nat
  afterFlowKey : Bool

/-- What may come next. -/
inductive Place where
  | betweenDocuments
  | lineStart
  | blockStart
  | content
  | flow
  deriving DecidableEq, Repr

namespace Cursor

/-- Adds a lexeme without consuming text. -/
def mark (c : Cursor) (kind : Kind) : Cursor := { c with lexemes := ⟨kind, []⟩ :: c.lexemes }

/-- Takes `n` characters as one lexeme, or none if `n` is zero. -/
def take (c : Cursor) (n : Nat) : Cursor :=
  if n = 0 then c
  else
    let text := c.rest.take n
    { c with rest := c.rest.drop n, lexemes := ⟨Kind.ofText text, text⟩ :: c.lexemes }

/-- Takes `n` characters, possibly none, as a plain scalar. -/
def takePlain (c : Cursor) (n : Nat) : Cursor :=
  { c with rest := c.rest.drop n, lexemes := ⟨.plain, c.rest.take n⟩ :: c.lexemes }

/-- Takes the longest run of characters in a class. -/
def takeWhile (c : Cursor) (p : Char → Bool) : Cursor := c.take (c.rest.takeWhile p).length

def spaces (c : Cursor) : Cursor := c.takeWhile (· == ' ')

/-- Takes spaces and tabs. -/
def gap (c : Cursor) : Cursor := c.takeWhile fun x => x == ' ' || x == '\t'

/-- Takes a line end if there is one. -/
def lineEnd (c : Cursor) : Cursor :=
  match c.rest with
  | '\n' :: _ => c.take 1
  | '\r' :: '\n' :: _ => c.take 2
  | _ => c

/-- Takes what is left of the line, without its end. -/
def restOfLine (c : Cursor) : Cursor := c.take (lineLength c.rest)

@[simp] theorem rest_take (c : Cursor) (n : Nat) : (c.take n).rest = c.rest.drop n := by
  unfold take
  split
  · simp_all
  · rfl

theorem length_gap_le (c : Cursor) : c.gap.rest.length ≤ c.rest.length := by
  simp [gap, takeWhile]

theorem length_spaces_le (c : Cursor) : c.spaces.rest.length ≤ c.rest.length := by
  simp [spaces, takeWhile]

/-- A line end with what follows it in the next line's margin leaves less than there was before. -/
theorem length_gap_line_lt {c : Cursor} (h : atLineEnd c.rest = true) (hc : c.rest ≠ []) :
    c.lineEnd.spaces.gap.rest.length < c.rest.length := by
  refine Nat.lt_of_le_of_lt (Nat.le_trans (length_gap_le _) (length_spaces_le _)) ?_
  have hlen : 0 < c.rest.length := List.length_pos_iff.2 hc
  unfold lineEnd
  split
  · rw [rest_take, List.length_drop]
    omega
  · rw [rest_take, List.length_drop]
    omega
  · next hline hreturn =>
    unfold atLineEnd at h
    split at h
    · next hnil => exact (hc hnil).elim
    · next hrest => exact (hline _ hrest).elim
    · next hrest => exact (hreturn _ hrest).elim
    · cases h

/-- A gap after something taken leaves less than there was before. -/
theorem length_gap_take_lt {c : Cursor} {n : Nat} (hn : 0 < n) (hc : 0 < c.rest.length) :
    (c.take n).gap.rest.length < c.rest.length :=
  Nat.lt_of_le_of_lt (length_gap_le _) (by rw [rest_take, List.length_drop]; omega)

/-- Taking what starts with a character of the class leaves less than there was before. -/
theorem length_takeWhile_lt {c : Cursor} {p : Char → Bool} {x : Char} {rest : List Char}
    (h : c.rest = x :: rest) (hx : p x = true) :
    (c.takeWhile p).rest.length < c.rest.length := by
  rw [takeWhile, rest_take, List.length_drop, h, List.takeWhile_cons_of_pos hx]
  simp only [List.length_cons]
  omega

end Cursor

/-- Whether a scalar goes on in the line that starts here: the line is blank, or indented enough,
or, where no indentation is needed, not a marker between documents. The answer is the text after the
indentation. -/
def continued? (nextIndent : Nat) (cs : List Char) : Option (List Char) :=
  if nextIndent = 0 then if atDocumentMarker cs then none else some cs
  else
    let after := cs.dropWhile (· == ' ')
    let indent := (cs.takeWhile (· == ' ')).length
    match after with
    | '\n' :: _ | '\r' :: '\n' :: _ => some after
    | _ => if nextIndent ≤ indent then some after else none

/-- The length of a plain scalar. `seen` characters have been passed, of which the first `kept`
belong to the scalar; `indent` counts the spaces at the start of a continuation line until its first
other character has been seen. -/
def plainLength (inFlow : Bool) (nextIndent : Nat) :
    (indent : Option Nat) → (seen kept : Nat) → List Char → Nat
  | _, _, kept, [] => kept
  | indent, seen, kept, c :: cs =>
    let endsBefore (next : Option Char) : Bool :=
      next == some '#' || (inFlow && next.any isFlowIndicator)
    let go (indent : Option Nat) (kept : Nat) : Nat :=
      plainLength inFlow nextIndent indent (seen + 1) kept cs
    let inText (_ : Unit) : Nat :=
      if c = ':' then
        if isGapOrEnd cs.head? || (inFlow && cs.head?.any isFlowIndicator) then kept
        else go none (seen + 1)
      else if c = '\n' then
        if endsBefore cs.head? then kept
        else if nextIndent ≠ 0 then go (some 0) kept
        else if atDocumentMarker cs then kept
        else go none kept
      else if c = '\r' && cs.head? = some '\n' then go none kept
      else if c = ' ' || c = '\t' then if endsBefore cs.head? then kept else go none kept
      else if c = '\r' then if endsBefore cs.head? then seen + 1 else go none (seen + 1)
      else if inFlow && isFlowIndicator c then kept
      else go none (seen + 1)
    match indent with
    | none => inText ()
    | some n =>
      if c = ' ' then go (some (n + 1)) kept
      else if c = '\n' || (c = '\r' && cs.head? = some '\n') then inText ()
      else if n < nextIndent || endsBefore (some c) then kept
      else inText ()

/-- How many characters stand before and including the quote that closes a single-quoted scalar, the
text starting after the opening quote. -/
def singleQuoteEnd? : List Char → Option Nat
  | [] => none
  | '\'' :: '\'' :: cs => (singleQuoteEnd? cs).map (· + 2)
  | '\'' :: _ => some 1
  | _ :: cs => (singleQuoteEnd? cs).map (· + 1)

/-- How many characters stand before and including the quote that closes a double-quoted scalar, the
text starting after the opening quote. -/
def doubleQuoteEnd? : List Char → Option Nat
  | [] => none
  | '\\' :: _ :: cs => (doubleQuoteEnd? cs).map (· + 2)
  | '"' :: _ => some 1
  | _ :: cs => (doubleQuoteEnd? cs).map (· + 1)

/-- The length of the part of a quoted scalar that stands before the first line that is indented too
little to continue it, if there is such a line within the first `n` characters. -/
def cutShort? (nextIndent : Nat) : (seen n : Nat) → List Char → Option Nat
  | _, 0, _ | _, _, [] => none
  | seen, n + 1, c :: cs =>
    if c = '\n' && (continued? nextIndent cs).isNone then some seen
    else if
      c = '\r' && cs.head? = some '\n' && n ≠ 0 && (continued? nextIndent (cs.drop 1)).isNone
    then
      some seen
    else cutShort? nextIndent (seen + 1) n cs

/-- The length of the quoted scalar at the start of the text. One that is never closed takes all. -/
def quotedLength (nextIndent : Nat) (cs : List Char) : Nat :=
  let closed := match cs with
    | '\'' :: rest => singleQuoteEnd? rest
    | _ :: rest => doubleQuoteEnd? rest
    | [] => none
  match closed with
  | none => cs.length
  | some n => (cutShort? nextIndent 1 (n - 1) (cs.drop 1)).getD (n + 1)

/-- The first line of a text, with its line feed if it has one. -/
def firstLine : List Char → List Char
  | [] => []
  | '\n' :: _ => ['\n']
  | c :: cs => c :: firstLine cs

/-- Whether a line has its line feed; only the last line of a text lacks one, and may be empty. -/
def isEnded (line : List Char) : Bool := line.getLast? = some '\n'

theorem length_firstLine_pos {c : Char} {cs : List Char} : 0 < (firstLine (c :: cs)).length := by
  unfold firstLine
  split <;> simp_all

/-- What follows a line with its line feed is less than the whole. -/
theorem length_drop_firstLine_lt {cs : List Char} (h : isEnded (firstLine cs) = true) :
    (cs.drop (firstLine cs).length).length < cs.length := by
  cases cs with
  | nil => simp [firstLine, isEnded] at h
  | cons c cs =>
    have := @length_firstLine_pos c cs
    rw [List.length_drop, List.length_cons]
    omega

/-- The lines at the start of a text that satisfy a condition. -/
def linesWhile (p : List Char → Bool) (cs : List Char) : List (List Char) :=
  let line := firstLine cs
  if !p line then []
  else if _h : isEnded line then line :: linesWhile p (cs.drop line.length)
  else [line]
termination_by cs.length
decreasing_by exact length_drop_firstLine_lt _h

/-- A line of spaces, with or without its line end. -/
def isSpaceLine (line : List Char) : Bool :=
  match line.dropWhile (· == ' ') with
  | [] | ['\n'] | ['\r'] | ['\r', '\n'] => true
  | _ => false

/-- The spaces at the start of a line. -/
def indentOf (line : List Char) : Nat := (line.takeWhile (· == ' ')).length

/-- What the header of a block scalar says about where it ends. -/
structure BlockEnd where
  /-- The indentation that the header gives, less one. -/
  indent : Option Nat := none
  /-- Whether trailing blank lines belong to the scalar. -/
  keep : Bool := false

/-- Reads the characters after the `|` or `>` of a block scalar. -/
def BlockEnd.ofHeader (header : BlockEnd) : List Char → BlockEnd
  | '+' :: cs => BlockEnd.ofHeader { header with keep := true } cs
  | '-' :: cs => BlockEnd.ofHeader header cs
  | c :: cs =>
    if '1' ≤ c && c ≤ '9' then BlockEnd.ofHeader { header with indent := some (c.toNat - 49) } cs
    else header
  | [] => header

/-- The lines without the blank ones at the end that are indented no more than `indent`; the first
line stays. -/
def dropTrailing (indent : Nat) (taken : List (List Char)) : List (List Char) :=
  match taken with
  | [] => []
  | first :: more =>
    first :: (more.reverse.dropWhile fun line => isSpaceLine line && indentOf line ≤ indent).reverse

/-- The length of the body of a block scalar, and the indentation that the lines after it are
compared with. Lines that start with a tab after the body are taken into it, where they are found to
be indented too little. -/
def blockBody (blockEnd : BlockEnd) (nextIndent : Nat) (cs : List Char) : Nat × Nat :=
  let size (ls : List (List Char)) : Nat := ls.flatten.length
  let blank := linesWhile (fun line => isSpaceLine line && isEnded line) cs
  let more := cs.drop (size blank)
  let indent := indentOf more
  let next := match blockEnd.indent with
    | none => indent
    | some n => n + (if nextIndent = 0 then 1 else nextIndent)
  let (taken, next) :=
    if nextIndent ≤ indent then
      (blank ++ linesWhile (fun line => (continued? next line).isSome) more, next)
    else (blank, nextIndent)
  let after := cs.drop (size taken)
  let tabbed := after.dropWhile (· == ' ')
  if tabbed.head? = some '\t' then
    let tail := tabbed.takeWhile fun c => c == '\t' || c == ' ' || c == '\r' || c == '\n'
    (size taken + indentOf after + tail.length, next)
  else if blockEnd.keep then (size taken, next)
  else (size (dropTrailing indent taken), next)

namespace Cursor

/-- The length of a tag, the text starting after the exclamation mark, which counts as well. -/
def tagLength : List Char → Nat
  | '<' :: rest =>
    let inside := rest.takeWhile fun x => !isGapOrEnd (some x) && x != '>'
    let closed := (rest.drop inside.length).head? = some '>'
    inside.length + (if closed then 2 else 1) + 1
  | rest => named rest + 1
where
  /-- How many characters of a tag follow, a percent sign counting with its two digits. -/
  named : List Char → Nat
    | '%' :: a :: b :: cs =>
      if (isHex a) && (isHex b) then named cs + 3 else 0
    | c :: cs => if isTagChar c then named cs + 1 else 0
    | [] => 0
  isHex (c : Char) : Bool := c.isDigit || ('a' ≤ c && c ≤ 'f') || ('A' ≤ c && c ≤ 'F')

theorem tagLength_pos (cs : List Char) : 0 < tagLength cs := by
  unfold tagLength
  split <;> exact Nat.succ_pos _

/-- What an indicator before a node changes: in block content the indentation that continuation
lines need. -/
def atIndicator (c : Cursor) : Cursor :=
  if c.flowLevel = 0 then { c with nextIndent := c.lineIndent + 1 }
  else { c with afterFlowKey := false }

@[simp] theorem rest_atIndicator (c : Cursor) : c.atIndicator.rest = c.rest := by
  unfold atIndicator
  split <;> rfl

/-- Takes the tags, anchors and misplaced indicators before a node, with the gaps after them. -/
def properties (c : Cursor) : Cursor :=
  match h : c.rest with
  | '!' :: rest => (c.take (tagLength rest)).gap.properties
  | '&' :: rest => (c.take ((rest.takeWhile isAnchorChar).length + 1)).gap.properties
  | x :: rest =>
    let inFlow := c.flowLevel ≠ 0
    let apart := isGapOrEnd rest.head? || (inFlow && rest.head?.any isFlowIndicator)
    if (x = '-' || x = '?' || x = ':') && apart then (c.atIndicator.take 1).gap.properties else c
  | [] => c
termination_by c.rest.length
decreasing_by
  · exact length_gap_take_lt (tagLength_pos rest) (by simp [h])
  · exact length_gap_take_lt (Nat.succ_pos _) (by simp [h])
  · rw [← rest_atIndicator c]
    exact length_gap_take_lt Nat.one_pos (by simp [h])

/-- Takes the body of a block scalar whose header has been taken. -/
def blockScalar (c : Cursor) (blockEnd : BlockEnd) : Cursor :=
  let (n, next) := blockBody blockEnd c.nextIndent c.rest
  { c with nextIndent := next }.takePlain n

def plainScalar (c : Cursor) : Cursor :=
  c.takePlain (plainLength (c.flowLevel ≠ 0) c.nextIndent none 0 0 c.rest)

/-- Takes line ends and gaps inside a flow collection; the indentation of the last line that was
begun is kept. -/
def flowGap (c : Cursor) (indent : Option Nat) : Cursor × Option Nat :=
  match _h : c.rest with
  | '\n' :: rest | '\r' :: '\n' :: rest =>
    let n := (rest.takeWhile (· == ' ')).length
    flowGap { c.lineEnd.spaces.gap with lineIndent := n } (some n)
  | ' ' :: _ | '\t' :: _ => c.gap.flowGap indent
  | _ => (c, indent)
termination_by c.rest.length
decreasing_by
  · exact length_gap_line_lt (by simp [_h, atLineEnd]) (by simp [_h])
  · exact length_gap_line_lt (by simp [_h, atLineEnd]) (by simp [_h])
  · exact length_takeWhile_lt _h rfl
  · exact length_takeWhile_lt _h rfl

/-- Takes the commas at the start of a line's part, with the gaps after them. -/
def commas (c : Cursor) : Cursor :=
  match _h : c.rest with
  | ',' :: _ => commas { (c.take 1).gap with afterFlowKey := false }
  | _ => c
termination_by c.rest.length
decreasing_by exact length_gap_take_lt Nat.one_pos (by simp [_h])

/-- One step between documents. -/
def stepBetween (c : Cursor) : Place × Cursor :=
  let c := if c.rest.head? = some '\ufeff' then c.take 1 else c
  if c.rest.head? = some '%' then
    let line := c.rest.take (lineLength c.rest)
    let c := (c.take (directiveLength line)).gap.restOfLine
    (.betweenDocuments, c.lineEnd)
  else if atLineEnd (c.rest.dropWhile fun x => x == ' ' || x == '\t')
      || (c.rest.dropWhile fun x => x == ' ' || x == '\t').head? = some '#' then
    (.betweenDocuments, c.gap.restOfLine.lineEnd)
  else (.lineStart, c.mark .contentStart)
where
  /-- The length of a directive without its comment and the gap before it. -/
  directiveLength (line : List Char) : Nat :=
    let body := untilComment line
    (body.reverse.dropWhile fun x => x == ' ' || x == '\t').length
  /-- The line up to a number sign that stands after a gap. -/
  untilComment : List Char → List Char
    | ' ' :: '#' :: _ | '\t' :: '#' :: _ | [] => []
    | x :: xs => x :: untilComment xs

/-- One step at the start of a line. -/
def stepLineStart (c : Cursor) : Place × Cursor :=
  if atDocumentMarker c.rest then
    let place := if c.rest.head? = some '-' then Place.content else .betweenDocuments
    (place, { c.take 3 with lineIndent := 0, nextIndent := 0 })
  else
    let n := (c.rest.takeWhile (· == ' ')).length
    let c := { c.spaces with lineIndent := n }
    let c :=
      if n < c.nextIndent && !isGapOrEnd (c.rest.drop 1).head? then { c with nextIndent := n }
      else c
    (.blockStart, c)

/-- One step where an entry, an explicit key or a value may begin. -/
def stepBlockStart (c : Cursor) : Place × Cursor :=
  match c.rest with
  | x :: rest =>
    if (x = '-' || x = '?' || x = ':') && isGapOrEnd rest.head? then
      let gapLength := (rest.takeWhile fun y => y == ' ' || y == '\t').length
      (.blockStart, { (c.take 1).gap with
        nextIndent := c.lineIndent + 1, lineIndent := c.lineIndent + 1 + gapLength })
    else (.content, c)
  | [] => (.content, c)

/-- One step in the block content of a document. -/
def stepContent (c : Cursor) : Place × Cursor :=
  let c := c.gap.properties
  if atLineEnd c.rest then (.lineStart, c.lineEnd)
  else
    match c.rest with
    | '#' :: _ => (.lineStart, c.restOfLine.lineEnd)
    | '\x7b' :: _ | '[' :: _ => (.flow, { c.take 1 with afterFlowKey := false, flowLevel := 1 })
    | '\x7d' :: _ | ']' :: _ => (.content, c.take 1)
    | '*' :: _ => (.content, c.takeWhile isAnchorChar)
    | '"' :: _ | '\'' :: _ => (.content, c.take (quotedLength c.nextIndent c.rest))
    | '|' :: header | '>' :: header =>
      let blockEnd := BlockEnd.ofHeader {} header
      let c := c.takeWhile fun x => !isGapOrEnd (some x) && x != '#'
      (.lineStart, c.gap.restOfLine.lineEnd.blockScalar blockEnd)
    | _ => (.content, c.plainScalar)

/-- One step in a flow collection. -/
def stepFlow (c : Cursor) : Place × Cursor :=
  let (c, indent) := c.flowGap none
  let head := c.rest.head?
  let outdented := match indent with
    | none => false
    | some n => (n < c.nextIndent && head ≠ some '#') || (n = 0 && atDocumentMarker c.rest)
  let closesHere := indent.any (· + 1 = c.nextIndent) && c.flowLevel = 1 &&
    (head = some ']' || head = some '\x7d')
  if outdented && !closesHere then (.lineStart, { c with flowLevel := 0 }.mark .flowCut)
  else
    let c := c.commas.properties
    if atLineEnd c.rest then (.flow, c)
    else
      match c.rest with
      | '#' :: _ => (.flow, c.restOfLine)
      | '\x7b' :: _ | '[' :: _ =>
        (.flow, { c.take 1 with afterFlowKey := false, flowLevel := c.flowLevel + 1 })
      | '\x7d' :: _ | ']' :: _ =>
        (if c.flowLevel ≤ 1 then .content else .flow,
          { c.take 1 with afterFlowKey := true, flowLevel := c.flowLevel - 1 })
      | '*' :: _ => (.flow, c.takeWhile isAnchorChar)
      | '"' :: _ | '\'' :: _ =>
        (.flow, { c.take (quotedLength c.nextIndent c.rest) with afterFlowKey := true })
      | ':' :: rest =>
        if c.afterFlowKey || isGapOrEnd rest.head? || rest.head? = some ',' then
          (.flow, ({ c with afterFlowKey := false }.take 1).gap)
        else (.flow, { c with afterFlowKey := false }.plainScalar)
      | _ => (.flow, { c with afterFlowKey := false }.plainScalar)

def step : Place → Cursor → Place × Cursor
  | .betweenDocuments => stepBetween
  | .lineStart => stepLineStart
  | .blockStart => stepBlockStart
  | .content => stepContent
  | .flow => stepFlow

/-- Steps until the text is used up. -/
def run : (fuel : Nat) → Place → Cursor → Cursor
  | 0, _, c => c
  | fuel + 1, place, c =>
    if c.rest.isEmpty then c
    else
      let (place, c) := step place c
      run fuel place c

end Cursor

/-- The lexemes of a text. A place that takes no text leads within three steps to one that does. -/
def Lexeme.stream (cs : List Char) : List Lexeme :=
  (Cursor.run (4 * cs.length + 4) .betweenDocuments ⟨cs, [], 0, 0, 0, false⟩).lexemes.reverse

end ApiReport.Yaml
