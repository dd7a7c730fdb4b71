import ApiReport.Text.Pieces
import ApiReport.Text.Units
import ApiReport.Value.Json

/-!
# Texts of scalars

What the characters of a scalar stand for: folded lines, quotes written twice, escapes, and the
lines of literal and folded block scalars.

Key definitions: `foldLines`, `singleQuoted?`, `doubleQuoted?`, `BlockHeader`, `blockText?`.
-/
namespace ApiReport.Yaml

/-- Spaces and tabs. -/
def isGap (c : Char) : Bool := c == ' ' || c == '\t'

/-- A line without spaces and tabs at its end. -/
def trimGapEnd (cs : List Char) : List Char := (cs.reverse.dropWhile isGap).reverse

/-- The lines after the first, folded: `blank` tells that the lines since the last content are
blank, so that each further one is a line feed. -/
def foldRest (blank : Bool) : List (List Char) → List Char
  | [] => []
  | [last] => (if blank then '\n' else ' ') :: last.dropWhile isGap
  | line :: rest =>
    match trimGapEnd ((Text.dropReturn line).dropWhile isGap) with
    | [] => if blank then '\n' :: foldRest true rest else foldRest true rest
    | content => (if blank then '\n' else ' ') :: content ++ foldRest false rest

/-- A scalar of several lines as one: a line end is a space, `n` blank lines are `n` line feeds, and
the gaps around line ends are dropped. -/
def foldLines (cs : List Char) : List Char :=
  match Text.pieces '\n' cs with
  | first :: next :: rest => trimGapEnd (Text.dropReturn first) ++ foldRest false (next :: rest)
  | _ => cs

/-- A text with each doubled single quote halved. -/
def halveQuotes : List Char → List Char
  | '\'' :: '\'' :: cs => '\'' :: halveQuotes cs
  | c :: cs => c :: halveQuotes cs
  | [] => []

/-- What a single-quoted scalar stands for, if it is closed. -/
def singleQuoted? (cs : List Char) : Option (List Char) :=
  if 1 < cs.length && cs.getLast? = some '\'' then
    some (halveQuotes (foldLines (cs.drop 1).dropLast))
  else none

/-- The character that a letter stands for after a reverse solidus in a double-quoted scalar. -/
def escape? : Char → Option Nat
  | '0' => some 0
  | 'a' => some 7
  | 'b' => some 8
  | 'e' => some 0x1b
  | 'f' => some 12
  | 'n' => some 10
  | 'r' => some 13
  | 't' | '\t' => some 9
  | 'v' => some 11
  | 'N' => some 0x85
  | '_' => some 0xa0
  | 'L' => some 0x2028
  | 'P' => some 0x2029
  | ' ' => some 32
  | '"' => some 34
  | '/' => some 47
  | '\\' => some 92
  | _ => none

/-- What has been begun in a double-quoted scalar and is not decided yet: nothing, a gap that may
stand before a line end, line ends to be folded, the indentation after an escaped line end, an
escape, or an escape by `digits` hexadecimal digits. -/
inductive QuoteState where
  | text
  | gap (seen : List Char)
  | folding (blank : Nat)
  | indentation
  | escape
  | code (digits n : Nat)

/-- What an undecided part stands for when content follows it. -/
def QuoteState.settled : QuoteState → List Nat
  | .gap seen => seen.reverse.map Char.toNat
  | .folding 0 => [32]
  | .folding n => List.replicate n 10
  | _ => []

/-- The units of a double-quoted scalar, quotes excluded; `none` if an escape is not known. -/
def quoteBody : QuoteState → List Char → Option (List Nat)
  | .escape, [] => some [34]
  | .code _ _, [] => none
  | st, [] => some st.settled
  | .escape, c :: cs =>
    if c = '\n' then quoteBody .indentation cs
    else if c = '\r' && cs.head? = some '\n' then quoteBody .escape cs
    else if c = 'x' then quoteBody (.code 2 0) cs
    else if c = 'u' then quoteBody (.code 4 0) cs
    else if c = 'U' then quoteBody (.code 8 0) cs
    else
      match escape? c with
      | some n => (quoteBody .text cs).map (n :: ·)
      | none => none
  | .code digits n, c :: cs =>
    match Json.hexDigit? c with
    | none => none
    | some d =>
      let n := 16 * n + d
      if 1 < digits then quoteBody (.code (digits - 1) n) cs
      else if 0x10FFFF < n then none
      else (quoteBody .text cs).map (n :: ·)
  | st, c :: cs =>
    if isGap c then
      match st with
      | .gap seen => quoteBody (.gap (c :: seen)) cs
      | .text => quoteBody (.gap [c]) cs
      | st => quoteBody st cs
    else if c = '\n' then
      match st with
      | .folding n => quoteBody (.folding (n + 1)) cs
      | _ => quoteBody (.folding 0) cs
    else if c = '\r' && cs.head? = some '\n' then
      match st with
      | .folding n => quoteBody (.folding n) cs
      | _ => quoteBody .text cs
    else if c = '\\' then (quoteBody .escape cs).map (st.settled ++ ·)
    else (quoteBody .text cs).map (st.settled ++ c.toNat :: ·)

/-- What a double-quoted scalar stands for, if it is closed and its escapes are known. -/
def doubleQuoted? (cs : List Char) : Option (List Char) :=
  if 1 < cs.length && cs.getLast? = some '"' then
    (quoteBody .text (cs.drop 1).dropLast).map Text.ofCodes
  else none

/-- What becomes of the line ends at the end of a block scalar. -/
inductive Chomping where
  | strip
  | clip
  | keep
  deriving DecidableEq, Repr

/-- The header of a block scalar. -/
structure BlockHeader where
  folded : Bool
  indent : Nat := 0
  chomping : Option Chomping := none

/-- Reads the characters of a header after its first: at most one sign and one digit from 1 to 9. -/
def BlockHeader.read? (h : BlockHeader) : List Char → Option BlockHeader
  | [] => some h
  | c :: cs =>
    if h.chomping.isNone && c = '-' then BlockHeader.read? { h with chomping := some .strip } cs
    else if h.chomping.isNone && c = '+' then BlockHeader.read? { h with chomping := some .keep } cs
    else if h.indent = 0 && '1' ≤ c && c ≤ '9' then
      BlockHeader.read? { h with indent := c.toNat - 48 } cs
    else none

/-- A line of a block scalar: its indentation and its content. -/
structure BlockLine where
  indent : Nat
  content : List Char

/-- A line without content. -/
def BlockLine.isBlank (l : BlockLine) : Bool := l.content = [] || l.content = ['\r']

/-- The line without the first `n` spaces. -/
def BlockLine.cut (n : Nat) (l : BlockLine) : List Char :=
  List.replicate (l.indent - n) ' ' ++ Text.dropReturn l.content

/-- The lines of a folded scalar joined: lines of equal indentation by a space, lines that are
indented more and those around them by line feeds. `sep` is what stands before the next line,
`deeper` tells whether the last line with content was indented more. -/
def foldBlock (trim : Nat) : (sep : List Char) → (deeper : Bool) → List BlockLine → List Char
  | _, _, [] => []
  | sep, deeper, l :: rest =>
    let content := Text.dropReturn l.content
    if trim < l.indent || content.head? = some '\t' then
      let sep :=
        if sep = [' '] then ['\n']
        else if !deeper && sep = ['\n'] then ['\n', '\n'] else sep
      sep ++ l.cut trim ++ foldBlock trim ['\n'] true rest
    else if content = [] then
      if sep = ['\n'] then '\n' :: foldBlock trim sep deeper rest
      else foldBlock trim ['\n'] deeper rest
    else sep ++ content ++ foldBlock trim [' '] false rest

/-- The lines of a literal scalar joined by line feeds. -/
def literalBlock (trim : Nat) : (sep : List Char) → List BlockLine → List Char
  | _, [] => []
  | sep, l :: rest => sep ++ l.cut trim ++ literalBlock trim ['\n'] rest

/-- The indentation that is cut off each line, found from the blank lines before the first content
and from that content; `none` if a blank line before it is indented more, or the content too little.
-/
def blockTrim? (header : BlockHeader) (atRoot : Bool) : (trim : Nat) → List BlockLine → Option Nat
  | trim, [] => some trim
  | trim, l :: rest =>
    if l.isBlank then
      blockTrim? header atRoot (if header.indent = 0 then max trim l.indent else trim) rest
    else if l.indent < trim then none
    else
      let trim := if header.indent = 0 then l.indent else trim
      if trim = 0 && !atRoot then none else some trim

/-- What a block scalar stands for. `parent` is the indentation of the collection around it;
`atRoot` tells that there is none. `none` if a line is indented too little. -/
def blockText? (header : BlockHeader) (parent : Nat) (atRoot : Bool) (body : List Char) :
    Option (List Char) :=
  let lines : List BlockLine :=
    if body = [] then []
    else (Text.pieces '\n' body).map fun l =>
      ⟨(l.takeWhile (· == ' ')).length, l.dropWhile (· == ' ')⟩
  let trailing := (lines.reverse.takeWhile BlockLine.isBlank).length
  let chompStart := lines.length - trailing
  let chomping := header.chomping.getD .clip
  if chompStart = 0 then
    some (if chomping = .keep && lines ≠ [] then List.replicate (max 1 (lines.length - 1)) '\n'
      else [])
  else
    match blockTrim? header atRoot (parent + header.indent) (lines.take chompStart) with
    | none => none
    | some trim =>
      let blank := (lines.takeWhile BlockLine.isBlank)
      let deepTrailing :=
        ((lines.drop chompStart).reverse.dropWhile fun l => l.indent ≤ trim).length
      let chompStart := chompStart + deepTrailing
      let content := (lines.take chompStart).drop blank.length
      if content.any fun l => !(Text.dropReturn l.content).isEmpty && l.indent < trim then none
      else
        let text := blank.flatMap (fun l => List.replicate (l.indent - trim) ' ' ++ ['\n']) ++
          if header.folded then foldBlock trim [] false content else literalBlock trim [] content
        match chomping with
        | .strip => some text
        | .clip => some (text ++ ['\n'])
        | .keep =>
          let text := text ++ (lines.drop chompStart).flatMap fun l =>
            '\n' :: List.replicate (l.indent - trim) ' '
          some (if text.getLast? = some '\n' then text else text ++ ['\n'])

end ApiReport.Yaml
