import ApiReport.Value.Json
import ApiReport.Yaml.Node

/-!
# Keys as text

An entry is kept under a text. A scalar key gives the text of what it denotes, null the empty text;
an alias gives its own form. A key that is a collection is written in the flow style: on one line if
that takes no more than 80 units, else one item a line, two columns deeper than the brackets. Its
scalars keep the style of the source where that reads back as the same value in the flow style.
Scalar keys that a tag makes an instant, octets or a merge are not covered, and refused.

Key definitions: `Scalar.flowText`, `Node.flowText`, `Node.keyText`.
-/
namespace ApiReport.Yaml

/-- The short tag of a full tag. -/
def shortTag (tag : String) : String :=
  let start := coreTag ""
  if start.toList.isPrefixOf tag.toList then
    "!!" ++ String.ofList (tag.toList.drop start.length)
  else if ['!'].isPrefixOf tag.toList then tag
  else "!<" ++ tag ++ ">"

/-- The anchor and the tag before a node, each followed by a space. -/
def Label.text (l : Label) : String :=
  let parts := l.anchor.toList.map ("&" ++ ·) ++ l.tag.toList.map shortTag
  String.join (parts.map (· ++ " "))

namespace Scalar

/-- A character inside double quotes. -/
def escapedChar (c : Char) : List Char :=
  match c with
  | '\x00' => ['\\', '0']
  | '\x07' => ['\\', 'a']
  | '\x0b' => ['\\', 'v']
  | '\x1b' => ['\\', 'e']
  | c =>
    match Json.writeChar c with
    | '\\' :: 'u' :: '0' :: '0' :: code => '\\' :: 'x' :: code
    | cs => cs

/-- A text without the quotes in double quotes; a space before a line end is escaped. -/
def escapedText : List Char → List Char
  | [] => []
  | ' ' :: '\n' :: cs => '\\' :: ' ' :: escapedText ('\n' :: cs)
  | c :: cs => escapedChar c ++ escapedText cs

def inDoubleQuotes (cs : List Char) : List Char := '"' :: escapedText cs ++ ['"']

/-- A text with each run of line ends followed by one more and the indentation, so that folding
gives the text back. -/
def unfolded (indent : Nat) : List Char → List Char
  | [] => []
  | '\n' :: '\n' :: cs => '\n' :: unfolded indent ('\n' :: cs)
  | '\n' :: cs => '\n' :: '\n' :: List.replicate indent ' ' ++ unfolded indent cs
  | c :: cs => c :: unfolded indent cs

/-- Whether two neighbouring characters satisfy a condition somewhere in a text. -/
def hasPair (p : Char → Char → Bool) : List Char → Bool
  | a :: b :: cs => p a b || hasPair p (b :: cs)
  | _ => false

/-- Whether a character is a space or a tab. -/
def isGapChar (c : Char) : Bool := c == ' ' || c == '\t'

/-- A text in single quotes, or in double ones where line ends would be lost. -/
def inSingleQuotes (indent : Nat) (implicitKey : Bool) (cs : List Char) : List Char :=
  if (implicitKey && cs.contains '\n') ||
      hasPair (fun a b => (isGapChar a && b == '\n') || (a == '\n' && isGapChar b)) cs then
    inDoubleQuotes cs
  else
    '\'' :: unfolded indent (cs.flatMap fun c => if c == '\'' then ['\'', '\''] else [c]) ++ ['\'']

/-- A text in quotes of the kind that it does not hold itself, double ones if there is a choice. -/
def inQuotes (indent : Nat) (implicitKey : Bool) (cs : List Char) : List Char :=
  if cs.contains '"' && !cs.contains '\'' then inSingleQuotes indent implicitKey cs
  else inDoubleQuotes cs

/-- Whether a text begins like something other than a plain scalar. -/
def startsLikeIndicator : List Char → Bool
  | [] => false
  | c :: cs =>
    "\n\t ,[]\x7b\x7d#&*!|>'\"%@\x60".toList.contains c ||
      ((c == '?' || c == '-') && cs.head?.all isGapChar)

/-- Whether a text written plain would be taken for something else, or its ends be lost. -/
def needsQuotes (cs : List Char) : Bool :=
  startsLikeIndicator cs ||
    hasPair (fun a b => ((a == '\n' || a == ':') && isGapChar b) || (isGapChar a && b == '\n') ||
      ((a == '\n' || isGapChar a) && b == '#')) cs ||
    cs.getLast?.any fun c => "\n\t :-".toList.contains c

/-- Whether a text is safe as a plain scalar in a flow collection. -/
def isPlain (implicitKey : Bool) (cs : List Char) : Bool :=
  !(implicitKey && cs.contains '\n') && !(cs.any fun c => "[]\x7b\x7d,".toList.contains c) &&
    !needsQuotes cs &&
    match plainValue (String.ofList cs) with
    | .text _ => true
    | _ => false

/-- Whether a character can only be written as an escape. -/
def isControl (c : Char) : Bool :=
  (c.toNat < 0x20 && c != '\t' && c != '\n') || (0x7f ≤ c.toNat && c.toNat < 0xa0)

/-- A text in the flow style. -/
def quotedText (indent : Nat) (implicitKey : Bool) (style : Style) (cs : List Char) : List Char :=
  if cs.any isControl then inDoubleQuotes cs
  else
    match style with
    | .doubleQuoted => inDoubleQuotes cs
    | .singleQuoted => inSingleQuotes indent implicitKey cs
    | .block => inQuotes indent implicitKey cs
    | .plain =>
      if !isPlain implicitKey cs then inQuotes indent implicitKey cs
      else unfolded indent cs

/-- The digits of a whole number in a base. -/
def baseDigits (base m : Nat) (e : Int) : String :=
  let (num, den) := Number.fraction m e
  String.ofList (Nat.toDigits base (num / den))

/-- A decimal number with at least as many places after the point as it was written with, if it was
written with a zero at the end of a fraction. -/
def withPlaces (written text : List Char) : List Char :=
  let fraction (cs : List Char) : List Char := (cs.dropWhile (· != '.')).drop 1
  if written.contains '.' && written.getLast? = some '0' && !text.contains 'e' then
    let pointed := if text.contains '.' then text else text ++ ['.']
    pointed ++ List.replicate ((fraction written).length - (fraction text).length) '0'
  else text

/-- A number in the notation that it was written in. -/
def numberText (written : List Char) : Number → String
  | .nan => ".nan"
  | .infinity negative => if negative then "-.inf" else ".inf"
  | .finite negative m e =>
    let sign := if negative && m ≠ 0 then "-" else ""
    match written with
    | '0' :: 'x' :: _ => "0x" ++ baseDigits 16 m e
    | '0' :: 'o' :: _ => "0o" ++ baseDigits 8 m e
    | _ =>
      if written.any fun c => c == 'e' || c == 'E' then
        let (ds, point) := if m = 0 then (['0'], 1) else Number.digits m e
        sign ++ String.ofList (Number.scientific ds point)
      else
        let text := if negative && m = 0 then "-0" else Number.text (.finite negative m e)
        String.ofList (withPlaces written text.toList)

/-- A scalar in the flow style. -/
def flowText (indent : Nat) (implicitKey : Bool) (style : Style) (cs : List Char) : Value → String
  | .null | .bool _ => String.ofList cs
  | .number n => numberText cs n
  | _ => String.ofList (quotedText indent implicitKey style cs)

end Scalar

/-- Items between brackets, on one line if it is not too long. -/
def bracketed (indent : Nat) (opening closing : String) (items : List String) : String :=
  let lines := (items.dropLast.map (· ++ ",")) ++ items.getLast?.toList
  let units := lines.foldl (fun n line => n + Text.unitCount line.toList + 2) 2
  if items = [] then opening ++ closing
  else if lines.any (fun line => line.toList.contains '\n') || 80 < units then
    let margin := "".pushn ' ' indent
    let line (s : String) : String := if s = "" then "\n" else "\n  " ++ margin ++ s
    opening ++ String.join (lines.map line) ++ "\n" ++ margin ++ closing
  else opening ++ " " ++ " ".intercalate lines ++ " " ++ closing

/-- Whether a key is written after a question mark. -/
def Node.isExplicitKey : Node → Bool
  | .scalar _ style _ _ => style = .block
  | _ => true

/-- The label of a collection: its kind stands for the tag mark without a name. -/
def Label.ofKind (kind : String) (l : Label) : Label :=
  { l with tag := l.tag.map fun tag => if tag = "!" then coreTag kind else tag }

/-- The anchor and the tag of a node; an alias has none. -/
def Node.label : Node → Label
  | .alias _ => {}
  | .scalar label _ _ _ => label
  | .mapping label _ => label.ofKind "map"
  | .sequence label _ | .pairs label _ => label.ofKind "seq"

/-- Whether a node is a list or a mapping. -/
def Node.isCollection : Node → Bool
  | .mapping _ _ | .sequence _ _ | .pairs _ _ => true
  | _ => false

/-- An entry without a value, from its key. -/
def keyOnly (isExplicit : Bool) (key : String) : String :=
  if key = "" then "?" else if isExplicit then "? " ++ key else key

/-- An entry from its key and its value; a value that is a collection of several lines begins a new
line. -/
def keyAndValue (indent : Nat) (isExplicit isCollection : Bool) (key value : String) : String :=
  let margin := "".pushn ' ' indent
  let start := if isExplicit then "? " ++ key ++ "\n" ++ margin ++ ":" else key ++ ":"
  if !isExplicit && isCollection then
    if value.toList.contains '\n' then start ++ "\n" ++ margin ++ "  " ++ value
    else start ++ " " ++ value
  else if value = "" || value.toList.head? = some '\n' then start ++ value
  else start ++ " " ++ value

mutual

/-- A node in the flow style, without its anchor and its tag. -/
def Node.flowText (indent : Nat) (implicitKey : Bool) : Node → String
  | .alias name => "*" ++ name
  | .scalar _ style text v => Scalar.flowText indent implicitKey style text v
  | .sequence _ items => bracketed indent "[" "]" (flowTexts (indent + 2) items)
  | .pairs _ entries => bracketed indent "[" "]" (flowEntryTexts (indent + 2) false entries)
  | .mapping _ entries =>
    bracketed indent "\x7b" "\x7d"
      (flowEntryTexts (indent + 2) (entries.all fun e => e.2.isNone) entries)

/-- The items of a list in the flow style. -/
def flowTexts (indent : Nat) : List Node → List String
  | [] => []
  | node :: rest =>
    (node.label.text ++ node.flowText indent false) :: flowTexts indent rest

/-- The entries of a mapping in the flow style. -/
def flowEntryTexts (indent : Nat) (keysOnly : Bool) : List (Node × Option Node) → List String
  | [] => []
  | (key, none) :: rest =>
    let isExplicit := key.isExplicitKey
    let text := key.flowText (indent + 2) (!isExplicit && !keysOnly)
    keyOnly isExplicit (key.label.text ++ text) :: flowEntryTexts indent keysOnly rest
  | (key, some value) :: rest =>
    let isExplicit := key.isExplicitKey
    let text := key.label.text ++ key.flowText (indent + 2) (!isExplicit)
    let valueText := value.label.text ++ value.flowText (indent + 2) false
    keyAndValue indent isExplicit value.isCollection text valueText ::
      flowEntryTexts indent keysOnly rest

end

/-- The text under which an entry is kept, from what its key denotes. -/
def Node.keyText (key : Node) (v : Value) : Except Fault String :=
  match key, v with
  | .scalar .., .special _ | .scalar .., .mapping _ =>
    .error ⟨"keys that are instants, octets or merges are not read", 0⟩
  | _, .null => .ok ""
  | _, .list _ | _, .mapping _ | _, .special _ => .ok (key.flowText 0 false)
  | _, v => .ok v.display

end ApiReport.Yaml
