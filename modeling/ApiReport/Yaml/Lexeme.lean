/-!
# Lexemes of a YAML text

The smallest pieces of a YAML stream: indicators, properties, scalars, gaps, comments and line ends.
Two kinds have no text: the mark where the bare content of a document begins, and the mark where a
flow collection is cut short by its indentation.

Key definitions: `Kind`, `Lexeme`, `Kind.ofText`.
-/
namespace ApiReport.Yaml

/-- What a lexeme is. -/
inductive Kind where
  | byteOrderMark
  | contentStart
  | documentStart
  | documentEnd
  | directive
  | lineEnd
  | gap
  | comment
  | entryMark
  | keyMark
  | valueMark
  | mapOpen
  | mapClose
  | listOpen
  | listClose
  | comma
  | flowCut
  | alias
  | anchor
  | tag
  | plain
  | singleQuoted
  | doubleQuoted
  | blockHeader
  | unknown
  deriving DecidableEq, Repr, Inhabited

/-- A piece of the text and what it is. -/
structure Lexeme where
  kind : Kind
  text : List Char
  deriving Repr

/-- The kind of a piece that is no plain scalar, told by its first characters. -/
def Kind.ofText : List Char → Kind
  | ['\ufeff'] => .byteOrderMark
  | ['-', '-', '-'] => .documentStart
  | ['.', '.', '.'] => .documentEnd
  | ['\n'] | ['\r', '\n'] => .lineEnd
  | ['-'] => .entryMark
  | ['?'] => .keyMark
  | [':'] => .valueMark
  | ['\x7b'] => .mapOpen
  | ['\x7d'] => .mapClose
  | ['['] => .listOpen
  | [']'] => .listClose
  | [','] => .comma
  | ' ' :: _ | '\t' :: _ => .gap
  | '#' :: _ => .comment
  | '%' :: _ => .directive
  | '*' :: _ => .alias
  | '&' :: _ => .anchor
  | '!' :: _ => .tag
  | '\'' :: _ => .singleQuoted
  | '"' :: _ => .doubleQuoted
  | '|' :: _ | '>' :: _ => .blockHeader
  | _ => .unknown

/-- White space and the end of the text. -/
def isGapOrEnd : Option Char → Bool
  | none | some ' ' | some '\t' | some '\n' | some '\r' => true
  | _ => false

/-- The indicators that end a plain scalar inside a flow collection. -/
def isFlowIndicator (c : Char) : Bool :=
  c == ',' || c == '[' || c == ']' || c == '\x7b' || c == '\x7d'

/-- A character that may stand in the name of an anchor. -/
def isAnchorChar (c : Char) : Bool :=
  !(isFlowIndicator c || c == ' ' || c == '\t' || c == '\n' || c == '\r')

/-- A character that may stand in a tag without being escaped. -/
def isTagChar (c : Char) : Bool :=
  c.isAlphanum || "-#;/?:@&=+$_.!~*'()".toList.contains c

/-- Whether the text is at the end of a line. -/
def atLineEnd : List Char → Bool
  | [] | '\n' :: _ | '\r' :: '\n' :: _ => true
  | _ => false

/-- How many characters stand before the end of the line. -/
def lineLength : List Char → Nat
  | [] | '\n' :: _ | '\r' :: '\n' :: _ => 0
  | _ :: rest => lineLength rest + 1

/-- Whether a line starts with a marker between documents. -/
def atDocumentMarker : List Char → Bool
  | '-' :: '-' :: '-' :: rest | '.' :: '.' :: '.' :: rest => isGapOrEnd rest.head?
  | _ => false

end ApiReport.Yaml
