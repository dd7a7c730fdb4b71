import ApiReport.Yaml.Lexeme

/-!
# Blocks

How the lexemes of a YAML stream nest: scalars and aliases with what follows them on their line,
block scalars with their header, and collections with their items. An item keeps the lexemes before
its key, those between key and value, and whether a question mark introduced it.

Key definitions: `Mark`, `Block`, `Item`.
-/
namespace ApiReport.Yaml

/-- A lexeme, the indentation at which it stands and the count of units before it. -/
structure Mark where
  kind : Kind
  text : List Char
  indent : Nat
  offset : Nat
  deriving Repr, Inhabited

mutual

/-- A block; the items of a collection stand newest first. -/
inductive Block where
  /-- An alias or a scalar on its line, and the lexemes after it. -/
  | leaf (mark : Mark) (tail : Option (List Mark))
  /-- A literal or folded scalar: its header with the lexemes after it, and its lines. -/
  | scalar (offset indent : Nat) (header : List Mark) (body : List Char)
  /-- A mapping of the block style. -/
  | mapping (offset indent : Nat) (items : List Item)
  /-- A sequence of the block style. -/
  | sequence (offset indent : Nat) (items : List Item)
  /-- A collection of the flow style: its opening bracket, and the closing one with what follows. -/
  | flow (offset indent : Nat) (opening : Mark) (items : List Item) (closing : List Mark)

/-- An item of a collection. `between` is present once the key has ended. -/
inductive Item where
  | mk (start : List Mark) (explicit : Bool) (key : Option Block) (between : Option (List Mark))
      (value : Option Block)

end

instance : Inhabited Item := ⟨.mk [] false none none none⟩

namespace Item

/-- The lexemes before the key. -/
def start : Item → List Mark
  | .mk s _ _ _ _ => s

/-- Whether a question mark introduced the item. -/
def explicit : Item → Bool
  | .mk _ e _ _ _ => e

/-- The key, if it is not empty. -/
def key : Item → Option Block
  | .mk _ _ k _ _ => k

/-- The lexemes between key and value, once the key has ended. -/
def between : Item → Option (List Mark)
  | .mk _ _ _ b _ => b

/-- The value, if it has begun. -/
def value : Item → Option Block
  | .mk _ _ _ _ v => v

/-- An item that has only begun. -/
def begun (start : List Mark) : Item := .mk start false none none none

/-- An item that a question mark, the last of the lexemes, has introduced. -/
def asked (start : List Mark) : Item := .mk start true none none none

/-- An item whose key has ended. -/
def keyed (start : List Mark) (key : Option Block) (between : List Mark) : Item :=
  .mk start false key (some between) none

/-- The item with one more lexeme before its key. -/
def addStart (m : Mark) : Item → Item
  | .mk s e k b v => .mk (s ++ [m]) e k b v

/-- The item with one more lexeme between key and value. -/
def addBetween (m : Mark) : Item → Item
  | .mk s e k b v => .mk s e k (some (b.getD [] ++ [m])) v

/-- The item with its key. -/
def setKey (key : Option Block) (between : List Mark) : Item → Item
  | .mk s e _ _ v => .mk s e key (some between) v

/-- The item with its value. -/
def setValue (value : Block) : Item → Item
  | .mk s e k b _ => .mk s e k b (some value)

/-- The item with other lexemes between key and value. -/
def setBetween (between : List Mark) : Item → Item
  | .mk s e k _ v => .mk s e k (some between) v

/-- The item with other lexemes before its key. -/
def setStart (start : List Mark) : Item → Item
  | .mk _ e k b v => .mk start e k b v

/-- The item marked as introduced by a question mark. -/
def setExplicit : Item → Item
  | .mk s _ k b v => .mk s true k b v

/-- The item without its key and what follows it. -/
def dropKey : Item → Item
  | .mk s e _ _ v => .mk s e none none v

end Item

namespace Block

/-- The indentation at which a block begins. -/
def indent : Block → Nat
  | .leaf m _ => m.indent
  | .scalar _ i _ _ => i
  | .mapping _ i _ => i
  | .sequence _ i _ => i
  | .flow _ i _ _ _ => i

/-- The lexemes after a block, where it can have such. -/
def tail? : Block → Option (List Mark)
  | .leaf _ tail => tail
  | .flow _ _ _ _ closing => some closing
  | _ => none

/-- The block with another tail, where it can have one. -/
def setTail (tail : List Mark) : Block → Block
  | .leaf m _ => .leaf m (some tail)
  | .flow o i opening items _ => .flow o i opening items tail
  | b => b

/-- Blocks that may stand as a key in front of a colon. -/
def isInline : Block → Bool
  | .leaf _ _ | .flow _ _ _ _ _ => true
  | _ => false

/-- Collections of the block style. -/
def isBlockCollection : Block → Bool
  | .mapping _ _ _ | .sequence _ _ _ => true
  | _ => false

end Block

end ApiReport.Yaml
