/-!
# Text measured and ordered in 16-bit units

A character up to U+FFFF is one unit, any other character is a pair of surrogate units. Texts are
ordered by their units, which differs from the order of code points: U+1F600 starts with the unit
D83D and so stands before U+FFEE.

Key definitions: `units`, `unitsOf`, `lexLE`, `unitsLE`, `insertByKey`, `sortByKey`, `ofCodes`.
-/
namespace ApiReport.Text

def units (c : Char) : List Nat :=
  let n := c.toNat
  if n < 0x10000 then [n]
  else [0xD800 + (n - 0x10000) / 0x400, 0xDC00 + (n - 0x10000) % 0x400]

/-- The units of a text, in order. -/
def unitsOf (s : String) : List Nat := s.toList.flatMap units

/-- A code point that is no surrogate. -/
def isScalar (n : Nat) : Bool := n < 0xD800 || (0xDFFF < n && n < 0x110000)

/-- The text of a sequence of code points or units: a high and a low surrogate next to each other
are one character, a surrogate that stands alone is replaced by U+FFFD. -/
def ofCodes : List Nat → List Char
  | [] => []
  | [n] => [if isScalar n then Char.ofNat n else '\ufffd']
  | n :: m :: rest =>
    if 0xD800 ≤ n && n ≤ 0xDBFF && 0xDC00 ≤ m && m ≤ 0xDFFF then
      Char.ofNat (0x10000 + (n - 0xD800) * 0x400 + (m - 0xDC00)) :: ofCodes rest
    else (if isScalar n then Char.ofNat n else '\ufffd') :: ofCodes (m :: rest)

/-- How many units a text has. -/
def unitCount (cs : List Char) : Nat := cs.length + cs.countP fun c => 0xFFFF < c.toNat

/-- The lexicographic order of sequences of units. -/
def lexLE : List Nat → List Nat → Bool
  | [], _ => true
  | _ :: _, [] => false
  | a :: as, b :: bs => if a = b then lexLE as bs else a < b

/-- The order of texts: that of their units. -/
def unitsLE (a b : String) : Bool := lexLE (unitsOf a) (unitsOf b)

/-- Puts an element into a list in ascending order of a textual key, in front of those with the same
key. -/
def insertByKey {α : Type} (key : α → String) (x : α) : List α → List α
  | [] => [x]
  | y :: ys => if unitsLE (key x) (key y) then x :: y :: ys else y :: insertByKey key x ys

/-- A list in ascending order of a textual key; elements with equal keys keep their order. -/
def sortByKey {α : Type} (key : α → String) (xs : List α) : List α := xs.foldr (insertByKey key) []

theorem insertByKey_perm {α : Type} (key : α → String) (x : α) :
    ∀ ys : List α, (insertByKey key x ys).Perm (x :: ys)
  | [] => .refl _
  | y :: ys => by
    rw [insertByKey]
    split
    · exact .refl _
    · exact ((insertByKey_perm key x ys).cons y).trans (.swap x y ys)

theorem sortByKey_perm {α : Type} (key : α → String) :
    ∀ xs : List α, (sortByKey key xs).Perm xs
  | [] => .nil
  | x :: xs => (insertByKey_perm key x _).trans ((sortByKey_perm key xs).cons x)

end ApiReport.Text
