/-!
# Blank characters

The characters that trimming removes and that may stand in the gaps of a declaration: the ASCII
white space, the Unicode space separators, the line and paragraph separators and the byte-order
mark. U+0085 (next line) and U+200B (zero width space) are not among them.

Key definitions: `isBlank`, `trimStart`, `trim`, `trimmed`.
-/
namespace ApiReport.Text

/-- A character that counts as white space or as a line end. -/
def isBlank (c : Char) : Bool :=
  let n := c.toNat
  (9 ≤ n && n ≤ 13) || n == 0x20 || n == 0xA0 || n == 0x1680 || (0x2000 ≤ n && n ≤ 0x200A) ||
    n == 0x2028 || n == 0x2029 || n == 0x202F || n == 0x205F || n == 0x3000 || n == 0xFEFF

/-- The text without its leading blanks. -/
def trimStart (cs : List Char) : List Char := cs.dropWhile isBlank

/-- The text without its trailing blanks. -/
def trimEnd (cs : List Char) : List Char := (cs.reverse.dropWhile isBlank).reverse

/-- The text without blanks at either end. -/
def trim (cs : List Char) : List Char := trimEnd (trimStart cs)

def trimmed (s : String) : String := String.ofList (trim s.toList)

end ApiReport.Text
