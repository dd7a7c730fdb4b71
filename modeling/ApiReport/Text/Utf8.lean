/-!
# Text as bytes

UTF-8 read from the left, one byte at a time. Where the bytes are no text, every longest start of a
character and every byte that starts none is replaced by U+FFFD.

Key definitions: `Utf8.encode`, `Utf8.Partial`, `Utf8.step`, `Utf8.characters`, `Utf8.decode`,
`Utf8.isText`, `Utf8.decodeSource`.
-/
namespace ApiReport.Text.Utf8

def encode (cs : List Char) : List UInt8 := cs.flatMap String.utf8EncodeChar

/-- A character whose first bytes have been read: how many are missing, the range in which the next
one has to be, and the bits so far. -/
structure Partial where
  missing : Nat
  low : Nat
  high : Nat
  bits : Nat
  deriving DecidableEq, Repr

/-- What one byte brings to an end, none standing for bytes that are no character, and what it
leaves begun. -/
abbrev Step := List (Option Char) × Option Partial

/-- The first byte of a character. Overlong forms, surrogates and code points past the last one are
excluded by the range of the second byte. -/
def first (b : Nat) : Step :=
  if b < 0x80 then ([some (Char.ofNat b)], none)
  else if b < 0xC2 then ([none], none)
  else if b < 0xE0 then ([], some ⟨1, 0x80, 0xBF, b - 0xC0⟩)
  else if b = 0xE0 then ([], some ⟨2, 0xA0, 0xBF, 0⟩)
  else if b = 0xED then ([], some ⟨2, 0x80, 0x9F, 0xD⟩)
  else if b < 0xF0 then ([], some ⟨2, 0x80, 0xBF, b - 0xE0⟩)
  else if b = 0xF0 then ([], some ⟨3, 0x90, 0xBF, 0⟩)
  else if b < 0xF4 then ([], some ⟨3, 0x80, 0xBF, b - 0xF0⟩)
  else if b = 0xF4 then ([], some ⟨3, 0x80, 0x8F, 4⟩)
  else ([none], none)

/-- The next byte. One that does not continue a character ends it unfinished and is read as a first
byte. -/
def step (before : Option Partial) (b : Nat) : Step :=
  match before with
  | none => first b
  | some p =>
    if p.low ≤ b && b ≤ p.high then
      let bits := p.bits * 64 + (b - 0x80)
      if p.missing ≤ 1 then ([some (Char.ofNat bits)], none)
      else ([], some ⟨p.missing - 1, 0x80, 0xBF, bits⟩)
    else (none :: (first b).1, (first b).2)

/-- The characters of a sequence of bytes, none standing for bytes that are no character. -/
def characters : (before : Option Partial) → List UInt8 → List (Option Char)
  | none, [] => []
  | some _, [] => [none]
  | before, b :: bs => (step before b.toNat).1 ++ characters (step before b.toNat).2 bs

/-- The text of a sequence of bytes. -/
def decode (bytes : List UInt8) : List Char := (characters none bytes).map fun c => c.getD '\ufffd'

/-- Whether bytes are a text throughout. -/
def isText (bytes : List UInt8) : Bool := (characters none bytes).all Option.isSome

/-- A text without the byte-order mark that it may start with. -/
def dropMark : List Char → List Char
  | c :: cs => if c = '\ufeff' then cs else c :: cs
  | [] => []

/-- The text of a source file, without a byte-order mark. -/
def decodeSource (bytes : List UInt8) : List Char := dropMark (decode bytes)

end ApiReport.Text.Utf8
