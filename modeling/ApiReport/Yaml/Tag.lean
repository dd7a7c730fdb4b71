import ApiReport.Yaml.Schema

/-!
# Tags beyond the core schema

Six tags are known though the core schema has no use for them: those of sets, ordered mappings,
lists of pairs, instants, octets and merges. A tag on a collection of the other kind, or on a scalar
where it asks for a collection, changes nothing. Octets are read as the mapping of their places; the
names that such an object inherits are not modelled. Which instant a text names is not kept.

Key definitions: `isTimestamp`, `octetsOfText`, `taggedScalar`.
-/
namespace ApiReport.Yaml

/-! ### Instants -/

/-- The text after a given character. -/
def afterChar? (c : Char) : List Char → Option (List Char)
  | [] => none
  | d :: cs => if d = c then some cs else none

/-- The text after the digits at its start, if there are at least `least` and at most `most`. -/
def afterDigits? (least most : Nat) (cs : List Char) : Option (List Char) :=
  let count := (cs.takeWhile Char.isDigit).length
  if least ≤ count && count ≤ most then some (cs.drop count) else none

/-- The text after a year of four digits, a month and a day. -/
def afterDate? (cs : List Char) : Option (List Char) := do
  let cs ← afterChar? '-' (← afterDigits? 4 4 cs)
  let cs ← afterChar? '-' (← afterDigits? 1 2 cs)
  afterDigits? 1 2 cs

/-- The text after an hour, a minute and a second, this maybe with a fraction. -/
def afterTime? (cs : List Char) : Option (List Char) := do
  let cs ← afterChar? ':' (← afterDigits? 1 2 cs)
  let cs ← afterChar? ':' (← afterDigits? 1 2 cs)
  let cs ← afterDigits? 1 2 cs
  match cs with
  | '.' :: part =>
    if (part.takeWhile Char.isDigit).isEmpty then none else some (part.dropWhile Char.isDigit)
  | _ => some cs

/-- A zone: a letter for the zero one, else a sign, an hour below 30 and maybe minutes. -/
def isZone : List Char → Bool
  | ['Z'] => true
  | sign :: cs =>
    let hour := cs.takeWhile Char.isDigit
    (sign == '+' || sign == '-') &&
      (hour.length == 1 || (hour.length == 2 && hour.headD '0' ≤ '2')) &&
      match cs.drop hour.length with
      | [] => true
      | ':' :: minutes => minutes.length == 2 && minutes.all Char.isDigit
      | _ => false
  | [] => false

/-- A text without the spaces and tabs at its start. -/
def dropGap : List Char → List Char := List.dropWhile fun c => c == ' ' || c == '\t'

/-- The text after what stands between a date and a time: a letter or a gap. -/
def afterSeparator? : List Char → Option (List Char)
  | 't' :: cs | 'T' :: cs => some cs
  | ' ' :: cs | '\t' :: cs => some (dropGap cs)
  | _ => none

/-- The form of instants: a date, maybe a time after it, maybe a zone after that. -/
def isTimestamp (cs : List Char) : Bool :=
  match afterDate? cs with
  | none => false
  | some [] => true
  | some rest =>
    match (afterSeparator? rest).bind afterTime? with
    | none => false
    | some [] => true
    | some rest => isZone (dropGap rest)

/-! ### Octets -/

/-- The place of a character among the digits of base 64, in the common alphabet or in the one for
addresses. -/
def sextet? (c : Char) : Option Nat :=
  if c.isUpper then some (c.toNat - 65)
  else if c.isLower then some (c.toNat - 71)
  else if c.isDigit then some (c.toNat + 4)
  else if c == '+' || c == '-' then some 62
  else if c == '/' || c == '_' then some 63
  else none

/-- The octets that digits of base 64 stand for; bits that fill no octet are dropped. -/
def octetsOf : List Nat → List Nat
  | a :: b :: c :: d :: rest =>
    (4 * a + b / 16) :: (b % 16 * 16 + c / 4) :: (c % 4 * 64 + d) :: octetsOf rest
  | [a, b, c] => [4 * a + b / 16, b % 16 * 16 + c / 4]
  | [a, b] => [4 * a + b / 16]
  | _ => []

/-- The octets of a text in base 64, up to its padding; what is no digit is passed over. -/
def octetsOfText (cs : List Char) : List Nat :=
  octetsOf ((cs.takeWhile (· ≠ '=')).filterMap sextet?)

/-- Octets as the mapping of their places. -/
def ofOctets (octets : List Nat) : Value :=
  .mapping (octets.zipIdx.map fun e => (toString e.2, .number (.ofNat e.1)))

/-! ### Scalars -/

/-- What a scalar with a tag denotes, or why it denotes nothing. -/
def taggedScalar (tag : String) (s : String) : Except String Value :=
  if tag = coreTag "timestamp" then
    if isTimestamp s.toList then .ok (.special .instant)
    else .error "timestamp does not start with a date"
  else if tag = coreTag "binary" then .ok (ofOctets (octetsOfText s.toList))
  else if tag = coreTag "merge" then .ok (.special .mergeMark)
  else .ok (taggedValue tag s)

end ApiReport.Yaml
