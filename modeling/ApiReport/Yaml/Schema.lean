import ApiReport.Value.Json

/-!
# What scalars denote

The core schema: a plain scalar is null, a truth value or a number if it has the form of one, and
text otherwise. A tag of the core schema asks for one of these readings; where the scalar does not
have its form, and under any other tag, it is text.

Key definitions: `asNull?`, `asBool?`, `asInt?`, `asFloat?`, `plainValue`, `taggedValue`,
`TagTable`.
-/
namespace ApiReport.Yaml

/-- The forms of null. -/
def asNull? (s : String) : Option Value :=
  if ["", "~", "null", "Null", "NULL"].contains s then some .null else none

/-- The forms of truth values. -/
def asBool? (s : String) : Option Value :=
  if ["true", "True", "TRUE"].contains s then some (.bool true)
  else if ["false", "False", "FALSE"].contains s then some (.bool false)
  else none

/-- A sign at the start of a text, and the rest. -/
def signed : List Char → Bool × List Char
  | '-' :: cs => (true, cs)
  | '+' :: cs => (false, cs)
  | cs => (false, cs)

/-- One or more digits and nothing else. -/
def isDigits (cs : List Char) : Bool := !cs.isEmpty && cs.all Char.isDigit

/-- The forms of whole numbers: decimal with an optional sign, octal after `0o`, hexadecimal after
`0x`. -/
def asInt? (s : String) : Option Value :=
  match s.toList with
  | '0' :: 'o' :: cs =>
    if !cs.isEmpty && cs.all fun c => '0' ≤ c && c ≤ '7' then
      some (.number (.ofNat (cs.foldl (fun n c => 8 * n + (c.toNat - 48)) 0)))
    else none
  | '0' :: 'x' :: cs =>
    if cs.isEmpty then none else (Json.hexNumber? cs).map fun n => .number (.ofNat n)
  | cs =>
    let (negative, ds) := signed cs
    if isDigits ds then some (.number (Number.ofDecimal negative (Json.decimal ds) 0)) else none

/-- A decimal fraction without sign: the digits, and how many of them stand after the point. It has
at least one digit; `needsPoint` refuses a text without a point. -/
def fraction? (needsPoint : Bool) (cs : List Char) : Option (List Char × Nat) :=
  let whole := cs.takeWhile Char.isDigit
  match cs.dropWhile Char.isDigit with
  | [] => if needsPoint || whole.isEmpty then none else some (whole, 0)
  | '.' :: part =>
    if part.all Char.isDigit && !(whole.isEmpty && part.isEmpty) then
      some (whole ++ part, part.length)
    else none
  | _ => none

/-- The forms of floating-point numbers: a decimal fraction, with or without an exponent, and the
words for infinity and for no number. -/
def asFloat? (s : String) : Option Value :=
  if [".nan", ".NaN", ".NAN"].contains s then some (.number .nan)
  else
    let (negative, cs) := signed s.toList
    if [".inf", ".Inf", ".INF"].contains (String.ofList cs) then some (.number (.infinity negative))
    else
      let mantissa := cs.takeWhile fun c => c != 'e' && c != 'E'
      match cs.drop mantissa.length with
      | [] => (fraction? true mantissa).map fun (ds, places) =>
          .number (Number.ofDecimal negative (Json.decimal ds) (-(places : Int)))
      | _ :: power =>
        let (down, ds) := signed power
        if isDigits ds then
          (fraction? false mantissa).map fun (all, places) =>
            let e : Int := if down then -(Json.decimal ds : Int) else Json.decimal ds
            .number (Number.ofDecimal negative (Json.decimal all) (e - places))
        else none

/-- What a plain scalar without a tag denotes. -/
def plainValue (s : String) : Value :=
  (asNull? s <|> asBool? s <|> asInt? s <|> asFloat? s).getD (.text s)

/-- The start of the tags that the format itself defines. -/
def coreTag (name : String) : String := "tag:yaml.org,2002:" ++ name

/-- What a scalar with a tag denotes. -/
def taggedValue (tag : String) (s : String) : Value :=
  let read? : String → Option Value :=
    if tag = coreTag "null" then asNull?
    else if tag = coreTag "bool" then asBool?
    else if tag = coreTag "int" then asInt?
    else if tag = coreTag "float" then asFloat?
    else fun _ => none
  (read? s).getD (.text s)

/-- The handles of tags and what they stand for. -/
abbrev TagTable := List (String × String)

/-- The handle that needs no directive. -/
def TagTable.standard : TagTable := [("!!", "tag:yaml.org,2002:")]

/-- The octets of a text in which a percent sign and two hexadecimal digits stand for an octet;
`none` if the digits are missing. -/
def percentOctets? : List Char → Option (List UInt8)
  | [] => some []
  | '%' :: a :: b :: cs =>
    match Json.hexNumber? [a, b], percentOctets? cs with
    | some n, some rest => some (n.toUInt8 :: rest)
    | _, _ => none
  | '%' :: _ => none
  | c :: cs => (percentOctets? cs).map ((String.singleton c).toUTF8.toList ++ ·)

/-- A text with its percent escapes resolved, if they are UTF-8. -/
def unescapePercent? (cs : List Char) : Option String := do
  let octets ← percentOctets? cs
  String.fromUTF8? ⟨octets.toArray⟩

/-- The full name of a tag as written; `none` if its handle is not declared or its form is wrong.
The mark without a name stands for itself. -/
def TagTable.resolve? (table : TagTable) (source : List Char) : Option String :=
  match source with
  | ['!'] => some "!"
  | '!' :: '<' :: rest =>
    let name := rest.dropLast
    if rest.getLast? = some '>' && name ≠ ['!'] && name ≠ ['!', '!'] then some (String.ofList name)
    else none
  | _ =>
    let suffix := (source.reverse.takeWhile (· != '!')).reverse
    let handle := String.ofList (source.take (source.length - suffix.length))
    if suffix.isEmpty then none
    else
      match table.lookup handle with
      | some start => (unescapePercent? suffix).map (start ++ ·)
      | none => if handle = "!" then some (String.ofList source) else none

end ApiReport.Yaml
