import ApiReport.Calendar.ZoneAlias
import ApiReport.Calendar.ZoneTable
import ApiReport.Verb

/-!
# Names of time zones

A zone is named by its entry in the zone table or by a former name, in any case of letters, or by an
offset such as `+05:30`. A stamp may also name the zone of the host, which is universal time, and
offsets such as `UTC+3`. An instant outside of the range of instants, or whose clock would be
outside of it, has no stamp.

Key definitions: `presentName`, `Zone.ofTable?`, `Zone.ofOffset?`, `Zone.named?`,
`Zone.ofStampName?`, `stamp`.
-/
namespace ApiReport.Calendar

/-- Coordinated universal time. -/
def utc : Zone := .fixed 0

/-- The present name of a zone in lower case, given any of its names. -/
def presentName (name : String) : String :=
  let lower := Verb.asciiLower name
  match zoneAliases.find? fun a => Verb.asciiLower a.1 = lower with
  | some (_, name) => Verb.asciiLower name
  | none => lower

/-- The zone of the table with a given name, present or former. -/
def Zone.ofTable? (name : String) : Option Zone :=
  let lower := presentName name
  (zoneTable.find? fun row => row.2.any fun n => Verb.asciiLower n = lower).map Prod.fst

def sign? : Char → Option Int
  | '+' => some 1
  | '-' => some (-1)
  | _ => none

/-- The zone of an offset in hours and minutes: a sign, two digits of hours, and two digits of
minutes, after a colon or without. -/
def Zone.ofOffset? (name : String) : Option Zone :=
  match name.toList with
  | [] => none
  | c :: cs => do
    let sign ← sign? c
    let (hours, cs) ← digits? 2 cs
    let minutes ← match cs with
      | [] => some 0
      | ':' :: cs => (digits? 2 cs).bind fun r => if r.2 = [] then some r.1 else none
      | cs => (digits? 2 cs).bind fun r => if r.2 = [] then some r.1 else none
    if 23 < hours || 59 < minutes then none else some (.fixed (sign * (hours * 60 + minutes : Nat)))

/-- The zone that a configured name stands for. -/
def Zone.named? (name : String) : Option Zone := Zone.ofTable? name <|> Zone.ofOffset? name

/-- The zone of an offset after `utc`: a sign, one or two digits of hours, and maybe a colon and two
digits of minutes. -/
def Zone.ofUtcOffset? (name : String) : Option Zone :=
  match (Verb.asciiLower name).toList with
  | 'u' :: 't' :: 'c' :: c :: cs => do
    let sign ← sign? c
    let hours := cs.takeWhile Char.isDigit
    let (h, _) ← digits? hours.length cs
    if hours.isEmpty || 2 < hours.length then none
    match cs.drop hours.length with
    | [] => some (.fixed (sign * (h * 60 : Nat)))
    | ':' :: cs =>
      let (m, rest) ← digits? 2 cs
      if rest = [] then some (.fixed (sign * (h * 60 + m : Nat))) else none
    | _ => none
  | _ => none

/-- The zone in which a stamp is written. A missing or empty name stands for the zone of the host.
-/
def Zone.ofStampName? : Option String → Option Zone
  | none => some utc
  | some name =>
    let lower := Verb.asciiLower name
    if ["", "default", "local", "system", "utc", "gmt"].contains lower then some utc
    else Zone.ofUtcOffset? name <|> Zone.named? name

/-- The clock of a zone at an instant as text, or a fixed text if there is no such zone, instant or
clock. -/
def stamp (instant : Option Int) (zone : Option String) : String :=
  let text? := do
    let t ← instant.bind instant?
    let z ← Zone.ofStampName? zone
    let shown ← instant? (t + z.offset t * 60000)
    some (Clock.ofSeconds (shown.fdiv 1000)).stamp
  text?.getD "Invalid DateTime"

end ApiReport.Calendar
