/-!
# Dates and times of day

Instants are milliseconds since the start of 1970 in coordinated universal time, at most 100 million
days away from it. Days are counted in the Gregorian calendar, which is taken to hold for all years.

Key definitions: `daysBefore`, `Date.ofDays`, `Clock`, `Clock.ofSeconds`, `Clock.stamp`, `instant?`.
-/
namespace ApiReport.Calendar

/-- A date of the Gregorian calendar. -/
structure Date where
  year : Int
  month : Nat
  day : Nat
  deriving DecidableEq, Repr

/-- The days from the start of 1970 to a date. Years are counted from March, so that the day that is
added in leap years is the last one; 400 years have 146097 days. -/
def daysBefore (d : Date) : Int :=
  let y : Int := if d.month ≤ 2 then d.year - 1 else d.year
  let era := y.fdiv 400
  let yearOfEra := y - era * 400
  let month : Int := (((d.month + 9) % 12 : Nat) : Int)
  let dayOfYear := (153 * month + 2) / 5 + d.day - 1
  era * 146097 + (yearOfEra * 365 + yearOfEra / 4 - yearOfEra / 100 + dayOfYear) - 719468

/-- The date that is some days after the start of 1970. -/
def Date.ofDays (days : Int) : Date :=
  let z := days + 719468
  let era := z.fdiv 146097
  let dayOfEra := z - era * 146097
  let yearOfEra := (dayOfEra - dayOfEra / 1460 + dayOfEra / 36524 - dayOfEra / 146096) / 365
  let dayOfYear := dayOfEra - (365 * yearOfEra + yearOfEra / 4 - yearOfEra / 100)
  let shifted := (5 * dayOfYear + 2) / 153
  let day := dayOfYear - (153 * shifted + 2) / 5 + 1
  let month := if shifted < 10 then shifted + 3 else shifted - 9
  { year := yearOfEra + era * 400 + (if month ≤ 2 then 1 else 0)
    month := month.toNat
    day := day.toNat }

/-- The day of the week some days after the start of 1970, which was a Thursday; Sunday is 0. -/
def weekday (days : Int) : Nat := ((days + 4).fmod 7).toNat

/-- A date and a time of day. -/
structure Clock where
  date : Date
  second : Nat
  deriving DecidableEq, Repr

/-- What a clock shows some seconds after the start of 1970. -/
def Clock.ofSeconds (seconds : Int) : Clock :=
  { date := Date.ofDays (seconds.fdiv 86400), second := (seconds.fmod 86400).toNat }

/-- A number in decimal digits, filled up with zeros to a width. -/
def padded (width n : Nat) : String :=
  let ds := Nat.toDigits 10 n
  String.ofList (List.replicate (width - ds.length) '0' ++ ds)

/-- A year in at least four digits, after a minus sign if it is before year zero. -/
def yearText (y : Int) : String := (if y < 0 then "-" else "") ++ padded 4 y.natAbs

/-- A clock as year, month, day, hour, minute and second. -/
def Clock.stamp (c : Clock) : String :=
  yearText c.date.year ++ "-" ++ padded 2 c.date.month ++ "-" ++ padded 2 c.date.day ++ " " ++
    padded 2 (c.second / 3600) ++ ":" ++ padded 2 (c.second / 60 % 60) ++ ":" ++
    padded 2 (c.second % 60)

/-- The greatest distance of an instant from the start of 1970. -/
def maxInstant : Int := 8640000000000000

/-- An instant, if it is not too far away. -/
def instant? (milliseconds : Int) : Option Int :=
  if -maxInstant ≤ milliseconds && milliseconds ≤ maxInstant then some milliseconds else none

/-- The number of exactly `n` decimal digits at the start of a text, and the rest. -/
def digits? (n : Nat) (cs : List Char) : Option (Nat × List Char) :=
  let ds := cs.take n
  if ds.length = n && ds.all Char.isDigit then
    some (ds.foldl (fun v d => 10 * v + (d.toNat - 48)) 0, cs.drop n)
  else none

end ApiReport.Calendar
