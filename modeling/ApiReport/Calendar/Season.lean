import ApiReport.Calendar.Date

/-!
# Summer time

A zone has a fixed offset from coordinated universal time, or one that is larger during the summer.
The summer starts and ends each year on a given day of the week, at a time told by the zone's own
standard time or by universal time.

Key definitions: `Change`, `Season`, `Zone`, `Zone.offset`.
-/
namespace ApiReport.Calendar

/-- When a change takes place each year: on the first such day of the week on or after a day of a
month, at some minutes after the start of that day. -/
structure Change where
  month : Nat
  day : Nat
  weekday : Nat
  minute : Int
  /-- Whether the time is universal time; otherwise it is standard time. -/
  universal : Bool
  deriving DecidableEq, Repr

/-- A rule of summer time: by how many minutes clocks go forward, and when. -/
structure Season where
  shift : Int
  start : Change
  stop : Change
  deriving DecidableEq, Repr

/-- A time zone, by the offset of its standard time in minutes. -/
inductive Zone where
  | fixed (offset : Int)
  | seasonal (offset : Int) (season : Season)
  deriving DecidableEq, Repr

/-- The minutes of standard time since the start of 1970 at which a change takes place in a year. -/
def Change.minuteIn (c : Change) (offset : Int) (year : Int) : Int :=
  let first := daysBefore { year := year, month := c.month, day := c.day }
  let days := first + ((c.weekday + 7 - Calendar.weekday first) % 7 : Nat)
  days * 1440 + c.minute + if c.universal then offset else 0

/-- Whether it is summer at some minute of standard time. A summer that starts later in the year
than it ends includes the turn of the year. -/
def Season.holds (s : Season) (offset : Int) (minute : Int) : Bool :=
  let year := (Date.ofDays (minute.fdiv 1440)).year
  let start := s.start.minuteIn offset year
  let stop := s.stop.minuteIn offset year
  if start < stop then start ≤ minute && minute < stop else start ≤ minute || minute < stop

/-- The offset in minutes at an instant. -/
def Zone.offset (z : Zone) (milliseconds : Int) : Int :=
  match z with
  | .fixed o => o
  | .seasonal o s => if s.holds o (milliseconds.fdiv 60000 + o) then o + s.shift else o

/-- From the last Sunday of March to that of October, at one o'clock universal time. -/
def european : Season := ⟨60, ⟨3, 25, 0, 60, true⟩, ⟨10, 25, 0, 60, true⟩⟩

/-- As `european`, by two hours. -/
def twoHourEuropean : Season := { european with shift := 120 }

/-- From the second Sunday of March to the first of November. -/
def northAmerican : Season := ⟨60, ⟨3, 8, 0, 120, false⟩, ⟨11, 1, 0, 60, false⟩⟩

/-- From the first Sunday of October to the first of April. -/
def australian : Season := ⟨60, ⟨10, 1, 0, 120, false⟩, ⟨4, 1, 0, 120, false⟩⟩

/-- As `australian`, by half an hour. -/
def lordHowe : Season := ⟨30, ⟨10, 1, 0, 120, false⟩, ⟨4, 1, 0, 90, false⟩⟩

/-- From the last Sunday of September to the first of April. -/
def newZealand : Season := ⟨60, ⟨9, 24, 0, 120, false⟩, ⟨4, 1, 0, 120, false⟩⟩

/-- As `newZealand`, three quarters of an hour later. -/
def chatham : Season := ⟨60, ⟨9, 24, 0, 165, false⟩, ⟨4, 1, 0, 165, false⟩⟩

/-- From the first Sunday after the first of September to that of April. -/
def chilean : Season := ⟨60, ⟨9, 2, 0, 240, true⟩, ⟨4, 2, 0, 180, true⟩⟩

/-- From the last Friday of April to the end of the last Thursday of October. -/
def egyptian : Season := ⟨60, ⟨4, 24, 5, 0, false⟩, ⟨10, 25, 4, 1380, false⟩⟩

/-- As `northAmerican`, at midnight. -/
def cuban : Season := ⟨60, ⟨3, 8, 0, 0, false⟩, ⟨11, 1, 0, 0, false⟩⟩

/-- From the Friday before the last Sunday of March to the last Sunday of October. -/
def israeli : Season := ⟨60, ⟨3, 23, 5, 120, false⟩, ⟨10, 25, 0, 60, false⟩⟩

/-- From the last Sunday of March to that of October, at midnight. -/
def lebanese : Season := ⟨60, ⟨3, 25, 0, 0, false⟩, ⟨10, 25, 0, -60, false⟩⟩

end ApiReport.Calendar
