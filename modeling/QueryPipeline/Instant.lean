import QueryPipeline.Number.Shortest

/-! Points in time, to the microsecond, and their written forms. -/

namespace QueryPipeline

/-- A point in time, in microseconds since the start of 1970; with `zoned` it is known to be in UTC
and its written form says so. -/
structure Instant where
  micros : Int
  zoned : Bool
deriving DecidableEq, Repr

namespace Instant

/-- Year, month and day of the given number of days after the start of 1970, in the proleptic
Gregorian calendar. Years are counted from March, so that a leap day is the last day of its year. -/
def civil (days : Int) : Int × Int × Int :=
  let shifted := days + 719468
  let era := shifted / 146097
  let ofEra := shifted % 146097
  let yearOfEra := (ofEra - ofEra / 1460 + ofEra / 36524 - ofEra / 146096) / 365
  let ofYear := ofEra - (365 * yearOfEra + yearOfEra / 4 - yearOfEra / 100)
  let month := (5 * ofYear + 2) / 153
  let day := ofYear - (153 * month + 2) / 5 + 1
  let year := yearOfEra + era * 400
  if month < 10 then (year, month + 3, day) else (year + 1, month - 9, day)

/-- A point in time as the calendar and the clock show it. -/
structure Parts where
  year : Int
  month : Int
  day : Int
  hour : Int
  minute : Int
  second : Int
  micro : Int

/-- What the calendar and the clock show. -/
def parts (t : Instant) : Parts :=
  let second := 1000000
  let length := 86400 * second
  let (year, month, day) := civil (t.micros / length)
  let micros := t.micros % length
  let seconds := micros / second
  { year, month, day, hour := seconds / 3600, minute := seconds / 60 % 60, second := seconds % 60
    micro := micros % second }

/-- The date and the time, with a text between them; microseconds are written only when there are
some. -/
def written (t : Instant) (between : String) : String :=
  let p := t.parts
  let two (n : Int) := Double.padded 2 n.toNat
  Double.padded 4 p.year.toNat ++ "-" ++ two p.month ++ "-" ++ two p.day ++ between ++ two p.hour ++
    ":" ++ two p.minute ++ ":" ++ two p.second ++
    (if p.micro = 0 then "" else "." ++ Double.padded 6 p.micro.toNat) ++
    (if t.zoned then "+00:00" else "")

/-- The ISO 8601 form. -/
def iso (t : Instant) : String :=
  t.written "T"

/-- A point in time in a message: its parts one after another, seconds and microseconds only when
there are some. -/
def shown (t : Instant) : String :=
  let p := t.parts
  let rest := if p.micro = 0 then (if p.second = 0 then [] else [p.second]) else [p.second, p.micro]
  let parts := [p.year, p.month, p.day, p.hour, p.minute] ++ rest
  "datetime.datetime(" ++ String.intercalate ", " (parts.map toString) ++
    (if t.zoned then ", tzinfo=datetime.timezone.utc" else "") ++ ")"

end Instant

end QueryPipeline
