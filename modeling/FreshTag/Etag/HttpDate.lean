/-
FreshTag/Etag/HttpDate.lean

Dates of HTTP headers, such as `Sun, 06 Nov 1994 08:49:37 GMT`, from the
number of seconds since the start of 1970.  The calendar is the Gregorian one,
continued backwards without a break: years are counted from March, four
hundred of them make an era of 146097 days, and the day within the era gives
year, month and day.

`dayNumber` is the inverse of `ofDayNumber`.
-/

namespace FreshTag

/-- A day of the calendar. -/
structure Day where
  year : Int
  month : Nat
  day : Nat
  deriving DecidableEq, Repr

namespace Day

/-- Days from 1 March of year 0 to 1 January 1970. -/
def epoch : Int := 719468

/-- Days of an era of four hundred years. -/
def eraDays : Int := 146097

/-- Days of a year that starts in March before its month `m`, counted from 0. -/
def daysBefore (m : Nat) : Nat := (153 * m + 2) / 5

/-- The day that is `n` days after 1 January 1970. -/
def ofDayNumber (n : Int) : Day :=
  let z := n + epoch
  let era := z.fdiv eraDays
  let dayOfEra := (z - era * eraDays).toNat
  let yearOfEra := (dayOfEra - dayOfEra / 1460 + dayOfEra / 36524 - dayOfEra / 146096) / 365
  let dayOfYear := dayOfEra - (365 * yearOfEra + yearOfEra / 4 - yearOfEra / 100)
  let m := (5 * dayOfYear + 2) / 153
  let month := if m < 10 then m + 3 else m - 9
  { year := era * 400 + yearOfEra + (if month ≤ 2 then 1 else 0)
    month
    day := dayOfYear - daysBefore m + 1 }

/-- Days from 1 January 1970 to the day. -/
def dayNumber (d : Day) : Int :=
  let y := if d.month ≤ 2 then d.year - 1 else d.year
  let era := y.fdiv 400
  let yearOfEra := (y - era * 400).toNat
  let m := if 2 < d.month then d.month - 3 else d.month + 9
  let dayOfYear := daysBefore m + d.day - 1
  let dayOfEra := yearOfEra * 365 + yearOfEra / 4 - yearOfEra / 100 + dayOfYear
  era * eraDays + dayOfEra - epoch

/-- The day of the week, 0 for Sunday. -/
def weekday (n : Int) : Nat := ((n + 4).fmod 7).toNat

end Day

namespace HttpDate

/-- Seconds of a day. -/
def daySeconds : Int := 86400

/-- The names of the days of the week, Sunday first. -/
def dayNames : List String := ["Sun", "Mon", "Tue", "Wed", "Thu", "Fri", "Sat"]

/-- The names of the months. -/
def monthNames : List String :=
  ["Jan", "Feb", "Mar", "Apr", "May", "Jun", "Jul", "Aug", "Sep", "Oct", "Nov", "Dec"]

/-- A number with leading zeros up to `width` digits. -/
def padded (width n : Nat) : String :=
  let ds := Nat.toDigits 10 n
  String.ofList (List.replicate (width - ds.length) '0' ++ ds)

/-- A year with at least four digits, behind a minus sign if it is negative. -/
def yearText (year : Int) : String :=
  (if year < 0 then "-" else "") ++ padded 4 year.natAbs

/-- The date of an instant, given in seconds since the start of 1970. -/
def text (unix : Int) : String :=
  let days := unix.fdiv daySeconds
  let second := (unix - days * daySeconds).toNat
  let d := Day.ofDayNumber days
  dayNames.getD (Day.weekday days) "" ++ ", " ++ padded 2 d.day ++ " " ++
    monthNames.getD (d.month - 1) "" ++ " " ++ yearText d.year ++ " " ++
    padded 2 (second / 3600) ++ ":" ++ padded 2 (second / 60 % 60) ++ ":" ++
    padded 2 (second % 60) ++ " GMT"

/-- First and last instant of the years from -9999 to 9999. -/
def range : Int × Int :=
  ((Day.mk (-9999) 1 1).dayNumber * daySeconds, (Day.mk 10000 1 1).dayNumber * daySeconds - 1)

/-- The instant lies in a year from -9999 to 9999. -/
def inRange (unix : Int) : Bool :=
  range.1 ≤ unix && unix ≤ range.2

/-- Greatest offset from Greenwich, in seconds. -/
def greatestOffset : Nat := 25 * 3600 + 59 * 60 + 59

/-- The date of an instant seen at an offset from Greenwich; none if the offset is too great
or a local or universal time falls out of the calendar's range. -/
def atOffset? (unix offset : Int) : Option String :=
  if offset.natAbs ≤ greatestOffset ∧ inRange unix = true ∧ inRange (unix + offset) = true then
    some (text unix)
  else none

end HttpDate

end FreshTag
