/-
FreshTag/Proofs/Etag/Dates.lean

Dates of HTTP headers denote their instant.  `read?` takes such a date apart
by the places of its characters, and `Reading.unix` counts the seconds of what
it says by the calendar.  A date of the years 0 to 9999 is read
(`read?_text`), and what it says is its instant again, so no two instants
share a date (`dates_denote_their_instant`).
-/
import FreshTag.Number.Integer
import FreshTag.Proofs.Etag.Calendar
import FreshTag.Text.Pieces

namespace FreshTag.HttpDate

open Text (dropStart?)

/-! ### Reading a date -/

/-- What a date says. -/
structure Reading where
  /-- The day of the week, 0 for Sunday. -/
  weekday : Nat
  day : Day
  hour : Nat
  minute : Nat
  second : Nat
  deriving DecidableEq, Repr

/-- The place among the names of the one that begins the text, and the text behind it.  All names
have three letters. -/
def readName (names : List String) (cs : List Char) : Option (Nat × List Char) :=
  let place := names.idxOf (String.ofList (cs.take 3))
  if place < names.length then some (place, cs.drop 3) else none

/-- The number of the first `width` characters, all of them digits, and the text behind them. -/
def readNumber (width : Nat) (cs : List Char) : Option (Nat × List Char) :=
  if (cs.take width).length = width then
    (Number.digits? (cs.take width)).map fun n => (n, cs.drop width)
  else none

/-- What a date says, such as `Sun, 06 Nov 1994 08:49:37 GMT`. -/
def read? (s : String) : Option Reading := do
  let (weekday, cs) ← readName dayNames s.toList
  let cs ← dropStart? ", ".toList cs
  let (day, cs) ← readNumber 2 cs
  let cs ← dropStart? " ".toList cs
  let (month, cs) ← readName monthNames cs
  let cs ← dropStart? " ".toList cs
  let (year, cs) ← readNumber 4 cs
  let cs ← dropStart? " ".toList cs
  let (hour, cs) ← readNumber 2 cs
  let cs ← dropStart? ":".toList cs
  let (minute, cs) ← readNumber 2 cs
  let cs ← dropStart? ":".toList cs
  let (second, cs) ← readNumber 2 cs
  if cs = " GMT".toList then
    some { weekday, day := ⟨year, month + 1, day⟩, hour, minute, second }
  else none

/-- Seconds from the start of 1970 to the start of a day, all days between counted by the
calendar. -/
def startOf (d : Day) : Int :=
  ((d.counted : Int) - (Day.mk 1970 1 1).counted) * 86400

namespace Reading

/-- The instant of the reading, in seconds since the start of 1970. -/
def unix (r : Reading) : Int :=
  startOf r.day + (r.hour * 3600 + r.minute * 60 + r.second : Nat)

/-- The calendar has the day, the clock has the time, and the day of the week is that of the day;
the first day of year 0 is a Saturday. -/
structure Valid (r : Reading) : Prop where
  day : r.day.Valid
  hour : r.hour < 24
  minute : r.minute < 60
  second : r.second < 60
  weekday : r.weekday = (6 + r.day.counted) % 7

end Reading

/-- The instant lies in the years 0 to 9999. -/
def FourDigits (unix : Int) : Prop :=
  startOf ⟨0, 1, 1⟩ ≤ unix ∧ unix < startOf ⟨10000, 1, 1⟩

/-! ### Numbers and names -/

theorem length_padded {width n : Nat} (hwidth : 0 < width) (h : n < 10 ^ width) :
    (padded width n).toList.length = width := by
  have hle := (Nat.length_toDigits_le_iff (by decide) hwidth).mpr h
  simp [padded, hle]

theorem digits?_padded (width n : Nat) : Number.digits? (padded width n).toList = some n := by
  have hdigits : ∀ c ∈ (padded width n).toList, c.isDigit = true := by
    intro c hc
    rw [padded, String.toList_ofList, List.mem_append] at hc
    rcases hc with hc | hc
    · rw [List.eq_of_mem_replicate hc]
      rfl
    · exact Nat.isDigit_of_mem_toDigits (by decide) (by decide) hc
  have hne : (padded width n).toList ≠ [] := by
    simp [padded, Nat.toDigits_ne_nil]
  rw [Number.digits?, if_pos ⟨hne, List.all_eq_true.mpr hdigits⟩, padded, String.toList_ofList,
    Nat.ofDigitChars_append, Nat.ofDigitChars_replicate_zero, Nat.mul_zero,
    Nat.ofDigitChars_ten_toDigits]

theorem readNumber_padded {width n : Nat} (hwidth : 0 < width) (h : n < 10 ^ width)
    (rest : List Char) : readNumber width ((padded width n).toList ++ rest) = some (n, rest) := by
  have hlength := length_padded hwidth h
  rw [readNumber, List.take_left' hlength, List.drop_left' hlength, if_pos hlength,
    digits?_padded, Option.map_some]

theorem readName_getD {names : List String} (hnodup : names.Nodup)
    (hthree : ∀ name ∈ names, name.toList.length = 3) {i : Nat} (hi : i < names.length)
    (rest : List Char) : readName names ((names.getD i "").toList ++ rest) = some (i, rest) := by
  have hlength := hthree _ (List.getElem_mem hi)
  rw [List.getD_eq_getElem?_getD, List.getElem?_eq_getElem hi, Option.getD_some, readName,
    List.take_left' hlength, List.drop_left' hlength, String.ofList_toList, hnodup.idxOf_getElem,
    if_pos hi]

/-! ### The reading of an instant -/

/-- What the date of the instant says. -/
def reading (unix : Int) : Reading :=
  let days := unix.fdiv daySeconds
  let second := (unix - days * daySeconds).toNat
  { weekday := Day.weekday days
    day := Day.ofDayNumber days
    hour := second / 3600
    minute := second / 60 % 60
    second := second % 60 }

theorem startOf_eq {d : Day} (h : d.Valid) (hyear : 0 ≤ d.year) :
    startOf d = d.dayNumber * 86400 := by
  rw [startOf, Day.dayNumber_eq_counted h hyear]

theorem fourDigits_iff {unix : Int} :
    FourDigits unix ↔
      0 ≤ (Day.ofDayNumber (unix.fdiv daySeconds)).year ∧
        (Day.ofDayNumber (unix.fdiv daySeconds)).year < 10000 := by
  have hvalid := Day.valid_ofDayNumber (unix.fdiv daySeconds)
  have hzero := Day.first_le_dayNumber_iff hvalid 0
  have hten := Day.first_le_dayNumber_iff hvalid 10000
  rw [Day.dayNumber_ofDayNumber] at hzero hten
  rw [FourDigits, startOf_eq (Day.valid_first (by decide) (by decide)) (by decide),
    startOf_eq (Day.valid_first (by decide) (by decide)) (by decide), ← hzero, ← not_le, ← not_le,
    ← hten, not_le, not_le, Int.fdiv_eq_ediv_of_nonneg _ (by decide), daySeconds]
  omega

theorem unix_reading {unix : Int} (h : FourDigits unix) : (reading unix).unix = unix := by
  have hyear := (fourDigits_iff.mp h).1
  rw [Reading.unix, reading]
  dsimp only
  rw [startOf_eq (Day.valid_ofDayNumber _) hyear, Day.dayNumber_ofDayNumber,
    Int.fdiv_eq_ediv_of_nonneg _ (by decide), daySeconds]
  omega

theorem weekday_eq {d : Day} (h : d.Valid) (hyear : 0 ≤ d.year) :
    Day.weekday d.dayNumber = (6 + d.counted) % 7 := by
  have hcounted := Day.counted_eq h hyear
  have hbase : Day.epoch - Day.daysToMonth 0 1 = 719528 := rfl
  rw [Day.weekday, Int.fmod_eq_emod_of_nonneg _ (by decide)]
  omega

theorem valid_reading {unix : Int} (h : FourDigits unix) : (reading unix).Valid := by
  have hvalid := Day.valid_ofDayNumber (unix.fdiv daySeconds)
  have hweekday := weekday_eq hvalid (fourDigits_iff.mp h).1
  rw [Day.dayNumber_ofDayNumber] at hweekday
  have hpast : (unix - unix.fdiv daySeconds * daySeconds).toNat < 86400 := by
    rw [Int.fdiv_eq_ediv_of_nonneg _ (by decide), daySeconds]
    omega
  exact
    { day := hvalid
      hour := Nat.div_lt_of_lt_mul hpast
      minute := Nat.mod_lt _ (by decide)
      second := Nat.mod_lt _ (by decide)
      weekday := hweekday }

/-- The date of a reading. -/
def Reading.text (r : Reading) : String :=
  dayNames.getD r.weekday "" ++ ", " ++ padded 2 r.day.day ++ " " ++
    monthNames.getD (r.day.month - 1) "" ++ " " ++ yearText r.day.year ++ " " ++
    padded 2 r.hour ++ ":" ++ padded 2 r.minute ++ ":" ++ padded 2 r.second ++ " GMT"

/-- A reading is found in its date. -/
theorem Reading.Valid.read?_text {r : Reading} (h : r.Valid) (hlow : 0 ≤ r.day.year)
    (hhigh : r.day.year < 10000) : read? r.text = some r := by
  have hweekday : r.weekday < dayNames.length := by
    rw [h.weekday]
    exact Nat.mod_lt _ (by decide)
  have hday : r.day.day < 10 ^ 2 := by
    have := h.day.day_le
    have := Day.monthLength_le r.day.year r.day.month
    omega
  have hmonth : r.day.month - 1 < monthNames.length := by
    have := h.day.month_le
    show r.day.month - 1 < 12
    omega
  have hyear : r.day.year.natAbs < 10 ^ 4 := by omega
  have hhour : r.hour < 10 ^ 2 := Nat.lt_trans h.hour (by decide)
  have hminute : r.minute < 10 ^ 2 := Nat.lt_trans h.minute (by decide)
  have hsecond : r.second < 10 ^ 2 := Nat.lt_trans h.second (by decide)
  have hyearText : yearText r.day.year = padded 4 r.day.year.natAbs := by
    rw [yearText, if_neg (not_lt.mpr hlow), String.empty_append]
  have hmonthBack : r.day.month - 1 + 1 = r.day.month := Nat.sub_add_cancel h.day.one_le_month
  have hback : ((r.day.year.natAbs : Nat) : Int) = r.day.year := Int.natAbs_of_nonneg hlow
  have htext : r.text.toList = (dayNames.getD r.weekday "").toList ++ (", ".toList ++
      ((padded 2 r.day.day).toList ++ (" ".toList ++
      ((monthNames.getD (r.day.month - 1) "").toList ++ (" ".toList ++
      ((padded 4 r.day.year.natAbs).toList ++ (" ".toList ++ ((padded 2 r.hour).toList ++
      (":".toList ++ ((padded 2 r.minute).toList ++ (":".toList ++
      ((padded 2 r.second).toList ++ " GMT".toList)))))))))))) := by
    simp only [Reading.text, hyearText, String.toList_append, List.append_assoc]
  have hmonthName := readName_getD (show monthNames.Nodup by decide) (by decide) hmonth
  rw [read?, htext, readName_getD (by decide) (by decide) hweekday, Option.bind_eq_bind,
    Option.bind_some]
  simp only [Option.bind_eq_bind, Option.bind_some, Text.dropStart?_append, hmonthName,
    readNumber_padded (by decide) hday, readNumber_padded (by decide) hyear,
    readNumber_padded (by decide) hhour, readNumber_padded (by decide) hminute,
    readNumber_padded (by decide) hsecond, if_true, hmonthBack, hback]

/-! ### Dates and instants -/

/-- The date of an instant says what the calendar and the clock show at Greenwich. -/
theorem read?_text {unix : Int} (h : FourDigits unix) :
    read? (text unix) = some (reading unix) := by
  obtain ⟨hlow, hhigh⟩ := fourDigits_iff.mp h
  have htext : text unix = (reading unix).text := rfl
  rw [htext, (valid_reading h).read?_text hlow hhigh]

theorem inRange_of_fourDigits {unix : Int} (h : FourDigits unix) : inRange unix = true := by
  have hrange : range = (-377705116800, 253402300799) := rfl
  have hfirst : startOf ⟨0, 1, 1⟩ = -62167219200 :=
    startOf_eq (Day.valid_first (by decide) (by decide)) (by decide)
  have hlast : startOf ⟨10000, 1, 1⟩ = 253402300800 :=
    startOf_eq (Day.valid_first (by decide) (by decide)) (by decide)
  rw [FourDigits, hfirst, hlast] at h
  simp only [inRange, hrange, Bool.and_eq_true, decide_eq_true_eq]
  omega

theorem atOffset?_eq {unix offset : Int} (h : FourDigits unix)
    (hoffset : offset.natAbs ≤ greatestOffset) (hlocal : inRange (unix + offset) = true) :
    atOffset? unix offset = some (text unix) :=
  if_pos ⟨hoffset, inRange_of_fourDigits h, hlocal⟩

/-- Seen at any offset, the date of an instant is the one it has at Greenwich.  Read by the
calendar it gives the instant back, to the second and with its day of the week; two instants never
share a date. -/
theorem dates_denote_their_instant {unix : Int} (h : FourDigits unix) :
    atOffset? unix 0 = some (text unix) ∧
      (∀ offset, offset.natAbs ≤ greatestOffset → inRange (unix + offset) = true →
        atOffset? unix offset = atOffset? unix 0) ∧
      (∃ r, read? (text unix) = some r ∧ r.Valid ∧ r.unix = unix) ∧
      ∀ other, FourDigits other → text other = text unix → other = unix := by
  have hzero : atOffset? unix 0 = some (text unix) :=
    atOffset?_eq h (Nat.zero_le _) (by rw [Int.add_zero]; exact inRange_of_fourDigits h)
  refine ⟨hzero, ?_, ⟨reading unix, read?_text h, valid_reading h, unix_reading h⟩, ?_⟩
  · intro offset hoffset hlocal
    rw [hzero, atOffset?_eq h hoffset hlocal]
  · intro other hother htext
    have hsame : reading other = reading unix := by
      have hread := read?_text hother
      rw [htext, read?_text h] at hread
      exact (Option.some.inj hread).symm
    rw [← unix_reading hother, hsame, unix_reading h]

theorem november_date_denotes_its_instant :
    FourDigits 784111777 ∧ inRange (784111777 + -32400) = true ∧
      atOffset? 784111777 (-32400) = some "Sun, 06 Nov 1994 08:49:37 GMT" ∧
      ∃ r, read? "Sun, 06 Nov 1994 08:49:37 GMT" = some r ∧ r.Valid ∧ r.unix = 784111777 := by
  have hfour : FourDigits 784111777 := fourDigits_iff.mpr (by decide)
  have hlocal : inRange (784111777 + -32400) = true := by decide
  have htext : text 784111777 = "Sun, 06 Nov 1994 08:49:37 GMT" := by decide +kernel
  obtain ⟨hzero, hoffsets, hread, -⟩ := dates_denote_their_instant hfour
  rw [htext] at hzero hread
  exact ⟨hfour, hlocal, (hoffsets (-32400) (by decide) hlocal).trans hzero, hread⟩

end FreshTag.HttpDate
