/-
FreshTag/Proofs/Etag/Calendar.lean

The formulas for days follow the Gregorian calendar.  `Valid`, `next` and
`counted` say what the calendar is: how long its months are, which day comes
after which, and how many days have passed since the start of year 0 if they
are added up year after year and month after month.  `dayNumber` is that count
(`dayNumber_eq_counted`), each number is that of exactly one day
(`ofDayNumber_dayNumber`, `dayNumber_ofDayNumber`), and from one number to the
next the calendar goes on by a day (`ofDayNumber_add_one`).

Both formulas count years from March, so that a leap day ends its year.  The
formula for the year of an era is settled by writing the day as centuries,
groups of four years, years and days, each with its own bound.
-/
import FreshTag.Etag.HttpDate
import Mathlib.Algebra.Order.Ring.Int
import Mathlib.Tactic.IntervalCases

namespace FreshTag.Day

/-! ### The calendar -/

/-- The year is a leap year. -/
def IsLeap (year : Int) : Prop :=
  4 ∣ year ∧ (100 ∣ year → 400 ∣ year)

instance (year : Int) : Decidable (IsLeap year) :=
  inferInstanceAs (Decidable (_ ∧ _))

/-- Days of a year. -/
def yearLength (year : Int) : Nat :=
  if IsLeap year then 366 else 365

/-- Days of a month. -/
def monthLength (year : Int) (month : Nat) : Nat :=
  if month = 2 then (if IsLeap year then 29 else 28)
  else if month ∈ [4, 6, 9, 11] then 30 else 31

/-- The calendar has the day. -/
structure Valid (d : Day) : Prop where
  one_le_month : 1 ≤ d.month
  month_le : d.month ≤ 12
  one_le_day : 1 ≤ d.day
  day_le : d.day ≤ monthLength d.year d.month

/-- The day after. -/
def next (d : Day) : Day :=
  if d.day < monthLength d.year d.month then { d with day := d.day + 1 }
  else if d.month < 12 then { d with month := d.month + 1, day := 1 }
  else { year := d.year + 1, month := 1, day := 1 }

theorem le_monthLength (year : Int) (month : Nat) : 28 ≤ monthLength year month := by
  unfold monthLength
  repeat' split
  all_goals decide

theorem monthLength_le (year : Int) (month : Nat) : monthLength year month ≤ 31 := by
  unfold monthLength
  repeat' split
  all_goals decide

theorem valid_first {year : Int} {month : Nat} (hone : 1 ≤ month) (hle : month ≤ 12) :
    Valid ⟨year, month, 1⟩ :=
  ⟨hone, hle, Nat.le_refl 1, Nat.le_trans (Nat.le_add_left 1 27) (le_monthLength year month)⟩

theorem Valid.next {d : Day} (h : d.Valid) : d.next.Valid := by
  unfold Day.next
  split
  · next hlt => exact ⟨h.one_le_month, h.month_le, Nat.succ_le_succ (Nat.zero_le _), hlt⟩
  · split
    · next hlt => exact valid_first (Nat.succ_le_succ (Nat.zero_le _)) hlt
    · exact valid_first (Nat.le_refl 1) (by decide)

/-! ### Years that begin in March -/

/-- Days from 1 March of year 0 to 1 March of the year. -/
def daysToYear (year : Int) : Int :=
  365 * year + year / 4 - year / 100 + year / 400

/-- Days from 1 March of year 0 to the first of the month.  January and February belong to the
year before. -/
def daysToMonth (year : Int) (month : Nat) : Int :=
  daysToYear (if month ≤ 2 then year - 1 else year) +
    daysBefore (if 2 < month then month - 3 else month + 9)

/-- The leap day of a year ends the year that began in March before. -/
theorem daysToYear_eq (year : Int) :
    daysToYear year = daysToYear (year - 1) + yearLength year := by
  unfold daysToYear yearLength
  by_cases hleap : IsLeap year
  · rw [if_pos hleap]
    obtain ⟨hfour, hcentury⟩ := hleap
    omega
  · rw [if_neg hleap]
    unfold IsLeap at hleap
    omega

theorem daysToMonth_succ (year : Int) {month : Nat} (hone : 1 ≤ month) (hlt : month < 12) :
    daysToMonth year (month + 1) = daysToMonth year month + monthLength year month := by
  unfold daysToMonth monthLength
  rcases eq_or_ne month 2 with rfl | hmonth
  · -- the year that begins in March goes on to the next one
    have hyear := daysToYear_eq year
    by_cases hleap : IsLeap year
    · simp [yearLength, hleap, daysBefore] at hyear ⊢
      omega
    · simp [yearLength, hleap, daysBefore] at hyear ⊢
      omega
  · interval_cases month
    all_goals first
      | exact absurd rfl hmonth
      | simp [daysBefore, Int.add_assoc]

theorem daysToMonth_one (year : Int) :
    daysToMonth (year + 1) 1 = daysToMonth year 12 + monthLength year 12 := by
  simp [daysToMonth, monthLength, daysBefore, Int.add_assoc]

theorem daysToYear_era (era : Int) {r : Nat} (hr : r < 400) :
    daysToYear (400 * era + r) = 146097 * era + (r * 365 + r / 4 - r / 100 : Nat) := by
  unfold daysToYear
  omega

/-- The number of a day is counted from the first of its month. -/
theorem dayNumber_eq {d : Day} (hday : 1 ≤ d.day) :
    d.dayNumber = daysToMonth d.year d.month + (d.day - 1 : Nat) - epoch := by
  unfold dayNumber daysToMonth
  simp only [Int.fdiv_eq_ediv_of_nonneg _ (show (0 : Int) ≤ 400 by decide)]
  generalize (if d.month ≤ 2 then d.year - 1 else d.year) = year
  generalize (if 2 < d.month then d.month - 3 else d.month + 9) = month
  obtain ⟨era, r, hr, rfl⟩ : ∃ (era : Int) (r : Nat), r < 400 ∧ year = 400 * era + r :=
    ⟨year / 400, (year % 400).toNat, by omega, by omega⟩
  rw [daysToYear_era era hr, show (400 * era + (r : Int)) / 400 = era by omega,
    show (400 * era + (r : Int) - era * 400).toNat = r by omega, eraDays]
  omega

theorem dayNumber_next {d : Day} (h : d.Valid) : d.next.dayNumber = d.dayNumber + 1 := by
  have hday := h.one_le_day
  rw [dayNumber_eq hday]
  unfold next
  split
  · rw [dayNumber_eq (Nat.succ_le_succ (Nat.zero_le _))]
    show daysToMonth d.year d.month + (d.day + 1 - 1 : Nat) - epoch = _
    omega
  · next hlast =>
    have hlength : d.day = monthLength d.year d.month := Nat.le_antisymm h.day_le (not_lt.mp hlast)
    split
    · next hlt =>
      rw [dayNumber_eq (Nat.le_refl 1)]
      show daysToMonth d.year (d.month + 1) + (0 : Nat) - epoch = _
      rw [daysToMonth_succ d.year h.one_le_month hlt]
      omega
    · next hnot =>
      have htwelve : d.month = 12 := Nat.le_antisymm h.month_le (not_lt.mp hnot)
      rw [dayNumber_eq (Nat.le_refl 1)]
      show daysToMonth (d.year + 1) 1 + (0 : Nat) - epoch = _
      rw [daysToMonth_one, ← htwelve]
      omega

/-! ### Days counted by years and months -/

/-- Days from the start of year 0 to the day, added up year after year and month after month. -/
def counted (d : Day) : Nat :=
  ((List.range d.year.toNat).map fun year : Nat => yearLength year).sum +
    ((List.range' 1 (d.month - 1)).map (monthLength d.year)).sum + (d.day - 1)

theorem daysToMonth_add_one (year : Int) :
    daysToMonth (year + 1) 1 = daysToMonth year 1 + yearLength year := by
  have hyear := daysToYear_eq year
  simp [daysToMonth, daysBefore]
  omega

theorem sum_yearLength (year : Nat) :
    (((List.range year).map fun y : Nat => yearLength y).sum : Nat) =
      daysToMonth year 1 - daysToMonth 0 1 := by
  induction year with
  | zero => simp
  | succ year ih =>
    rw [List.range_succ, List.map_append, List.sum_append, Nat.cast_add, ih, Nat.cast_succ,
      daysToMonth_add_one]
    simp
    omega

theorem sum_monthLength (year : Int) {month : Nat} (hone : 1 ≤ month) (hle : month ≤ 12) :
    (((List.range' 1 (month - 1)).map (monthLength year)).sum : Nat) =
      daysToMonth year month - daysToMonth year 1 := by
  induction month, hone using Nat.le_induction with
  | base => simp
  | succ month hone ih =>
    obtain ⟨k, rfl⟩ := Nat.exists_eq_add_of_le hone
    have hsum := ih (by omega)
    rw [Nat.add_sub_cancel_left] at hsum
    rw [Nat.add_sub_cancel, Nat.add_comm 1 k, List.range'_1_concat, List.map_append,
      List.sum_append, Nat.cast_add, hsum, Nat.add_comm k 1,
      daysToMonth_succ year hone (by omega)]
    simp
    omega

/-- A year is over when the next one begins. -/
theorem daysToMonth_add_lt {d : Day} (h : d.Valid) :
    daysToMonth d.year d.month + (d.day - 1 : Nat) < daysToMonth (d.year + 1) 1 := by
  have hyear := daysToYear_eq d.year
  have hday := h.day_le
  have hmonth := h.month_le
  have hlength := monthLength_le d.year d.month
  have hlong : 365 ≤ yearLength d.year := by
    unfold yearLength
    split <;> decide
  have hfirst : daysToMonth (d.year + 1) 1 = daysToYear d.year + 306 := by
    simp [daysToMonth, daysBefore]
  rw [hfirst, daysToMonth, daysBefore]
  rcases Nat.lt_or_ge 2 d.month with hlate | hearly
  · rw [if_neg (not_le.mpr hlate), if_pos hlate]
    omega
  · rw [if_pos hearly, if_neg (not_lt.mpr hearly)]
    omega

theorem counted_eq {d : Day} (h : d.Valid) (hyear : 0 ≤ d.year) :
    (d.counted : Int) = d.dayNumber + epoch - daysToMonth 0 1 := by
  obtain ⟨year, hyear⟩ := Int.eq_ofNat_of_zero_le hyear
  rw [dayNumber_eq h.one_le_day, counted, Nat.cast_add, Nat.cast_add,
    sum_monthLength d.year h.one_le_month h.month_le, hyear, Int.toNat_natCast, sum_yearLength]
  omega

/-- The number of a day is the count of days since the start of 1970. -/
theorem dayNumber_eq_counted {d : Day} (h : d.Valid) (hyear : 0 ≤ d.year) :
    d.dayNumber = d.counted - counted ⟨1970, 1, 1⟩ := by
  have hd := counted_eq h hyear
  have hepoch := counted_eq (d := ⟨1970, 1, 1⟩) (valid_first (by decide) (by decide)) (by decide)
  have hzero : dayNumber ⟨1970, 1, 1⟩ = 0 := rfl
  omega

/-! ### The day of a number -/

/-- A year begins by a day exactly if it is not later than the year of the day. -/
theorem first_le_dayNumber_iff {d : Day} (h : d.Valid) (year : Int) :
    dayNumber ⟨year, 1, 1⟩ ≤ d.dayNumber ↔ year ≤ d.year := by
  have hmono : Monotone fun year => daysToMonth year 1 :=
    monotone_int_of_le_succ fun year => by
      rw [daysToMonth_add_one]
      omega
  rw [dayNumber_eq (Nat.le_refl 1), dayNumber_eq h.one_le_day]
  constructor
  · intro hle
    by_contra hlater
    have hlast := hmono (Int.add_one_le_of_lt (not_le.mp hlater))
    have hwithin := daysToMonth_add_lt h
    dsimp only at hlast hle
    omega
  · intro hle
    have hfirst := hmono hle
    have hmonths := sum_monthLength d.year h.one_le_month h.month_le
    dsimp only at hfirst ⊢
    omega

theorem div_add {m x t n : Nat} (hm : 0 < m) (h : n = m * x + t) : n / m = x + t / m := by
  rw [h, Nat.mul_add_div hm]

/-- The last day of an era would begin a fifth century; the formula takes that one off again. -/
theorem centuries_eq {b r : Nat} (hb : b < 4) (hr : r ≤ 36524) (hlast : r = 36524 → b = 3) :
    (36524 * b + r) / 36524 = b + (36524 * b + r) / 146096 := by
  rcases Nat.lt_or_eq_of_le hr with hlt | rfl
  · rw [div_add (by decide) rfl, Nat.div_eq_of_lt hlt, Nat.div_eq_of_lt (by omega)]
  · obtain rfl := hlast rfl
    rfl

/-- Whole groups of 1460 days among the days that are left once 1460 of each of the groups of
four years are gone.  There is at most one, not on the first day of a year, and always on a leap
day. -/
theorem surplus_bounds {s k t : Nat} (hs : s < 4) (hk : k ≤ 365) (hlong : k = 365 → s = 3)
    (ht : t ≤ 96) :
    (t + 365 * s + k) / 1460 ≤ k ∧ k < 365 + (t + 365 * s + k) / 1460 := by
  omega

/-- The year within an era, out of the days before it: `b` centuries, `q` groups of four years,
`s` years and `k` days. -/
theorem yearOfEra_eq {b q s k n : Nat} (hb : b < 4) (hq : q < 25) (hs : s < 4) (hk : k ≤ 365)
    (hlong : k = 365 → s = 3 ∧ (q = 24 → b = 3))
    (hn : n = 36524 * b + (1461 * q + 365 * s + k)) :
    (n - n / 1460 + n / 36524 - n / 146096) / 365 = 100 * b + 4 * q + s := by
  have hcentury : n / 36524 = b + n / 146096 := by
    rw [hn]
    exact centuries_eq hb (by omega) (by omega)
  have hfour : n / 1460 = 25 * b + q + (24 * b + q + 365 * s + k) / 1460 :=
    div_add (by decide) (by omega)
  obtain ⟨hle, hlt⟩ := surplus_bounds hs hk (fun h => (hlong h).1) (show 24 * b + q ≤ 96 by omega)
  rw [hcentury, hfour]
  generalize (24 * b + q + 365 * s + k) / 1460 = ε at hle hlt
  obtain ⟨j, rfl⟩ := Nat.exists_eq_add_of_le hle
  rw [show n - (25 * b + q + ε) = 36499 * b + 1460 * q + 365 * s + j by omega, ← Nat.add_assoc,
    Nat.add_sub_cancel, div_add (x := 100 * b + 4 * q + s) (t := j) (by decide) (by omega),
    Nat.div_eq_of_lt (by omega), Nat.add_zero]

/-- The month counted from March, out of the days of the year before; there are 365 of them only
before a leap day. -/
theorem month_eq {year : Int} {month day : Nat} (hone : 1 ≤ month) (hle : month ≤ 12)
    (hday : 1 ≤ day) (hlast : day ≤ monthLength year month) {m k : Nat}
    (hm : m = if 2 < month then month - 3 else month + 9) (hk : k = daysBefore m + (day - 1)) :
    (5 * k + 2) / 153 = m ∧ k ≤ 365 ∧ (k = 365 → month ≤ 2 ∧ IsLeap year) := by
  rw [daysBefore] at hk
  by_cases hleap : IsLeap year
  · interval_cases month
    all_goals simp [monthLength, hleap] at hlast hm ⊢; omega
  · interval_cases month
    all_goals simp [monthLength, hleap] at hlast hm ⊢; omega

/-- The day of a number that is written as eras, centuries, groups of four years, years and
days. -/
theorem ofDayNumber_eq (era : Int) {b q s k : Nat} (hb : b < 4) (hq : q < 25) (hs : s < 4)
    (hk : k ≤ 365) (hlong : k = 365 → s = 3 ∧ (q = 24 → b = 3)) {m month : Nat}
    (hm : (5 * k + 2) / 153 = m) (hmonth : (if m < 10 then m + 3 else m - 9) = month) {z : Int}
    (hz : z + epoch = 146097 * era + (36524 * b + (1461 * q + 365 * s + k) : Nat)) :
    ofDayNumber z =
      { year := era * 400 + (100 * b + 4 * q + s : Nat) + (if month ≤ 2 then 1 else 0)
        month
        day := k - daysBefore m + 1 } := by
  obtain ⟨n, hn⟩ : ∃ n, n = 36524 * b + (1461 * q + 365 * s + k) := ⟨_, rfl⟩
  have hlt : n < 146097 := by omega
  rw [← hn] at hz
  have hyear := yearOfEra_eq hb hq hs hk hlong hn
  have hfour : (100 * b + 4 * q + s) / 4 = 25 * b + q := by omega
  have hhundred : (100 * b + 4 * q + s) / 100 = b := by omega
  have hday : n - (365 * (100 * b + 4 * q + s) + (25 * b + q) - b) = k := by omega
  unfold ofDayNumber
  have hera : (z + epoch).fdiv eraDays = era := by
    rw [hz, Int.fdiv_eq_ediv_of_nonneg _ (by decide), eraDays]
    omega
  have hrest : (z + epoch - era * eraDays).toNat = n := by
    rw [hz, eraDays]
    omega
  simp only [hera, hrest, hyear, hfour, hhundred, hday, hm, hmonth]

/-- Years are eras, centuries, groups of four years and years. -/
theorem exists_year (y : Int) : ∃ (era : Int) (b q s : Nat), b < 4 ∧ q < 25 ∧ s < 4 ∧
    y = 400 * era + (100 * b + 4 * q + s : Nat) := by
  obtain ⟨era, r, hr, hy⟩ : ∃ (era : Int) (r : Nat), r < 400 ∧ y = 400 * era + r :=
    ⟨y / 400, (y % 400).toNat, by omega, by omega⟩
  refine ⟨era, r / 100, r % 100 / 4, r % 100 % 4, by omega, by omega, by omega, ?_⟩
  rw [hy, Nat.add_assoc, Nat.div_add_mod, Nat.div_add_mod]

/-- The year that ends with a leap day is the last of four, and the last of a century only at the
end of an era. -/
theorem last_of_leap {year era : Int} {b q s : Nat} (hb : b < 4) (hs : s < 4)
    (hleap : IsLeap year) (hyear : year - 1 = 400 * era + (100 * b + 4 * q + s : Nat)) :
    s = 3 ∧ (q = 24 → b = 3) := by
  obtain ⟨hfour, hcentury⟩ := hleap
  have hthree : s = 3 := by omega
  refine ⟨hthree, fun hq => ?_⟩
  subst hthree hq
  have := hcentury (by omega)
  omega

/-- Every day of the calendar is found by its number. -/
theorem ofDayNumber_dayNumber {d : Day} (h : d.Valid) : ofDayNumber d.dayNumber = d := by
  obtain ⟨year, month, day⟩ := d
  obtain ⟨hone, hle, hday, hlast⟩ := h
  simp only at hone hle hday hlast
  obtain ⟨m, hm⟩ : ∃ m, m = if 2 < month then month - 3 else month + 9 := ⟨_, rfl⟩
  obtain ⟨k, hk⟩ : ∃ k, k = daysBefore m + (day - 1) := ⟨_, rfl⟩
  obtain ⟨hmonth, hle365, hlong⟩ := month_eq hone hle hday hlast hm hk
  obtain ⟨y, hy⟩ : ∃ y, y = if month ≤ 2 then year - 1 else year := ⟨_, rfl⟩
  obtain ⟨era, b, q, s, hb, hq, hs, hsplit⟩ := exists_year y
  have hleap : k = 365 → s = 3 ∧ (q = 24 → b = 3) := by
    intro hlast
    obtain ⟨hearly, hleap⟩ := hlong hlast
    rw [if_pos hearly] at hy
    exact last_of_leap hb hs hleap (hy ▸ hsplit)
  have hback : (if m < 10 then m + 3 else m - 9) = month := by
    subst hm
    split <;> split <;> omega
  have hnumber : dayNumber ⟨year, month, day⟩ + epoch =
      146097 * era + (36524 * b + (1461 * q + 365 * s + k) : Nat) := by
    rw [dayNumber_eq hday]
    simp only [daysToMonth]
    rw [← hm, ← hy, hsplit, daysToYear_era era (by omega), hk]
    have hfour : (100 * b + 4 * q + s) / 4 = 25 * b + q := by omega
    have hhundred : (100 * b + 4 * q + s) / 100 = b := by omega
    rw [hfour, hhundred]
    omega
  rw [ofDayNumber_eq era hb hq hs hle365 hleap hmonth hback hnumber]
  simp only [mk.injEq, true_and]
  refine ⟨?_, by omega⟩
  by_cases hearly : month ≤ 2
  · rw [if_pos hearly] at hy ⊢
    omega
  · rw [if_neg hearly] at hy ⊢
    omega

/-- Every number is that of a day of the calendar. -/
theorem exists_dayNumber_eq (n : Int) : ∃ d : Day, d.Valid ∧ d.dayNumber = n := by
  -- from a first of March that is early enough, one day after the other
  obtain ⟨era, k, hn⟩ : ∃ (era : Int) (k : Nat), n = 146097 * era - epoch + k :=
    ⟨(n + epoch) / 146097, ((n + epoch) % 146097).toNat, by omega⟩
  subst hn
  induction k with
  | zero =>
    refine ⟨⟨400 * era, 3, 1⟩, valid_first (by decide) (by decide), ?_⟩
    rw [dayNumber_eq (Nat.le_refl 1)]
    have hyear := daysToYear_era era (r := 0) (by decide)
    simp [daysToMonth, daysBefore] at hyear ⊢
    omega
  | succ k ih =>
    obtain ⟨d, hd, hnumber⟩ := ih
    refine ⟨d.next, hd.next, ?_⟩
    rw [dayNumber_next hd, hnumber]
    omega

theorem valid_ofDayNumber (n : Int) : (ofDayNumber n).Valid := by
  obtain ⟨d, hd, rfl⟩ := exists_dayNumber_eq n
  rw [ofDayNumber_dayNumber hd]
  exact hd

theorem dayNumber_ofDayNumber (n : Int) : (ofDayNumber n).dayNumber = n := by
  obtain ⟨d, hd, rfl⟩ := exists_dayNumber_eq n
  rw [ofDayNumber_dayNumber hd]

/-- From one number to the next the calendar goes on by a day. -/
theorem ofDayNumber_add_one (n : Int) : ofDayNumber (n + 1) = (ofDayNumber n).next := by
  obtain ⟨d, hd, rfl⟩ := exists_dayNumber_eq n
  rw [← dayNumber_next hd, ofDayNumber_dayNumber hd, ofDayNumber_dayNumber hd.next]

end FreshTag.Day
