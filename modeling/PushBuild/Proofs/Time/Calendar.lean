import Mathlib.Tactic.IntervalCases
import PushBuild.Time.Calendar

/-!
# Days and dates

The date of a day is found by division, century by century and year by year, and the day of a date
by counting the days before it.

1. **Places.**  A day has a place: its four hundred years, and within them its century, its four
   years, its year and its day, counted from March (`Place.ofDays`).  A year is only as long as its
   place allows: the 366th day is that of a leap year (`Place.isLeapYear`).
2. **Months.**  The day of a year tells its date (`dateAt`), which is one of the calendar
   (`isValid_dateAt`) and is counted back to the same day (`toDays_dateAt`).
3. **Days.**  So the date of a day is one of the calendar (`Date.isValid_ofDays`), and its number is
   that day (`Date.toDays_ofDays`).
-/

namespace PushBuild.Calendar

/-! ## Places -/

/-- Where a day lies: its century of four hundred years, its four years of the century, its year of
these, and its day of the year, all counted from 0 and from March. -/
structure Place where
  era : Int
  century : Nat
  four : Nat
  year : Nat
  day : Nat
  century_le : century ≤ 3
  four_le : four ≤ 24
  year_le : year ≤ 3
  day_le : day ≤ 365
  /-- a 366th day is that of a fourth year, and in the last four years of a century only if it is
  the last one -/
  long : day = 365 → year = 3 ∧ (four = 24 → century = 3)

namespace Place

/-- The year within its four hundred. -/
def yearOfEra (p : Place) : Nat := p.century * 100 + p.four * 4 + p.year

/-- The place of a day, by the divisions that find its date. -/
def ofDays (n : Int) : Place :=
  -- the last century of the four and the last year of four are a day longer than the others, so a
  -- quotient of 4 stands for their last day and is taken back to 3
  let inEra := ((n + epochOffset) % eraDays).toNat
  let century := min 3 (inEra / 36524)
  let inCentury := inEra - century * 36524
  let inFour := inCentury % 1461
  let lastYear := min 3 (inFour / 365)
  have hera : inEra < 146097 := by
    simp only [inEra, eraDays]
    omega
  have hcentury : inCentury ≤ 36524 ∧ (inCentury = 36524 → century = 3) := by
    simp only [inCentury, century]
    omega
  { era := (n + epochOffset) / eraDays
    century
    four := inCentury / 1461
    year := lastYear
    day := inFour - lastYear * 365
    century_le := Nat.min_le_left _ _
    four_le := by omega
    year_le := Nat.min_le_left _ _
    day_le := by
      simp only [lastYear, inFour]
      omega
    long := by
      simp only [lastYear, inFour]
      omega }

variable (p : Place)

/-- The year of a place is one of the four hundred. -/
theorem yearOfEra_lt : p.yearOfEra < 400 := by
  have hcentury := p.century_le
  have hfour := p.four_le
  have hyear := p.year_le
  unfold yearOfEra
  omega

/-- The days before a year are those of the centuries, the four years and the years before it. -/
theorem yearStart_yearOfEra :
    yearStart p.yearOfEra = p.century * 36524 + p.four * 1461 + p.year * 365 := by
  have hle := p.four_le
  have hyear := p.year_le
  have hfour : p.yearOfEra / 4 = p.century * 25 + p.four := by
    unfold yearOfEra
    omega
  have hcentury : p.yearOfEra / 100 = p.century := by
    unfold yearOfEra
    omega
  rw [yearStart, hfour, hcentury, yearOfEra]
  omega

/-- The number of a day is found from its place. -/
theorem ofDays_eq (n : Int) :
    (ofDays n).era * eraDays + (yearStart (ofDays n).yearOfEra + (ofDays n).day : Nat) =
      n + epochOffset := by
  rw [yearStart_yearOfEra]
  simp only [ofDays, eraDays]
  omega

/-- The 366th day is before the March of a leap year. -/
theorem isLeapYear (h : p.day = 365) : isLeapYear (p.era * 400 + p.yearOfEra + 1) = true := by
  obtain ⟨hyear, hlast⟩ := p.long h
  have hfour := p.four_le
  have hcentury := p.century_le
  have hnumber : p.era * 400 + (p.yearOfEra : Int) + 1 =
      p.era * 400 + p.century * 100 + (p.four + 1) * 4 := by
    unfold yearOfEra
    rw [hyear]
    omega
  rw [hnumber]
  unfold Calendar.isLeapYear
  simp only [Bool.and_eq_true, Bool.or_eq_true, beq_iff_eq, bne_iff_ne]
  omega

end Place

/-! ## Months -/

/-- The date of a day of a year, both counted from March. -/
def dateAt (year : Int) (day : Nat) : Date :=
  let month := (5 * day + 2) / 153
  { year := if month < 10 then year else year + 1
    month := if month < 10 then month + 3 else month - 9
    day := day - monthStart month + 1 }

section

variable {year : Int} {day : Nat}

/-- The month begins before the day, or on it. -/
theorem monthStart_le (day : Nat) : monthStart ((5 * day + 2) / 153) ≤ day := by
  unfold monthStart
  omega

/-- **The date of a day** is one of the calendar, if the year is long enough to have the day. -/
theorem isValid_dateAt (hday : day ≤ 365) (hlong : day = 365 → isLeapYear (year + 1) = true) :
    (dateAt year day).isValid = true := by
  have hmonth : (5 * day + 2) / 153 < 12 := by omega
  unfold Date.isValid dateAt
  simp only [Bool.and_eq_true, decide_eq_true_eq]
  refine ⟨Nat.le_add_left _ _, ?_⟩
  -- the length of each month is the distance between two starts, except for the last one
  generalize hm : (5 * day + 2) / 153 = m at hmonth ⊢
  by_cases hlast : m = 11
  · subst hlast
    show day - 337 + 1 ≤ if isLeapYear (year + 1) then 29 else 28
    split
    · omega
    · next hleap =>
      have hshort : day ≠ 365 := fun h => hleap (hlong h)
      omega
  · unfold monthStart
    interval_cases m <;>
      simp only [reduceIte, Nat.reduceLT, Nat.reduceAdd, Nat.reduceSub, daysInMonth] <;> omega

/-- The day of a date is counted back, whatever the four hundred years. -/
theorem toDays_dateAt {era : Int} {y : Nat} (hy : y < 400) (hday : day ≤ 365) :
    (dateAt (era * 400 + y) day).toDays =
      era * eraDays + (yearStart y + day : Nat) - epochOffset := by
  have hstart := monthStart_le day
  have hmonth : (5 * day + 2) / 153 < 12 := by omega
  unfold dateAt Date.toDays
  dsimp only
  -- nothing but the start of the month and its number is used of the day: from here on `m` is any
  -- month, counted from March
  generalize (5 * day + 2) / 153 = m at hstart hmonth ⊢
  -- January and February belong to the next year of the calendar, which is undone here
  have hyear : (if (if m < 10 then m + 3 else m - 9) ≤ 2 then
      (if m < 10 then era * 400 + (y : Int) else era * 400 + y + 1) - 1
      else if m < 10 then era * 400 + (y : Int) else era * 400 + y + 1) = era * 400 + y := by
    split_ifs <;> omega
  have hback : ((if m < 10 then m + 3 else m - 9) + 9) % 12 = m := by
    split_ifs <;> omega
  have hera : (era * 400 + (y : Int)) / 400 = era := by omega
  have hplace : ((era * 400 + (y : Int)) % 400).toNat = y := by omega
  rw [hyear, hback, hera, hplace, Nat.add_sub_cancel]
  omega

end

/-! ## Days -/

/-- Months and days have two digits. -/
theorem Date.month_lt_of_isValid {d : Date} (h : d.isValid = true) : d.month < 100 := by
  by_contra hlarge
  have hnone : daysInMonth d.year d.month = 0 := by
    unfold daysInMonth
    split <;> omega
  simp only [isValid, Bool.and_eq_true, decide_eq_true_eq, hnone] at h
  omega

/-- No month has more than 31 days. -/
theorem Date.day_lt_of_isValid {d : Date} (h : d.isValid = true) : d.day < 100 := by
  have hmost : daysInMonth d.year d.month ≤ 31 := by
    unfold daysInMonth
    split
    · split <;> decide
    all_goals decide
  simp only [isValid, Bool.and_eq_true, decide_eq_true_eq] at h
  omega

/-- The date of a day is read off its place. -/
theorem Date.ofDays_eq (n : Int) : Date.ofDays n =
    dateAt ((Place.ofDays n).era * 400 + (Place.ofDays n).yearOfEra) (Place.ofDays n).day := rfl

/-- **The date of a day is one of the calendar.** -/
theorem Date.isValid_ofDays (n : Int) : (Date.ofDays n).isValid = true := by
  rw [ofDays_eq]
  exact isValid_dateAt (Place.ofDays n).day_le (Place.ofDays n).isLeapYear

/-- **The number of the date of a day is the day.** -/
theorem Date.toDays_ofDays (n : Int) : (Date.ofDays n).toDays = n := by
  rw [ofDays_eq, toDays_dateAt (Place.ofDays n).yearOfEra_lt (Place.ofDays n).day_le,
    Place.ofDays_eq]
  omega

end PushBuild.Calendar
