/-!
The Gregorian calendar, extended without end in both directions, as a numbering of days.

Years are counted from March, so that the leap day is the last day of its year and the lengths of
the months before it follow one rule: month `m` (March is 0) starts `(153 * m + 2) / 5` days into
the year.  Four hundred years always have 146097 days, and the number of a day is that of its four
hundred years plus its place within them.
-/

namespace PushBuild.Calendar

/-- A day of the calendar. -/
structure Date where
  year : Int
  /-- 1 for January -/
  month : Nat
  day : Nat
deriving Repr, DecidableEq

/-- Every fourth year, but of the full hundreds only every fourth. -/
def isLeapYear (year : Int) : Bool :=
  year % 4 == 0 && (year % 100 != 0 || year % 400 == 0)

/-- The number of days in a month, and 0 for a number that is no month. -/
def daysInMonth (year : Int) (month : Nat) : Nat :=
  match month with
  | 2 => if isLeapYear year then 29 else 28
  | 4 | 6 | 9 | 11 => 30
  | 1 | 3 | 5 | 7 | 8 | 10 | 12 => 31
  | _ => 0

/-- Whether the calendar has this day. -/
def Date.isValid (d : Date) : Bool :=
  1 ≤ d.day && d.day ≤ daysInMonth d.year d.month

/-- The days in four hundred years. -/
def eraDays : Int := 146097

/-- The days from 1 March of the year 0 to 1 January 1970. -/
def epochOffset : Int := 719468

/-- Days into a year from March on, for the first day of month `m` counted from March. -/
def monthStart (m : Nat) : Nat := (153 * m + 2) / 5

/-- Days into four hundred years from March on, for the first day of year `y` of them. -/
def yearStart (y : Nat) : Nat := 365 * y + y / 4 - y / 100

/-- The number of a day; 1 January 1970 has the number 0. -/
def Date.toDays (d : Date) : Int :=
  let year := if d.month ≤ 2 then d.year - 1 else d.year
  let month := (d.month + 9) % 12
  year / 400 * eraDays + (yearStart (year % 400).toNat + monthStart month + (d.day - 1) : Nat) -
    epochOffset

/-- The day with a given number. -/
def Date.ofDays (n : Int) : Date :=
  let shifted := n + epochOffset
  let era := shifted / eraDays
  let inEra := (shifted % eraDays).toNat
  let century := min 3 (inEra / 36524)
  let inCentury := inEra - century * 36524
  let inFour := inCentury % 1461
  let lastYear := min 3 (inFour / 365)
  let inYear := inFour - lastYear * 365
  let month := (5 * inYear + 2) / 153
  let year := era * 400 + (century * 100 + inCentury / 1461 * 4 + lastYear : Nat)
  { year := if month < 10 then year else year + 1
    month := if month < 10 then month + 3 else month - 9
    day := inYear - monthStart month + 1 }

example : (Date.mk 1970 1 1).toDays = 0 := by decide
example : Date.ofDays 0 = ⟨1970, 1, 1⟩ := by decide
example : Date.ofDays (Date.mk 2024 2 29).toDays = ⟨2024, 2, 29⟩ := by decide
example : Date.ofDays (Date.mk (-1) 3 1).toDays = ⟨-1, 3, 1⟩ := by decide

end PushBuild.Calendar
