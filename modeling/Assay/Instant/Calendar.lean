/-!
# The civil calendar

Days are counted from the first of January 1970 in the Gregorian calendar, extended to all years and
with a year zero. `dayNumber` counts the days up to a date and `Day.ofNumber` finds the date of a
day: the year by the length of a mean year and a step to either side, the month by taking the lengths
of the months off the day of the year.
-/
namespace Assay

/-- A date of the calendar. Months and days count from one. -/
structure Day where
  /-- The year; the year before one is zero. -/
  year : Int
  /-- The month, from one. -/
  month : Nat
  /-- The day of the month, from one. -/
  day : Nat
deriving DecidableEq

namespace Calendar

/-- Whether a year has a 29th of February. -/
def isLeap (year : Int) : Bool := year % 4 == 0 && (year % 100 != 0 || year % 400 == 0)

/-- The lengths of the months of a year. -/
def monthLengths (year : Int) : List Nat :=
  [31, if isLeap year then 29 else 28, 31, 30, 31, 30, 31, 31, 30, 31, 30, 31]

/-- The number of days from the first day of year zero to the first day of a year. -/
def yearStart (year : Int) : Int :=
  365 * year + (year + 3) / 4 - (year + 99) / 100 + (year + 399) / 400

/-- The number of days from the first day of year zero to the first of January 1970. -/
def epochDay : Int := 719528

/-- The year of the day that comes a number of days after the first day of year zero. -/
def yearOf (days : Int) : Int :=
  let guess := days * 400 / 146097
  if days < yearStart guess then guess - 1
  else if yearStart (guess + 1) ≤ days then guess + 1
  else guess

/-- Take whole months off a day of the year: the number of months, and the days left. -/
def splitMonths : List Nat → Nat → Nat × Nat
  | [], days => (0, days)
  | length :: rest, days =>
    if days < length then (0, days)
    else
      let (months, left) := splitMonths rest (days - length)
      (months + 1, left)

end Calendar

namespace Day

/-- Whether the calendar has the date. -/
def isValid (date : Day) : Bool :=
  match (Calendar.monthLengths date.year)[date.month - 1]? with
  | some length => decide (1 ≤ date.month ∧ 1 ≤ date.day ∧ date.day ≤ length)
  | none => false

/-- The number of days from the first of January 1970 to a date. -/
def number (date : Day) : Int :=
  Calendar.yearStart date.year
    + ((Calendar.monthLengths date.year).take (date.month - 1)).foldr Nat.add 0 + date.day - 1
    - Calendar.epochDay

/-- The date that comes a number of days after the first of January 1970. -/
def ofNumber (days : Int) : Day :=
  let count := days + Calendar.epochDay
  let year := Calendar.yearOf count
  let (months, left) :=
    Calendar.splitMonths (Calendar.monthLengths year) (count - Calendar.yearStart year).toNat
  ⟨year, months + 1, left + 1⟩

end Day

end Assay
