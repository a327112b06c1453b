/-
The Gregorian calendar, extended backwards, and days counted from the first of January of year 0.

`Date.dayNumber` counts the days before a date and `Date.ofDayNumber` is the date of a count. The calendar is kept up to the
end of year `lastYear`.
-/
namespace Landmark

/-- a day of the calendar -/
structure Date where
  year : Nat
  month : Nat
  day : Nat
  deriving DecidableEq, Repr

namespace Calendar

/-- last year the calendar is kept for -/
def lastYear : Nat := 262142

/-- days from the first of January of year 0 to the first of January 1970 -/
def epochDay : Int := 719528

def isLeap (y : Nat) : Bool :=
  y % 4 == 0 && (y % 100 != 0 || y % 400 == 0)

/-- lengths of the twelve months -/
def monthLengths (leap : Bool) : List Nat :=
  [31, if leap then 29 else 28, 31, 30, 31, 30, 31, 31, 30, 31, 30, 31]

/-- days of several months -/
def totalDays (lengths : List Nat) : Nat :=
  lengths.foldr (· + ·) 0

/-- days before the first of January of year `y` -/
def yearStart (y : Nat) : Nat :=
  365 * y + (y + 3) / 4 - (y + 99) / 100 + (y + 399) / 400

/-- the year that holds day `n`: an estimate from the mean year, mended by one where it is off -/
def yearOf (n : Nat) : Nat :=
  let y := 400 * n / 146097
  if yearStart (y + 1) ≤ n then y + 1 else if n < yearStart y then y - 1 else y

/-- month and day of day `n` of a year whose remaining months have the given lengths, `m` being the first of them -/
def monthDay (m n : Nat) : List Nat → Nat × Nat
  | [] => (m, n + 1)
  | l :: ls => if n < l then (m, n + 1) else monthDay (m + 1) (n - l) ls

end Calendar

namespace Date

/-- the date exists and the calendar is kept for it -/
def valid (d : Date) : Bool :=
  d.year ≤ Calendar.lastYear && 1 ≤ d.day
    && (d.month != 0 && match (Calendar.monthLengths (Calendar.isLeap d.year))[d.month - 1]? with
      | some l => d.day ≤ l
      | none => false)

/-- the date with these numbers, if there is one -/
def ofNumbers (year month day : Nat) : Option Date :=
  let d : Date := ⟨year, month, day⟩
  if d.valid then some d else none

/-- number of days before the date -/
def dayNumber (d : Date) : Nat :=
  Calendar.yearStart d.year + Calendar.totalDays ((Calendar.monthLengths (Calendar.isLeap d.year)).take (d.month - 1)) + (d.day - 1)

/-- the date after `n` days -/
def ofDayNumber (n : Nat) : Date :=
  let y := Calendar.yearOf n
  let (m, d) := Calendar.monthDay 1 (n - Calendar.yearStart y) (Calendar.monthLengths (Calendar.isLeap y))
  ⟨y, m, d⟩

end Date

end Landmark
