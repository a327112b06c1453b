/-
Build dates as eight-digit numbers.

A build date is the number year, month, day written together in decimal, so that later days have larger numbers and every
test against a threshold is a comparison of numbers. `ofTimestamp` takes seconds since the first of January 1970, UTC.
-/
import Landmark.Calendar

namespace Landmark

/-- a date as the number yyyymmdd; any word may stand here -/
structure BuildDate where
  value : UInt32
  deriving DecidableEq, Repr

namespace BuildDate

def ofDate (d : Date) : BuildDate :=
  ⟨UInt32.ofNat (d.year * 10000 + d.month * 100 + d.day)⟩

/-- the UTC day a timestamp falls on; none before year 0 or past the last year of the calendar -/
def ofTimestamp (seconds : Int) : Option BuildDate :=
  let n := seconds / 86400 + Calendar.epochDay
  if n < 0 then none
  else
    let d := Date.ofDayNumber n.toNat
    if d.year ≤ Calendar.lastYear then some (ofDate d) else none

/-- the date, if the number names one -/
def date? (b : BuildDate) : Option Date :=
  let v := b.value.toNat
  Date.ofNumbers (v / 10000) (v / 100 % 100) (v % 100)

def text (b : BuildDate) : String :=
  toString b.value.toNat

end BuildDate

end Landmark
