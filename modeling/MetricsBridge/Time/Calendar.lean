/-!
# The calendar

Dates of the proleptic Gregorian calendar and their distance from 1970-01-01.
-/
namespace MetricsBridge

/-- A date, which need not exist. -/
structure Date where
  year : Nat
  month : Nat
  day : Nat
  deriving DecidableEq, Repr

/-- Years with a 29th of February. -/
def isLeapYear (year : Nat) : Bool :=
  year % 4 = 0 && (year % 100 ≠ 0 || year % 400 = 0)

/-- The number of days of a month; months beyond the twelfth have none. -/
def daysInMonth (year month : Nat) : Nat :=
  match month with
  | 1 | 3 | 5 | 7 | 8 | 10 | 12 => 31
  | 4 | 6 | 9 | 11 => 30
  | 2 => if isLeapYear year then 29 else 28
  | _ => 0

namespace Date

/-- The date is one of the calendar. -/
def exists? (d : Date) : Bool :=
  1 ≤ d.day && d.day ≤ daysInMonth d.year d.month

/-- The number of days from 0000-01-01 to the first day of a year. -/
def daysBeforeYear (year : Nat) : Nat :=
  if year = 0 then 0
  else
    let past := year - 1
    365 * year + past / 4 - past / 100 + past / 400 + 1

/-- The number of days from the first day of the year to the first day of a month. -/
def daysBeforeMonth (year month : Nat) : Nat :=
  ((List.range (month - 1)).map fun m => daysInMonth year (m + 1)).foldr (· + ·) 0

/-- The number of days from 1970-01-01 to the date. -/
def sinceEpoch (d : Date) : Int :=
  (daysBeforeYear d.year + daysBeforeMonth d.year d.month + d.day - 1 : Nat) - 719528

end Date

end MetricsBridge
