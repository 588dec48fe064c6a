import ApiLoom.Document.Value

/-!
# The calendar

Days of the proleptic Gregorian calendar in the years 1 to 9999, and days given
by week and weekday.
-/

namespace ApiLoom.Calendar

def isLeap (year : Nat) : Bool :=
  year % 4 = 0 && (year % 100 ≠ 0 || year % 400 = 0)

def daysInMonth (year month : Nat) : Nat :=
  match month with
  | 2 => if isLeap year then 29 else 28
  | 4 | 6 | 9 | 11 => 30
  | _ => 31

/-- Number of days before the first of January of a year, the first day of year 1 being day 1. -/
def daysBefore (year : Nat) : Nat :=
  let y := year - 1
  y * 365 + y / 4 - y / 100 + y / 400

def lastDay : Nat := daysBefore 10000

/-- Why three numbers are not a day. -/
inductive DayFault where
  | year (found : Nat)
  | month
  | day
deriving DecidableEq, Repr

def DayFault.message : DayFault → String
  | year found => s!"year {found} is out of range"
  | month => "month must be in 1..12"
  | day => "day is out of range for month"

def checkDay (year month day : Nat) : Except DayFault Day :=
  if year < 1 ∨ 9999 < year then .error (.year year)
  else if month < 1 ∨ 12 < month then .error .month
  else if day < 1 ∨ daysInMonth year month < day then .error .day
  else .ok ⟨year, month, day⟩

/-- The weekday of the first of January; Monday is zero. -/
def firstWeekday (year : Nat) : Nat :=
  daysBefore year % 7

/-- A year that begins on a Thursday, or a leap year that begins on a Wednesday, has 53 weeks. -/
def weeksInYear (year : Nat) : Nat :=
  if firstWeekday year = 3 ∨ (firstWeekday year = 2 ∧ isLeap year) then 53 else 52

/-- The Monday of the week that holds the first Thursday of the year. -/
def firstMonday (year : Nat) : Int :=
  let first : Int := daysBefore year + 1
  let monday := first - firstWeekday year
  if 3 < firstWeekday year then monday + 7 else monday

/-- Whether a year has this week, and the week this day, within the years of the calendar. -/
def isWeekDay (year week day : Nat) : Bool :=
  let ordinal := firstMonday year + (week - 1) * 7 + day - 1
  1 ≤ year && 1 ≤ week && week ≤ weeksInYear year && 1 ≤ day && day ≤ 7 &&
    1 ≤ ordinal && ordinal ≤ lastDay

end ApiLoom.Calendar
