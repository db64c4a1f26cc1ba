import DbImage.Instances

/-!
Dates and times of day, as a configuration text may give them.
-/

namespace DbImage

structure Date where
  year : Nat
  month : Nat
  day : Nat
  deriving DecidableEq, Repr

namespace Date

def isLeap (year : Nat) : Bool :=
  year % 4 == 0 && (year % 100 != 0 || year % 400 == 0)

def daysIn (year month : Nat) : Nat :=
  if month = 2 then (if isLeap year then 29 else 28)
  else if month = 4 ∨ month = 6 ∨ month = 9 ∨ month = 11 then 30
  else 31

/-- The calendar runs from the year 1 to the year 9999. -/
def ofParts? (year month day : Nat) : Option Date :=
  if 1 ≤ year ∧ year ≤ 9999 ∧ 1 ≤ month ∧ month ≤ 12 ∧ 1 ≤ day ∧ day ≤ daysIn year month then
    some ⟨year, month, day⟩
  else none

/-- Days before the first of January of a year. -/
def daysBefore (year : Nat) : Nat :=
  (year - 1) * 365 + (year - 1) / 4 - (year - 1) / 100 + (year - 1) / 400

/-- The number of the day, counted from the first day of the year 1. -/
def ordinal (d : Date) : Nat :=
  daysBefore d.year + ((List.range (d.month - 1)).map fun m => daysIn d.year (m + 1)).sum + d.day

end Date

/-- A moment: a day, a time of day, and the seconds by which its clock is ahead of universal time, if
that is known. -/
structure Moment where
  date : Date
  hour : Nat
  minute : Nat
  second : Nat
  microsecond : Nat
  ahead : Option Int
  deriving DecidableEq, Repr

namespace Moment

/-- A clock is less than a day ahead or behind. -/
def ofParts? (date : Date) (hour minute second microsecond : Nat) (ahead : Option Int) :
    Option Moment :=
  if hour < 24 ∧ minute < 60 ∧ second < 60 ∧ microsecond < 1000000
      ∧ ahead.all (fun s => s.natAbs < 86400) then
    some ⟨date, hour, minute, second, microsecond, ahead⟩
  else none

/-- Microseconds since the year 1 by the moment's own clock. -/
def reading (m : Moment) : Int :=
  (((m.date.ordinal * 24 + m.hour) * 60 + m.minute) * 60 + m.second) * 1000000 + m.microsecond

/-- Two moments are the same if their clocks, set to universal time, agree. A moment whose clock is
not known differs from one whose clock is. -/
def same (m n : Moment) : Bool :=
  match m.ahead, n.ahead with
  | none, none => m.reading == n.reading
  | some a, some b => m.reading - a * 1000000 == n.reading - b * 1000000
  | _, _ => false

end Moment
end DbImage
