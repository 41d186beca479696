namespace QueryPipeline

namespace Calendar

def isLeap (year : Nat) : Bool :=
  year % 4 = 0 && (year % 100 ≠ 0 || year % 400 = 0)

def daysInMonth (year month : Nat) : Nat :=
  match month with
  | 2 => if isLeap year then 29 else 28
  | 4 | 6 | 9 | 11 => 30
  | _ => 31

def daysBeforeYear (year : Nat) : Nat :=
  let y := year - 1
  365 * y + y / 4 - y / 100 + y / 400

def daysBeforeMonth (year month : Nat) : Nat :=
  (List.range (month - 1)).foldl (fun days m => days + daysInMonth year (m + 1)) 0

end Calendar

open Calendar

structure Date where
  year : Nat
  month : Nat
  day : Nat
  inRange : (1 ≤ year ∧ year ≤ 9999) ∧ (1 ≤ month ∧ month ≤ 12) ∧
    1 ≤ day ∧ day ≤ daysInMonth year month
deriving DecidableEq

namespace Date

def of? (year month day : Nat) : Option Date :=
  if h : (1 ≤ year ∧ year ≤ 9999) ∧ (1 ≤ month ∧ month ≤ 12) ∧
      1 ≤ day ∧ day ≤ daysInMonth year month then
    some ⟨year, month, day, h⟩
  else none

/-- The number of the day: the first day of the year 1 has the number 1. -/
def ordinal (d : Date) : Nat :=
  daysBeforeYear d.year + daysBeforeMonth d.year d.month + d.day

def monthDay (year : Nat) : (months : List Nat) → (n : Nat) → Nat × Nat
  | [], n => (12, n + 1)
  | month :: later, n =>
    if n < daysInMonth year month then (month, n + 1)
    else monthDay year later (n - daysInMonth year month)

/-- The year that holds the `n`-th day counted from zero, and the number of the day in that year. An
average year is a little longer than 365 days, so the quotient is at most a few years too late. -/
def yearOf (n : Nat) : Nat × Nat :=
  let late := n / 365 + 1
  let year := ((List.range 31).map fun back => late - back).find? (fun y => daysBeforeYear y ≤ n)
  let year := year.getD 1
  (year, n - daysBeforeYear year)

def ofOrdinal? (n : Nat) : Option Date :=
  if n = 0 then none
  else
    let (year, inYear) := yearOf (n - 1)
    let (month, day) := monthDay year [1, 2, 3, 4, 5, 6, 7, 8, 9, 10, 11, 12] inYear
    of? year month day

def weekday (ordinal : Nat) : Nat :=
  (ordinal + 6) % 7

/-- The number of the Monday of the first week of a year: the week that has the year's first
Thursday. It may lie in the year before. -/
def firstMonday (year : Nat) : Int :=
  let first := daysBeforeYear year + 1
  let monday : Int := first - weekday first
  if 3 < weekday first then monday + 7 else monday

/-- The weeks of a year: 53 when it starts on a Thursday, or in a leap year on a Wednesday. -/
def weeksInYear (year : Nat) : Nat :=
  let first := weekday (daysBeforeYear year + 1)
  if first = 3 ∨ (first = 2 ∧ isLeap year) then 53 else 52

def ofWeek? (year week day : Nat) : Option Date :=
  if (1 ≤ year ∧ year ≤ 9999) ∧ (1 ≤ week ∧ week ≤ weeksInYear year) ∧ 1 ≤ day ∧ day ≤ 7 then
    ofOrdinal? (firstMonday year + ((week - 1) * 7 + (day - 1) : Nat)).toNat
  else none

end Date

end QueryPipeline
