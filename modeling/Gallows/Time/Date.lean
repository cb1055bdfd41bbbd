/-!
Days of the proleptic Gregorian calendar, with a year 0 and years before it.
-/
namespace Gallows.Time

/-- Whether the year has a 29 February. -/
def isLeapYear (year : Int) : Bool :=
  year % 4 = 0 && (year % 100 ≠ 0 || year % 400 = 0)

/-- How many days a month has; the months count from 1. -/
def daysInMonth (year : Int) (month : Nat) : Nat :=
  if month = 2 then if isLeapYear year then 29 else 28
  else if month = 4 || month = 6 || month = 9 || month = 11 then 30
  else 31

/-- The first year that a date can have. -/
def firstYear : Int := -262143

/-- The last year that a date can have. -/
def lastYear : Int := 262142

/-- A day. -/
structure Date where
  year : Int
  month : Nat
  day : Nat
  year_bounds : firstYear ≤ year ∧ year ≤ lastYear
  month_bounds : 1 ≤ month ∧ month ≤ 12
  day_bounds : 1 ≤ day ∧ day ≤ daysInMonth year month
deriving DecidableEq

namespace Date

/-- The day with these numbers, if there is one. -/
def of? (year : Int) (month day : Nat) : Option Date :=
  if hy : firstYear ≤ year ∧ year ≤ lastYear then
    if hm : 1 ≤ month ∧ month ≤ 12 then
      if hd : 1 ≤ day ∧ day ≤ daysInMonth year month then
        some ⟨year, month, day, hy, hm, hd⟩
      else none
    else none
  else none

/-- The day after, if there is one. -/
def next? (d : Date) : Option Date :=
  if d.day < daysInMonth d.year d.month then of? d.year d.month (d.day + 1)
  else if d.month < 12 then of? d.year (d.month + 1) 1
  else of? (d.year + 1) 1 1

/-- The day before, if there is one. -/
def previous? (d : Date) : Option Date :=
  if 1 < d.day then of? d.year d.month (d.day - 1)
  else if 1 < d.month then of? d.year (d.month - 1) (daysInMonth d.year (d.month - 1))
  else of? (d.year - 1) 12 31

theorem of?_eq_some_iff {year : Int} {month day : Nat} {d : Date} :
    of? year month day = some d ↔ d.year = year ∧ d.month = month ∧ d.day = day := by
  obtain ⟨y, m, k, hy, hm, hd⟩ := d
  unfold of?
  constructor
  · intro h
    split at h <;> try contradiction
    split at h <;> try contradiction
    split at h <;> try contradiction
    cases h
    exact ⟨rfl, rfl, rfl⟩
  · rintro ⟨rfl, rfl, rfl⟩
    simp [hy, hm, hd]

end Date
end Gallows.Time
