import Gallows.Time.Date

/-!
Points in time, to the nanosecond, and how documents write them.
-/
namespace Gallows.Time

/-- A point in universal time. Any minute may have a leap second, its second 60. -/
structure Moment where
  date : Date
  hour : Fin 24
  minute : Fin 60
  second : Fin 61
  nanosecond : Fin 1000000000
deriving DecidableEq

/-- The first moment of 1970. -/
def epoch : Moment where
  date := ⟨1970, 1, 1, by decide, by decide, by decide⟩
  hour := 0
  minute := 0
  second := 0
  nanosecond := 0

/-- Whether this is the first moment of 1970. -/
def Moment.isEpoch (t : Moment) : Bool := t = epoch

/-- `n` in decimal, with zeros in front up to `width` digits. -/
def padded (width n : Nat) : String :=
  let digits := Nat.repr n
  "".pushn '0' (width - digits.length) ++ digits

/-- A year in four digits; one that does not fit, or lies before year 0, has a sign. -/
def yearText (year : Int) : String :=
  if year < 0 then "-" ++ padded 4 year.natAbs
  else if year ≤ 9999 then padded 4 year.natAbs
  else "+" ++ padded 4 year.natAbs

/-- The fraction of a second: none, or three, six or nine digits, whichever are the fewest that
hold it. -/
def fractionText (nanosecond : Nat) : String :=
  if nanosecond = 0 then ""
  else if nanosecond % 1000000 = 0 then "." ++ padded 3 (nanosecond / 1000000)
  else if nanosecond % 1000 = 0 then "." ++ padded 6 (nanosecond / 1000)
  else "." ++ padded 9 nanosecond

/-- A moment as documents write it, in universal time. -/
def Moment.text (t : Moment) : String :=
  yearText t.date.year ++ "-" ++ padded 2 t.date.month ++ "-" ++ padded 2 t.date.day ++ "T" ++
    padded 2 t.hour ++ ":" ++ padded 2 t.minute ++ ":" ++ padded 2 t.second ++
    fractionText t.nanosecond ++ "Z"

/-- The moment that a clock shows as `date`, `minutes` after midnight, when it is `offset`
minutes ahead of universal time, and by less than a day. -/
def Moment.ofLocal? (date : Date) (minutes : Nat) (second : Fin 61)
    (nanosecond : Fin 1000000000) (offset : Int) : Option Moment := do
  let universal := (minutes : Int) - offset
  let date ← if universal < 0 then date.previous? else if universal < 1440 then date else date.next?
  let ofDay := (universal % 1440).toNat
  return {
    date, second, nanosecond
    hour := Fin.ofNat 24 (ofDay / 60)
    minute := Fin.ofNat 60 (ofDay % 60) }

end Gallows.Time
