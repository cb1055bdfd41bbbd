import Gallows.Text.Blank
import Gallows.Time.Moment

/-!
Reading moments. The reader is lenient: numbers may have fewer digits than usual, blanks may stand
in front of a field, and the offset may be written in several ways.
-/
namespace Gallows.Time

/-- Why a text is no moment. -/
inductive ReadError
  | invalid
  | tooShort
  | outOfRange
  | trailing
  | impossible
deriving DecidableEq, Repr

/-- The wording of an error. -/
def ReadError.message : ReadError → String
  | invalid => "input contains invalid characters"
  | tooShort => "premature end of input"
  | outOfRange => "input is out of range"
  | trailing => "trailing input"
  | impossible => "no possible date and time matching input"

/-- A reader of a part of a text. -/
abbrev Read (α : Type) := List Char → Except ReadError (α × List Char)

/-- The value of a digit. -/
def digitValue (c : Char) : Nat := c.toNat - '0'.toNat

/-- The digits that `cs` starts with, at most `max` of them. -/
def leadingDigits (max : Nat) (cs : List Char) : List Char := (cs.take max).takeWhile Char.isDigit

/-- The value of decimal digits. -/
def valueOf (digits : List Char) : Nat := digits.foldl (fun n c => 10 * n + digitValue c) 0

/-- A number of one up to `max` digits. It has to fit into a signed 64-bit integer. -/
def number (max : Nat) : Read Nat := fun cs =>
  match cs with
  | [] => .error .tooShort
  | c :: _ =>
    if !c.isDigit then .error .invalid else
      let digits := leadingDigits max cs
      let value := valueOf digits
      if value < 0x8000000000000000 then .ok (value, cs.drop digits.length) else .error .outOfRange

/-- A number of at most two digits between `low` and `high`, with blanks in front. -/
def field (low high : Nat) : Read Nat := fun cs => do
  let (value, cs) ← number 2 (Text.dropBlank cs)
  if low ≤ value ∧ value ≤ high then return (value, cs) else throw .outOfRange

/-- A year, with blanks in front. Only one with a sign may have more than four digits. -/
def year : Read Int := fun cs => do
  let (value, cs) ← show Except ReadError (Int × List Char) from
    match Text.dropBlank cs with
    | '-' :: cs => do
      let (n, cs) ← number cs.length cs
      return (-n, cs)
    | '+' :: cs => do
      let (n, cs) ← number cs.length cs
      return (n, cs)
    | cs => do
      let (n, cs) ← number 4 cs
      return (n, cs)
  if -0x80000000 ≤ value ∧ value < 0x80000000 then return (value, cs) else throw .outOfRange

/-- The character `c`, with blanks in front. -/
def mark (c : Char) (cs : List Char) : Except ReadError (List Char) :=
  match Text.dropBlank cs with
  | [] => .error .tooShort
  | d :: cs => if d = c then .ok cs else .error .invalid

/-- The fraction of a second in nanoseconds, if there is one. Digits after the ninth are
dropped. -/
def fraction : Read Nat
  | '.' :: cs => do
    let (value, rest) ← number 9 cs
    let digits := leadingDigits 9 cs
    return (value * Nat.pow 10 (9 - digits.length), rest.dropWhile Char.isDigit)
  | cs => .ok (0, cs)

/-- Two digits. -/
def twoDigits : Read (Nat × Nat)
  | [] => .error .tooShort
  | [c] => if c.utf8Size < 2 then .error .tooShort else .error .invalid
  | c :: d :: cs =>
    if c.isDigit && d.isDigit then .ok ((digitValue c, digitValue d), cs) else .error .invalid

/-- An offset from universal time in minutes: `UTC`, `Z`, or a sign, two digits of hours and two
of minutes, with colons or blanks between them. -/
def offset : Read Int := fun cs => do
  match cs with
  | a :: b :: c :: cs' =>
    if [a, b, c].map Char.toUpper = ['U', 'T', 'C'] then return (0, cs')
  | _ => pure ()
  match cs with
  | [] => throw .tooShort
  | sign :: cs =>
    if sign = 'Z' || sign = 'z' then return (0, cs)
    if sign ≠ '+' && sign ≠ '-' && sign ≠ '\u2212' then throw .invalid
    let ((h₁, h₂), cs) ← twoDigits cs
    let ((m₁, m₂), cs) ← twoDigits (cs.dropWhile fun c => c = ':' || Text.isBlank c)
    if 6 ≤ m₁ then throw .outOfRange
    let minutes : Int := 60 * (10 * h₁ + h₂) + (10 * m₁ + m₂)
    return (if sign = '+' then minutes else -minutes, cs)

/-- The moment that a text names. -/
def Moment.ofText (s : String) : Except ReadError Moment := do
  let (year, cs) ← year s.toList
  let cs ← mark '-' cs
  let (month, cs) ← field 1 12 cs
  let cs ← mark '-' cs
  let (day, cs) ← field 1 31 cs
  let cs ← match cs with
    | [] => throw .tooShort
    | c :: cs => if c = 'T' || c = 't' || c = ' ' then pure cs else throw .invalid
  let (hour, cs) ← field 0 23 cs
  let cs ← mark ':' cs
  let (minute, cs) ← field 0 59 cs
  let cs ← mark ':' cs
  let (second, cs) ← field 0 60 cs
  let (nanosecond, cs) ← fraction cs
  let (offset, cs) ← offset (Text.dropBlank cs)
  if !(Text.dropBlank cs).isEmpty then throw .trailing
  let some date := Date.of? year month day | throw .outOfRange
  if 1440 ≤ offset.natAbs then throw .outOfRange
  match Moment.ofLocal? date (60 * hour + minute) ⟨second % 61, Nat.mod_lt _ (by decide)⟩
      ⟨nanosecond % 1000000000, Nat.mod_lt _ (by decide)⟩ offset with
  | some moment => return moment
  | none => throw .impossible

end Gallows.Time
