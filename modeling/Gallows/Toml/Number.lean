import Gallows.Decimal.Shortest
import Gallows.Time.Date
import Gallows.Toml.Node
import Gallows.Toml.Scan

/-!
Numbers, dates and times in TOML texts. Integers have 64 bits; dates are days of the calendar.
-/
namespace Gallows.Toml

/-- The digits at the front of a text, which may be joined by single underscores. -/
def scanDigits (isDigit : Char → Bool) : List Char → List Char × List Char
  | '_' :: c :: rest =>
    if isDigit c then
      let (digits, rest) := scanDigits isDigit rest
      (c :: digits, rest)
    else ([], '_' :: c :: rest)
  | c :: rest =>
    if isDigit c then
      let (digits, rest) := scanDigits isDigit rest
      (c :: digits, rest)
    else ([], c :: rest)
  | [] => ([], [])

/-- One or more digits, the first of which comes without an underscore. -/
def scanNumeral (isDigit : Char → Bool) : Scan (List Char)
  | '_' :: _ => none
  | cs =>
    let (digits, rest) := scanDigits isDigit cs
    if digits.isEmpty then none else some (digits, rest)

/-- The number that digits spell. -/
def valueIn (base : Nat) (digits : List Char) : Nat :=
  digits.foldl (fun n c => base * n + (hexDigit? c).getD 0) 0

/-- A sign, and whether it is a minus. -/
def scanSign : List Char → Bool × List Char
  | '+' :: rest => (false, rest)
  | '-' :: rest => (true, rest)
  | cs => (false, cs)

/-- A whole decimal number without a sign; a zero in front of other digits is not taken along. -/
def scanWhole : Scan (List Char)
  | '0' :: rest => some (['0'], rest)
  | cs => scanNumeral Char.isDigit cs

/-- An integer, if it fits into 64 bits. -/
def integer? (value : Int) : Option Node :=
  if -0x8000000000000000 ≤ value ∧ value < 0x8000000000000000 then some (.integer value) else none

/-- An integer in another base than ten. -/
def scanIn (base : Nat) (isDigit : Char → Bool) (cs : List Char) : Option (Node × List Char) := do
  let (digits, rest) ← scanNumeral isDigit cs
  return (← integer? (valueIn base digits), rest)

/-- An integer. -/
def scanInteger : Scan Node
  | '0' :: 'x' :: rest => scanIn 16 (fun c => (hexDigit? c).isSome) rest
  | '0' :: 'o' :: rest => scanIn 8 (fun c => '0' ≤ c && c ≤ '7') rest
  | '0' :: 'b' :: rest => scanIn 2 (fun c => c = '0' || c = '1') rest
  | cs => do
    let (negative, cs) := scanSign cs
    let (digits, rest) ← scanWhole cs
    let value := valueIn 10 digits
    return (← integer? (if negative then -(value : Int) else value), rest)

/-- Whether `digits * 10^exponent` is too great for a double. -/
def isTooGreat (digits : Nat) (exponent : Int) : Bool :=
  let size := Decimal.digitCount digits + exponent
  digits ≠ 0 && (400 < size ||
    (0 ≤ size && Decimal.compareScaled digits exponent 0x3fffffffffffff 970 ≠ .lt))

/-- An exponent; nothing stands for zero. -/
def scanExponent : Scan (Option Int)
  | 'e' :: rest | 'E' :: rest => do
    let (negative, rest) := scanSign rest
    let (digits, rest) ← scanNumeral Char.isDigit rest
    let value := valueIn 10 digits
    return (some (if negative then -(value : Int) else value), rest)
  | cs => some (none, cs)

/-- A number with a fraction or an exponent, or one that is not finite. A positive one that is too
great for a double is refused. -/
def scanReal (cs : List Char) : Option (Node × List Char) :=
  match scanSign cs with
  | (_, 'i' :: 'n' :: 'f' :: rest) | (_, 'n' :: 'a' :: 'n' :: rest) => some (.real, rest)
  | (negative, cs) => do
    let (whole, rest) ← scanWhole cs
    let (fraction, rest) ←
      match rest with
      | '.' :: rest => do
        let (digits, rest) ← scanNumeral Char.isDigit rest
        pure (some digits, rest)
      | rest => pure (none, rest)
    let (exponent, rest) ← scanExponent rest
    if fraction.isNone && exponent.isNone then none
    let digits := fraction.getD []
    if !negative && isTooGreat (valueIn 10 (whole ++ digits)) (exponent.getD 0 - digits.length) then
      none
    return (.real, rest)

/-- A number of exactly `count` decimal digits within bounds. -/
def scanField (count low high : Nat) (cs : List Char) : Option (Nat × List Char) :=
  let digits := cs.take count
  let value := valueIn 10 digits
  if digits.length = count && digits.all Char.isDigit && low ≤ value && value ≤ high then
    some (value, cs.drop count)
  else none

/-- A text behind a character that it has to start with. -/
def expect (c : Char) : List Char → Option (List Char)
  | d :: rest => if c = d then some rest else none
  | [] => none

/-- A day. -/
def scanDate (cs : List Char) : Option (List Char) := do
  let (year, rest) ← scanField 4 0 9999 cs
  let (month, rest) ← scanField 2 1 12 (← expect '-' rest)
  let (day, rest) ← scanField 2 1 31 (← expect '-' rest)
  if (Time.Date.of? year month day).isSome then some rest else none

/-- A time of day, with any number of digits behind the seconds. -/
def scanTime (cs : List Char) : Option (List Char) := do
  let (_, rest) ← scanField 2 0 23 cs
  let (_, rest) ← scanField 2 0 59 (← expect ':' rest)
  let (_, rest) ← scanField 2 0 60 (← expect ':' rest)
  match rest with
  | '.' :: rest =>
    if (rest.takeWhile Char.isDigit).isEmpty then none else some (rest.dropWhile Char.isDigit)
  | rest => some rest

/-- The distance from universal time, if there is one. -/
def scanOffset : List Char → Option (List Char)
  | 'Z' :: rest | 'z' :: rest => some rest
  | c :: rest =>
    if c = '+' || c = '-' then do
      let (_, rest) ← scanField 2 0 23 rest
      let (_, rest) ← scanField 2 0 59 (← expect ':' rest)
      some rest
    else some (c :: rest)
  | [] => some []

/-- Whether a text goes on with an hour and its colon. -/
def startsTime (cs : List Char) : Bool :=
  ((scanField 2 0 23 cs).bind fun (_, rest) => expect ':' rest).isSome

/-- A date, a time or both. A blank between them joins them only if a time follows. -/
def scanMoment (cs : List Char) : Option (Node × List Char) :=
  Option.map (fun rest => (.moment, rest)) <|
    if startsTime cs then scanTime cs
    else do
      let rest ← scanDate cs
      match rest with
      | c :: time =>
        if (c = 'T' || c = 't' || c = ' ') && startsTime time then scanTime time >>= scanOffset
        else some rest
      | [] => some []

/-- A number, a date or a time. -/
def scanNumber (cs : List Char) : Option (Node × List Char) :=
  scanMoment cs <|> scanReal cs <|> scanInteger cs

end Gallows.Toml
