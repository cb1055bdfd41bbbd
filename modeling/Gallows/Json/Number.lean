import Gallows.Json.Error

/-!
Numbers in JSON texts. An integer that fits into 64 bits is kept as such. Any other number becomes
a double: as many of its digits as fit into 64 bits, times or divided by a power of ten.
-/
namespace Gallows.Json

/-- A number of a JSON text. -/
inductive Number
  | integer (value : Int)
  | decimal (bits : UInt64)
deriving DecidableEq, Repr

/-- A number as messages show it. -/
def Number.found : Number → Found
  | integer value => .integer value
  | decimal bits => .decimal bits

/-- A reader of a part of a text, without blanks in front. -/
abbrev Scan (α : Type) := List UInt8 → Except Error (α × List UInt8)

/-- Whether a byte is a decimal digit. -/
def isDigit (b : UInt8) : Bool := 48 ≤ b && b ≤ 57

/-- Text without the digits in front. -/
def dropDigits (bs : List UInt8) : List UInt8 := bs.dropWhile isDigit

/-- Whether a text starts with a digit. -/
def startsWithDigit : List UInt8 → Bool
  | [] => false
  | b :: _ => isDigit b

/-- Puts digits behind `n` while the result fits into 64 bits. Gives the result, how many digits
were taken, and the rest, which starts with a digit only if that one did not fit. -/
def absorb (n : Nat) : List UInt8 → Nat × Nat × List UInt8
  | [] => (n, 0, [])
  | b :: bs =>
    let m := 10 * n + (b.toNat - 48)
    if isDigit b && m < 0x10000000000000000 then
      let (value, count, rest) := absorb m bs
      (value, count + 1, rest)
    else (n, 0, b :: bs)

/-- Divides by 10^308 until the exponent is within the doubles' range or nothing is left. -/
def scaleDown : (fuel : Nat) → Float → Int → Float × Int
  | 0, f, e => (f, e)
  | fuel + 1, f, e =>
    if -308 ≤ e || f == 0.0 then (f, e) else scaleDown fuel (f / 1e308) (e + 308)

/-- The double `n * 10^e`, rounded after each step; `none` if it is too large. -/
def scaled? (n : Nat) (e : Int) : Option Float :=
  let f := n.toUInt64.toFloat
  if 308 < e then if f == 0.0 then some f else none
  else if 0 ≤ e then
    let g := f * Float.ofScientific 1 false e.toNat
    if g.isInf then none else some g
  else
    let (g, e) := scaleDown (e.natAbs / 308 + 1) f e
    if g == 0.0 then some g else some (g / Float.ofScientific 1 false (-e).toNat)

/-- The number `± n * 10^e` as a double. -/
def decimal (negative : Bool) (n : Nat) (e : Int) : Except Error Number :=
  match scaled? n e with
  | some f => .ok (.decimal (if negative then -f else f).toBits)
  | none => .error .malformed

/-- The exponent behind its letter, for the number `± n * 10^e`. -/
def scanExponent (negative : Bool) (n : Nat) (e : Int) : Scan Number := fun bs => do
  let (down, bs) := match bs with
    | 43 :: bs => (false, bs)
    | 45 :: bs => (true, bs)
    | bs => (false, bs)
  if bs.isEmpty then throw .ended
  if !startsWithDigit bs then throw .malformed
  let value := (bs.takeWhile isDigit).foldl (fun (n : Nat) b => 10 * n + (b.toNat - 48)) 0
  let rest := dropDigits bs
  if 0x80000000 ≤ value then
    if n ≠ 0 && !down then throw .malformed
    return (← decimal negative 0 0, rest)
  return (← decimal negative n (if down then e - (value : Int) else e + (value : Int)), rest)

/-- An exponent, if there is one, for the number `± n * 10^e`. -/
def scanScale (negative : Bool) (n : Nat) (e : Int) : Scan Number
  | 69 :: bs => scanExponent negative n e bs
  | 101 :: bs => scanExponent negative n e bs
  | bs => do return (← decimal negative n e, bs)

/-- The fraction behind the point, for the number `± n * 10^e`. Digits beyond 64 bits are
dropped. -/
def scanFraction (negative : Bool) (n : Nat) (e : Int) : Scan Number := fun bs =>
  let (m, count, rest) := absorb n bs
  if startsWithDigit rest then scanScale negative m (e - count) (dropDigits rest)
  else if count = 0 then .error (if rest.isEmpty then .ended else .malformed)
  else scanScale negative m (e - count) rest

/-- A whole number that fits into 64 bits; a zero with a sign is a double. -/
def wholeNumber (negative : Bool) (n : Nat) : Except Error Number :=
  if !negative then .ok (.integer n)
  else if n ≠ 0 ∧ n ≤ 0x8000000000000000 then .ok (.integer (-n))
  else decimal true n 0

/-- A number behind its sign. -/
def scanMagnitude (negative : Bool) : Scan Number
  | [] => .error .ended
  | b :: bs =>
    if !isDigit b then .error .malformed
    else if b = 48 && startsWithDigit bs then .error .malformed
    else
      let (n, _, rest) := absorb (b.toNat - 48) bs
      if startsWithDigit rest then
        let dropped := (rest.takeWhile isDigit).length
        match dropDigits rest with
        | 46 :: rest => scanFraction negative n dropped rest
        | rest => scanScale negative n dropped rest
      else
        match rest with
        | 46 :: rest => scanFraction negative n 0 rest
        | 69 :: rest => scanExponent negative n 0 rest
        | 101 :: rest => scanExponent negative n 0 rest
        | rest => do return (← wholeNumber negative n, rest)

end Gallows.Json
