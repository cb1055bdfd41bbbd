/-!
The shortest decimal that reads back as a given double. A double is decoded into `m * 2^q`, and
decimals are compared with the interval of reals that round to it, in exact arithmetic.
-/
namespace Gallows.Decimal

/-- A finite magnitude `m * 2^q`. -/
structure Binary where
  m : Nat
  q : Int
  /-- Whether the gap below the value is half the gap above it. -/
  narrowBelow : Bool
deriving DecidableEq, Repr

/-- The magnitude of the double with these bits, which has to be finite. -/
def Binary.ofBits (bits : UInt64) : Binary :=
  let hidden := 0x10000000000000
  let e : Nat := bits.toNat / hidden % 0x800
  let f := bits.toNat % hidden
  if e = 0 then ⟨f, -1074, false⟩ else ⟨hidden + f, (e : Int) - 1075, f = 0 && 1 < e⟩

/-- The decimal `digits * 10^exponent`. -/
structure Scaled where
  digits : Nat
  exponent : Int
deriving DecidableEq, Repr

/-- `n * base^e`, where a negative `e` counts as zero. -/
def raise (n base : Nat) (e : Int) : Nat := n * Nat.pow base e.toNat

/-- Compares `a * 10^i` with `n * 2^j`. -/
def compareScaled (a : Nat) (i : Int) (n : Nat) (j : Int) : Ordering :=
  compare (raise (raise a 10 i) 2 (-j)) (raise (raise n 2 j) 10 (-i))

/-- Whether `d` lies among the reals that round to `x`; the ends of that interval do when `m` is
even. -/
def Binary.readsBack (x : Binary) (d : Scaled) : Bool :=
  let low := if x.narrowBelow then 4 * x.m - 1 else 4 * x.m - 2
  let ends := x.m % 2 = 0
  let atLow := compareScaled d.digits d.exponent low (x.q - 2)
  let atHigh := compareScaled d.digits d.exponent (4 * x.m + 2) (x.q - 2)
  (atLow = .gt || (ends && atLow = .eq)) && (atHigh = .lt || (ends && atHigh = .eq))

/-- The largest multiple of `10^e` that is not above `x`, as a multiple. -/
def Binary.floorAt (x : Binary) (e : Int) : Nat :=
  raise (raise x.m 2 x.q) 10 (-e) / raise (raise 1 2 (-x.q)) 10 e

/-- The neighbour of `x` among the multiples of `10^e` that reads back as `x`. The nearer one is
taken when both do, and of two that are equally near the even one. -/
def Binary.neighbour? (x : Binary) (e : Int) : Option Scaled :=
  let below : Scaled := ⟨x.floorAt e, e⟩
  let above : Scaled := ⟨x.floorAt e + 1, e⟩
  match x.readsBack below, x.readsBack above with
  | false, false => none
  | true, false => some below
  | false, true => some above
  | true, true =>
    match compareScaled (2 * below.digits + 1) e (2 * x.m) x.q with
    | .gt => some below
    | .lt => some above
    | .eq => some (if below.digits % 2 = 0 then below else above)

/-- How many decimal digits `n` has. -/
def digitCount (n : Nat) : Nat := (Nat.toDigits 10 n).length

/-- The exponent of the leading digit of a positive magnitude. -/
def Binary.leading (x : Binary) : Int :=
  if 0 ≤ x.q then digitCount (raise x.m 2 x.q) - 1
  else
    -- Scaled by a power of ten that leaves at least one digit in front of the point.
    digitCount (x.floorAt (-350)) - 351

/-- The decimal with the fewest digits that reads back as `x`, and of those the nearest: the
coarsest grid with a neighbour of `x` that does. -/
def Binary.shortest (x : Binary) : Scaled :=
  let grids := (List.range 18).map fun (n : Nat) => x.leading + 1 - n
  (grids.findSome? x.neighbour?).getD ⟨raise (raise x.m 2 x.q) 5 (-x.q), min x.q 0⟩

end Gallows.Decimal
