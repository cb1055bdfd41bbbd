import Gallows.Json.Token

/-!
Moving past a JSON value that nobody asked for. Its grammar is checked, but neither how deep it
nests nor whether its strings are UTF-8.
-/
namespace Gallows.Json

/-- An exponent behind its letter. -/
def skipExponent (bs : List UInt8) : Except Error (List UInt8) :=
  let bs := match bs with
    | 43 :: bs => bs
    | 45 :: bs => bs
    | bs => bs
  if startsWithDigit bs then .ok (dropDigits bs) else .error .malformed

/-- An exponent, if there is one. -/
def skipScale : List UInt8 → Except Error (List UInt8)
  | 69 :: bs => skipExponent bs
  | 101 :: bs => skipExponent bs
  | bs => .ok bs

/-- A number behind its sign. -/
def skipMagnitude : List UInt8 → Except Error (List UInt8)
  | [] => .error .malformed
  | b :: bs =>
    if !isDigit b || (b = 48 && startsWithDigit bs) then .error .malformed
    else
      match dropDigits bs with
      | 46 :: bs => if startsWithDigit bs then skipScale (dropDigits bs) else .error .malformed
      | bs => skipScale bs

/-- A value without parts. -/
def skipScalar : List UInt8 → Except Error (List UInt8)
  | [] => .error .ended
  | 110 :: bs => scanWord nullTail bs
  | 116 :: bs => scanWord trueTail bs
  | 102 :: bs => scanWord falseTail bs
  | 34 :: bs => skipString bs
  | 45 :: bs => skipMagnitude bs
  | bs@(b :: _) => if isDigit b then skipMagnitude bs else .error .malformed

/-- The two kinds of containers. -/
inductive Container
  | list
  | object
deriving DecidableEq, Repr

/-- The closing bracket. -/
def Container.close : Container → UInt8
  | list => 93
  | object => 125

/-- What stands between a comma or an opening bracket and the value: in an object, its key. -/
def skipKey : Container → List UInt8 → Except Error (List UInt8)
  | .list, bs => .ok bs
  | .object, bs =>
    match dropBlank bs with
    | [] => .error .ended
    | 34 :: bs => do
      match dropBlank (← skipString bs) with
      | [] => throw .ended
      | 58 :: bs => return bs
      | _ => throw .malformed
    | _ => .error .malformed

/-- Where a skip stands: before a value, just behind an opening bracket, or behind a value. -/
inductive Place
  | before
  | opened
  | behind
deriving DecidableEq, Repr

/-- Moves on to the end of the outermost value. Two steps take at least a byte, so `fuel` is no
limit when it is above twice their number. -/
def skipFrom : (fuel : Nat) → Place → List Container → List UInt8 → Except Error (List UInt8)
  | 0, _, _, _ => .error .ended
  | fuel + 1, .before, around, bs =>
    match dropBlank bs with
    | 91 :: bs => skipFrom fuel .opened (.list :: around) bs
    | 123 :: bs => skipFrom fuel .opened (.object :: around) bs
    | bs => do
      let bs ← skipScalar bs
      skipFrom fuel .behind around bs
  | _ + 1, _, [], bs => .ok bs
  | fuel + 1, place, c :: around, bs =>
    match dropBlank bs with
    | [] => .error .ended
    | b :: bs =>
      if b = c.close then skipFrom fuel .behind around bs
      else if place = .opened then do
        let bs ← skipKey c (b :: bs)
        skipFrom fuel .before (c :: around) bs
      else if b = 44 then do
        let bs ← skipKey c bs
        skipFrom fuel .before (c :: around) bs
      else .error .malformed

/-- Moves past one value in a text of at most `size` bytes. -/
def skipValue (size : Nat) (bs : List UInt8) : Except Error (List UInt8) :=
  skipFrom (2 * size + 2) .before [] bs

end Gallows.Json
