import Gallows.Json.Skip

/-!
Readers for the values of a JSON text. A reader asks for one kind of value; the first thing that
does not fit decides the error, so a wrong kind of value early in a text is reported before a
broken grammar further on.
-/
namespace Gallows.Json

/-- How many levels of containers may still be entered, plus one, and a bound on the number of
bytes left. -/
structure Limits where
  depth : Nat
  size : Nat
deriving DecidableEq, Repr

/-- How deep a document may nest, plus one. -/
def depthLimit : Nat := 128

/-- A reader of one value. -/
abbrev Read (α : Type) := Limits → Scan α

variable {α σ : Type}

/-- The limits inside a container. -/
def Limits.enter (l : Limits) : Except Error Limits :=
  if l.depth ≤ 1 then .error .malformed else .ok { l with depth := l.depth - 1 }

/-- The error for a value that stands where `expected` should. Its scalars are read first, and
are reported themselves if they are broken. -/
def unfit (l : Limits) (expected : String) (bs : List UInt8) : Error :=
  let report (found : Except Error Found) : Error :=
    match found with
    | .ok found => .mismatch (.type found expected)
    | .error e => e
  match bs with
  | [] => .ended
  | 110 :: bs => report ((scanWord nullTail bs).map fun _ => .null)
  | 116 :: bs => report ((scanWord trueTail bs).map fun _ => .flag true)
  | 102 :: bs => report ((scanWord falseTail bs).map fun _ => .flag false)
  | 34 :: bs => report ((scanString l.size bs).map fun r => .text r.1)
  | 91 :: _ => report (.ok .sequence)
  | 123 :: _ => report (.ok .map)
  | 45 :: bs => report ((scanMagnitude true bs).map fun r => r.1.found)
  | bs@(b :: _) =>
    if isDigit b then report ((scanMagnitude false bs).map fun r => r.1.found) else .malformed

/-- A string. -/
def readText (expected : String) : Read String := fun l bs =>
  match dropBlank bs with
  | 34 :: bs => scanString l.size bs
  | bs => .error (unfit l expected bs)

/-- A truth value. -/
def readFlag : Read Bool := fun l bs =>
  match dropBlank bs with
  | 116 :: bs => do return (true, ← scanWord trueTail bs)
  | 102 :: bs => do return (false, ← scanWord falseTail bs)
  | bs => .error (unfit l "a boolean" bs)

/-- A number. -/
def readNumber (expected : String) : Read Number := fun l bs =>
  match dropBlank bs with
  | 45 :: bs => scanMagnitude true bs
  | bs => if startsWithDigit bs then scanMagnitude false bs else .error (unfit l expected bs)

/-- A null, or a value of another kind. -/
def readOptional (read : Read α) : Read (Option α) := fun l bs =>
  match dropBlank bs with
  | 110 :: bs => do return (none, ← scanWord nullTail bs)
  | bs => do
    let (value, bs) ← read l bs
    return (some value, bs)

/-- Whether a list goes on, and the text from its next value. `first` says that nothing has been
read yet. -/
def scanNextItem (first : Bool) : Scan Bool := fun bs =>
  match dropBlank bs with
  | [] => .error .ended
  | 93 :: bs => .ok (false, 93 :: bs)
  | bs@(b :: rest) =>
    if first then .ok (true, bs)
    else if b = 44 then
      match dropBlank rest with
      | [] => .error .ended
      | 93 :: _ => .error .malformed
      | bs => .ok (true, bs)
    else .error .malformed

/-- The end of a list. -/
def scanListEnd (bs : List UInt8) : Except Error (List UInt8) :=
  match dropBlank bs with
  | [] => .error .ended
  | 93 :: bs => .ok bs
  | _ => .error .malformed

/-- Whether an object goes on, and the text behind the opening quote of its next key. -/
def scanNextKey (first : Bool) : Scan Bool := fun bs =>
  match dropBlank bs with
  | [] => .error .ended
  | 125 :: bs => .ok (false, 125 :: bs)
  | b :: rest =>
    if first then
      if b = 34 then .ok (true, rest) else .error .malformed
    else if b = 44 then
      match dropBlank rest with
      | [] => .error .ended
      | 34 :: bs => .ok (true, bs)
      | _ => .error .malformed
    else .error .malformed

/-- The colon behind a key. -/
def scanColon (bs : List UInt8) : Except Error (List UInt8) :=
  match dropBlank bs with
  | [] => .error .ended
  | 58 :: bs => .ok bs
  | _ => .error .malformed

/-- The end of an object. -/
def scanObjectEnd (bs : List UInt8) : Except Error (List UInt8) :=
  match dropBlank bs with
  | [] => .error .ended
  | 125 :: bs => .ok bs
  | _ => .error .malformed

/-- The values of a list up to its closing bracket, last one first. Every step takes a byte, so
`fuel` is no limit when it is above the number of bytes. -/
def readItems (read : Scan α) : (fuel : Nat) → (first : Bool) → (seen : List α) → Scan (List α)
  | 0, _, _, _ => .error .ended
  | fuel + 1, first, seen, bs => do
    let (more, bs) ← scanNextItem first bs
    if !more then return (seen, bs)
    let (value, bs) ← read bs
    readItems read fuel false (value :: seen) bs

/-- A list. -/
def readList (read : Read α) : Read (List α) := fun l bs =>
  match dropBlank bs with
  | 91 :: bs => do
    let inner ← l.enter
    let (items, bs) ← readItems (read inner) (l.size + 1) true [] bs
    return (items.reverse, ← scanListEnd bs)
  | bs => .error (unfit l "a sequence" bs)

/-- The members of an object up to its closing bracket. `member` reads on from behind the key, at
the colon. -/
def readMembers (size : Nat) (member : String → σ → List UInt8 → Except Error (σ × List UInt8)) :
    (fuel : Nat) → (first : Bool) → σ → Scan σ
  | 0, _, _, _ => .error .ended
  | fuel + 1, first, s, bs => do
    let (more, bs) ← scanNextKey first bs
    if !more then return (s, bs)
    let (key, bs) ← scanString size bs
    let (s, bs) ← member key s bs
    readMembers size member fuel false s bs

/-- Reads a whole text with nothing but blanks behind the value. -/
def readWhole (read : Read α) (bs : List UInt8) : Except Error α := do
  let (value, rest) ← read { depth := depthLimit, size := bs.length } bs
  if (dropBlank rest).isEmpty then return value else throw .malformed

end Gallows.Json
