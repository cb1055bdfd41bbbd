import Gallows.Json.Number

/-!
The tokens of a JSON text: blanks, words, and strings with their escapes.
-/
namespace Gallows.Json

/-- Whether a byte is a blank between tokens. -/
def isBlank (b : UInt8) : Bool := b = 32 || b = 10 || b = 9 || b = 13

/-- Text without the blanks in front. -/
def dropBlank (bs : List UInt8) : List UInt8 := bs.dropWhile isBlank

/-- The rest behind the letters `word`. -/
def scanWord : (word : List UInt8) → List UInt8 → Except Error (List UInt8)
  | [], bs => .ok bs
  | _ :: _, [] => .error .ended
  | w :: word, b :: bs => if b = w then scanWord word bs else .error .malformed

/-- The letters of `null`, `true` and `false` behind the first. -/
def nullTail : List UInt8 := [117, 108, 108]
def trueTail : List UInt8 := [114, 117, 101]
def falseTail : List UInt8 := [97, 108, 115, 101]

/-- The value of a hexadecimal digit. -/
def hexValue? (b : UInt8) : Option Nat :=
  if 48 ≤ b && b ≤ 57 then some (b.toNat - 48)
  else if 65 ≤ b && b ≤ 70 then some (b.toNat - 55)
  else if 97 ≤ b && b ≤ 102 then some (b.toNat - 87)
  else none

/-- The value of four hexadecimal digits. -/
def hexQuad? (a b c d : UInt8) : Option Nat := do
  return (((← hexValue? a) * 16 + (← hexValue? b)) * 16 + (← hexValue? c)) * 16 + (← hexValue? d)

/-- The byte that an escape of one letter stands for. -/
def shortEscape? (b : UInt8) : Option UInt8 :=
  if b = 34 || b = 92 || b = 47 then some b
  else if b = 98 then some 8
  else if b = 102 then some 12
  else if b = 110 then some 10
  else if b = 114 then some 13
  else if b = 116 then some 9
  else none

/-- The second half of a surrogate pair, escape and all, and the rest. -/
def scanLowSurrogate : Scan Nat
  | 92 :: 117 :: a :: b :: c :: d :: rest =>
    match hexQuad? a b c d with
    | some n => if 0xdc00 ≤ n && n ≤ 0xdfff then .ok (n, rest) else .error .malformed
    | none => .error .malformed
  | 92 :: 117 :: _ => .error .ended
  | 92 :: _ :: _ => .error .malformed
  | [92] => .error .ended
  | _ :: _ => .error .malformed
  | [] => .error .ended

/-- The character behind an escape with four hexadecimal digits. One outside the basic plane
takes two escapes, a surrogate pair; a surrogate alone is refused. -/
def scanCodePoint : Scan Char
  | a :: b :: c :: d :: rest =>
    match hexQuad? a b c d with
    | none => .error .malformed
    | some n =>
      if 0xdc00 ≤ n && n ≤ 0xdfff then .error .malformed
      else if 0xd800 ≤ n && n ≤ 0xdbff then do
        let (low, rest) ← scanLowSurrogate rest
        return (Char.ofNat ((n - 0xd800) * 0x400 + (low - 0xdc00) + 0x10000), rest)
      else .ok (Char.ofNat n, rest)
  | _ => .error .ended

/-- The bytes of a string up to its closing quote. `seen` holds those before, last one first;
every step takes a byte, so `fuel` is no limit when it is at least the number of bytes. -/
def scanStringBytes : (fuel : Nat) → (seen : List UInt8) → Scan (List UInt8)
  | _, _, [] => .error .ended
  | 0, _, _ :: _ => .error .ended
  | fuel + 1, seen, b :: bs =>
    if b = 34 then .ok (seen.reverse, bs)
    else if b = 92 then
      match bs with
      | [] => .error .ended
      | 117 :: bs => do
        let (c, bs) ← scanCodePoint bs
        scanStringBytes fuel ((String.utf8EncodeChar c).reverseAux seen) bs
      | e :: bs =>
        match shortEscape? e with
        | some b => scanStringBytes fuel (b :: seen) bs
        | none => .error .malformed
    else if b < 32 then .error .malformed
    else scanStringBytes fuel (b :: seen) bs

/-- A string behind its opening quote, which has to be UTF-8. -/
def scanString (fuel : Nat) : Scan String := fun bs => do
  let (bytes, bs) ← scanStringBytes fuel [] bs
  match String.fromUTF8? bytes.toByteArray with
  | some text => return (text, bs)
  | none => throw .malformed

/-- Moves past a string behind its opening quote. Only the form of its escapes is checked. -/
def skipString : List UInt8 → Except Error (List UInt8)
  | [] => .error .ended
  | b :: bs =>
    if b = 34 then .ok bs
    else if b = 92 then
      match bs with
      | [] => .error .ended
      | 117 :: a :: b :: c :: d :: bs =>
        if (hexQuad? a b c d).isSome then skipString bs else .error .malformed
      | 117 :: _ => .error .ended
      | e :: bs => if (shortEscape? e).isSome then skipString bs else .error .malformed
    else if b < 32 then .error .malformed
    else skipString bs

end Gallows.Json
