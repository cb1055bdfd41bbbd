import Gallows.Json.Reader

/-!
JSON values of any kind, for the parts of a text whose shape is not known when they are met.
-/
namespace Gallows.Json

/-- A JSON value as it was read. The members of an object keep their order and their
repetitions. -/
inductive Node
  | null
  | flag (value : Bool)
  | number (value : Number)
  | text (value : String)
  | list (items : List Node)
  | object (members : List (String × Node))

/-- A value as messages show it. -/
def Node.found : Node → Found
  | .null => .null
  | .flag value => .flag value
  | .number value => value.found
  | .text value => .text value
  | .list _ => .sequence
  | .object _ => .map

/-- A value without parts. -/
def readScalar : Read Node := fun l bs =>
  match bs with
  | [] => .error .ended
  | 110 :: bs => do return (.null, ← scanWord nullTail bs)
  | 116 :: bs => do return (.flag true, ← scanWord trueTail bs)
  | 102 :: bs => do return (.flag false, ← scanWord falseTail bs)
  | 34 :: bs => do
    let (value, bs) ← scanString l.size bs
    return (.text value, bs)
  | 45 :: bs => do
    let (value, bs) ← scanMagnitude true bs
    return (.number value, bs)
  | bs => do
    if !startsWithDigit bs then throw .malformed
    let (value, bs) ← scanMagnitude false bs
    return (.number value, bs)

/-- A value of any kind, in a text of at most `size` bytes, within `depth` levels of containers. -/
def readNode (size : Nat) : (depth : Nat) → Scan Node
  | depth, bs =>
    match dropBlank bs with
    | 91 :: bs =>
      match depth with
      | 0 => .error .malformed
      | depth + 1 => do
        let (items, bs) ← readItems (readNode size depth) (size + 1) true [] bs
        return (.list items.reverse, ← scanListEnd bs)
    | 123 :: bs =>
      match depth with
      | 0 => .error .malformed
      | depth + 1 => do
        let member (key : String) (seen : List (String × Node)) (bs : List UInt8) := do
          let (value, bs) ← readNode size depth (← scanColon bs)
          return ((key, value) :: seen, bs)
        let (members, bs) ← readMembers size member (size + 1) true [] bs
        return (.object members.reverse, ← scanObjectEnd bs)
    | bs => readScalar { depth, size } bs

/-- A value of any kind. -/
def readAny : Read Node := fun l bs => readNode l.size (l.depth - 1) bs

end Gallows.Json
