import Gallows.Wire.Error
import Gallows.Wire.Varint

/-!
The fields of a protobuf message: keys, values of each layout, and the skipping of fields that a
message does not know.
-/
namespace Gallows.Wire

/-- The number of a field and the layout of the value that follows. -/
structure Key where
  number : Nat
  wireType : WireType
deriving DecidableEq, Repr

/-- The bytes of a key. -/
def Key.encode (k : Key) : List UInt8 := varint (8 * k.number + k.wireType.code)

/-- A reader that fails with a cause. -/
abbrev Read (α : Type) := Cursor → Except Cause (α × Cursor)

/-- An integer of the base-128 layout. -/
def readInteger : Read Nat := fun c =>
  match readVarint c with
  | some r => .ok r
  | none => .error .varint

/-- A key: a 32-bit integer with a known layout in its low three bits and a positive field
number above them. -/
def readKey : Read Key := fun c => do
  let (value, c) ← readInteger c
  if 0x100000000 ≤ value then throw (.key value)
  let some wireType := WireType.ofCode? (value % 8) | throw (.wireType (value % 8))
  if value / 8 = 0 then throw .fieldNumber
  return ({ number := value / 8, wireType }, c)

/-- Bytes behind their length. -/
def readChunk : Read ByteArray := fun c => do
  let (size, c) ← readInteger c
  match c.take? size with
  | some r => .ok r
  | none => .error .underflow

/-- Moves past `n` bytes. -/
def skipBytes (n : Nat) (c : Cursor) : Except Cause Cursor :=
  match c.skip? n with
  | some c => .ok c
  | none => .error .underflow

/-- Skips fields up to the end of group `number`. Every field takes a byte, so `fuel` is no
limit when it is at least the number of bytes left. -/
def skipGroup (skip : Key → Cursor → Except Cause Cursor) (number : Nat) :
    (fuel : Nat) → Cursor → Except Cause Cursor
  | 0, _ => .error .varint
  | fuel + 1, c => do
    let (key, c) ← readKey c
    if key.wireType = .groupEnd then
      if key.number = number then return c else throw .groupEnd
    else
      let c ← skip key c
      skipGroup skip number fuel c

/-- Skips the value behind `key`. A group is skipped with all its fields, `depth` levels of
groups at most. -/
def skipValue : (depth : Nat) → Key → Cursor → Except Cause Cursor
  | 0, _, _ => .error .depth
  | depth + 1, key, c =>
    match key.wireType with
    | .varint => do return (← readInteger c).2
    | .fixed64 => skipBytes 8 c
    | .fixed32 => skipBytes 4 c
    | .lengthDelimited => do
      let (size, c) ← readInteger c
      skipBytes size c
    | .groupStart => skipGroup (skipValue depth) key.number (c.remaining + 1) c
    | .groupEnd => .error .groupEnd

/-- How deeply unknown groups may nest. -/
def depthLimit : Nat := 100

/-- Requires the layout that a known field is declared with. -/
def expect (expected : WireType) (key : Key) : Except Cause Unit :=
  if key.wireType = expected then .ok () else .error (.mismatch key.wireType expected)

/-- A signed 32-bit value: the low 32 bits of its integer. -/
def readInt32 (key : Key) : Read Int32 := fun c => do
  expect .varint key
  let (value, c) ← readInteger c
  return (value.toUInt32.toInt32, c)

/-- A byte string. -/
def readBytes (key : Key) : Read ByteArray := fun c => do
  expect .lengthDelimited key
  readChunk c

/-- A text, which has to be UTF-8. -/
def readText (key : Key) : Read String := fun c => do
  expect .lengthDelimited key
  let (bytes, c) ← readChunk c
  match String.fromUTF8? bytes with
  | some text => .ok (text, c)
  | none => .error .text

/-- A signed 32-bit field; zero is not written. A negative value is extended to 64 bits. -/
def writeInt32 (number : Nat) (value : Int32) : ByteArray :=
  if value = 0 then .empty else
    (Key.encode ⟨number, .varint⟩ ++ varint value.toInt64.toUInt64.toNat).toByteArray

/-- A byte string field; the empty one is not written. -/
def writeBytes (number : Nat) (value : ByteArray) : ByteArray :=
  if value.size = 0 then .empty else
    (Key.encode ⟨number, .lengthDelimited⟩ ++ varint value.size).toByteArray ++ value

/-- A text field; the empty one is not written. -/
def writeText (number : Nat) (value : String) : ByteArray := writeBytes number value.toUTF8

end Gallows.Wire
