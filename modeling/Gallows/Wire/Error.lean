/-!
Why the bytes of a protobuf message cannot be read.
-/
namespace Gallows.Wire

/-- How the bytes of a field's value are laid out. -/
inductive WireType
  | varint
  | fixed64
  | lengthDelimited
  | groupStart
  | groupEnd
  | fixed32
deriving DecidableEq, Repr

namespace WireType

/-- The number that stands for the layout in a field's key. -/
def code : WireType → Nat
  | varint => 0
  | fixed64 => 1
  | lengthDelimited => 2
  | groupStart => 3
  | groupEnd => 4
  | fixed32 => 5

/-- The layout with this number. -/
def ofCode? : Nat → Option WireType
  | 0 => some varint
  | 1 => some fixed64
  | 2 => some lengthDelimited
  | 3 => some groupStart
  | 4 => some groupEnd
  | 5 => some fixed32
  | _ => none

/-- The name of the layout in error texts. -/
def name : WireType → String
  | varint => "Varint"
  | fixed64 => "SixtyFourBit"
  | lengthDelimited => "LengthDelimited"
  | groupStart => "StartGroup"
  | groupEnd => "EndGroup"
  | fixed32 => "ThirtyTwoBit"

theorem ofCode?_code (t : WireType) : ofCode? t.code = some t := by
  cases t <;> rfl

end WireType

/-- What is wrong with the bytes. -/
inductive Cause
  | varint
  | underflow
  | key (value : Nat)
  | fieldNumber
  | wireType (code : Nat)
  | mismatch (actual expected : WireType)
  | text
  | groupEnd
  | depth
deriving DecidableEq, Repr

/-- The cause, and the message and field being read when it arose. -/
structure Error where
  field : Option (String × String) := none
  cause : Cause
deriving DecidableEq, Repr

/-- The wording of a cause. -/
def Cause.message : Cause → String
  | varint => "invalid varint"
  | underflow => "buffer underflow"
  | key value => s!"invalid key value: {value}"
  | fieldNumber => "invalid tag value: 0"
  | wireType code => s!"invalid wire type value: {code}"
  | mismatch actual expected =>
    s!"invalid wire type: {actual.name} (expected {expected.name})"
  | text => "invalid string value: data is not UTF-8 encoded"
  | groupEnd => "unexpected end group tag"
  | depth => "recursion limit reached"

/-- The wording of an error. -/
def Error.message (e : Error) : String :=
  match e.field with
  | none => s!"failed to decode Protobuf message: {e.cause.message}"
  | some (message, field) =>
    s!"failed to decode Protobuf message: {message}.{field}: {e.cause.message}"

end Gallows.Wire
