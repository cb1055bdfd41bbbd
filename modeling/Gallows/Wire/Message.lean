import Gallows.Wire.Field

/-!
Protobuf messages. Reading starts from the empty message and takes in one field after another, so
the last value of a field wins; an unknown field is skipped.
-/
namespace Gallows.Wire

/-- A type of messages. -/
class Message (α : Type) where
  /-- The message without fields. -/
  empty : α
  /-- Takes in the value behind a key; `none` if the message has no such field. -/
  merge? : α → Key → Option (Cursor → Except Error (α × Cursor))
  /-- The bytes of a message. -/
  encode : α → ByteArray

variable {α β : Type}

/-- Names the field in which a cause arose. -/
def inField (message field : String) (r : Except Cause α) : Except Error α :=
  r.mapError fun cause => { field := some (message, field), cause }

/-- Reads a value for a named field and puts it into the message. -/
def merging (message field : String) (read : Read β) (put : β → α) (c : Cursor) :
    Except Error (α × Cursor) := do
  let (value, c) ← inField message field (read c)
  return (put value, c)

/-- One field: taken in if the message knows it, skipped if not. -/
def mergeField [Message α] (m : α) (c : Cursor) : Except Error (α × Cursor) := do
  let (key, c) ← (readKey c).mapError fun cause => { cause }
  match Message.merge? m key with
  | some merge => merge c
  | none =>
    let c ← (skipValue depthLimit key c).mapError fun cause => { cause }
    return (m, c)

/-- All fields up to the end. Every field takes a byte, so `fuel` is no limit when it is at least
the number of bytes left. -/
def mergeFields [Message α] : (fuel : Nat) → α → Cursor → Except Error α
  | fuel, m, c =>
    if c.remaining = 0 then .ok m else
      match fuel with
      | 0 => .error { cause := .varint }
      | fuel + 1 => do
        let (m, c) ← mergeField m c
        mergeFields fuel m c

/-- The message that `bytes` hold. -/
def decode [Message α] (bytes : ByteArray) : Except Error α :=
  mergeFields bytes.size Message.empty (.ofBytes bytes)

end Gallows.Wire
