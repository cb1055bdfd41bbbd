import Gallows.Document.Shape
import Gallows.Json.Reader

/-!
Reading documents. A record reads from an object, whose members may come in any order, with others
between them, or from a list of its members in order.
-/
namespace Gallows.Document
open Json (Error Limits Read Scan)

/-- An integer of a range. -/
def readInt (width : Width) : Read width.Value := fun l bs => do
  let (number, bs) ← Json.readNumber width.name l bs
  match number with
  | .decimal bits => throw (.mismatch (.type (.decimal bits) width.name))
  | .integer n =>
    if h : width.low ≤ n ∧ n ≤ width.high then return (⟨n, h⟩, bs)
    else throw (.mismatch (.value (.integer n) width.name))

/-- A moment, written as a string. -/
def readMoment : Read Time.Moment := fun l bs => do
  let (text, bs) ← Json.readText "an RFC 3339 formatted date and time string" l bs
  match Time.Moment.ofText text with
  | .ok moment => return (moment, bs)
  | .error e => throw (.mismatch (.moment e))

/-- An object whose members all have one shape; of members with the same key the last counts. -/
def readTable {α : Type} (read : Read α) : Read (Table α) := fun l bs =>
  match Json.dropBlank bs with
  | 123 :: bs => do
    let inner ← l.enter
    let entry (key : String) (t : Table α) (bs : List UInt8) := do
      let (value, bs) ← read inner (← Json.scanColon bs)
      return (t.insert key value, bs)
    let (t, bs) ← Json.readMembers l.size entry (l.size + 1) true Table.empty bs
    return (t, ← Json.scanObjectEnd bs)
  | bs => .error (Json.unfit l "a map" bs)

/-- The members of a record that have been read so far. -/
def Fields.Slots : Fields → Type
  | .nil => Unit
  | .cons _ value _ rest => Option value.El × rest.Slots

/-- No member has been read. -/
def Fields.noSlots : (fs : Fields) → fs.Slots
  | .nil => ()
  | .cons _ _ _ rest => (none, rest.noSlots)

/-- The members once all have been read; the first required one that is missing is reported. -/
def Fields.ofSlots : (fs : Fields) → fs.Slots → Except Json.Mismatch fs.El
  | .nil, _ => .ok ()
  | .cons name value absence rest, slots => do
    let first ← match slots.1 with
      | some v => Except.ok v
      | none => if absence = .refused then throw (.missing name) else Except.ok value.default
    return (first, ← rest.ofSlots slots.2)

/-- What messages call a record in the form of a list. -/
def listForm (name : String) (count : Nat) : String :=
  s!"struct {name} with {count} element" ++ if count = 1 then "" else "s"

mutual
/-- A document of shape `s`. -/
def Shape.read : (s : Shape) → Read s.El
  | .text => Json.readText "a string"
  | .flag => Json.readFlag
  | .int width => readInt width
  | .moment => readMoment
  | .optional value => Json.readOptional value.read
  | .list item => Json.readList item.read
  | .table value => readTable value.read
  | .record name fields => fun l bs =>
    match Json.dropBlank bs with
    | 91 :: bs => do
      let inner ← l.enter
      let (v, bs) ← fields.readList (listForm name fields.count) 0 inner bs
      return (v, ← Json.scanListEnd bs)
    | 123 :: bs => do
      let inner ← l.enter
      let (slots, bs) ←
        Json.readMembers l.size (fields.readMember inner) (l.size + 1) true fields.noSlots bs
      match fields.ofSlots slots with
      | .ok v => return (v, ← Json.scanObjectEnd bs)
      | .error e => throw (.mismatch e)
    | bs => .error (Json.unfit l s!"struct {name}" bs)

/-- Reads the value behind a key into its slot. A key that the record does not have is skipped
with its value. -/
def Fields.readMember : (fs : Fields) → Limits → String → fs.Slots → Scan fs.Slots
  | .nil, l, _, _, bs => do return ((), ← Json.skipValue l.size (← Json.scanColon bs))
  | .cons name value _ rest, l, key, slots, bs =>
    if key = name then
      match slots.1 with
      | some _ => .error (.mismatch (.duplicate name))
      | none => do
        let (v, bs) ← value.read l (← Json.scanColon bs)
        return ((some v, slots.2), bs)
    else do
      let (others, bs) ← rest.readMember l key slots.2 bs
      return ((slots.1, others), bs)

/-- The members in order from the one at `index` on. The list may end early where only members
with defaults are left. -/
def Fields.readList (form : String) : (fs : Fields) → (index : Nat) → Read fs.El
  | .nil, _, _, bs => .ok ((), bs)
  | .cons _ value absence rest, index, l, bs => do
    let (more, bs) ← Json.scanNextItem (index = 0) bs
    if more then
      let (v, bs) ← value.read l bs
      let (others, bs) ← rest.readList form (index + 1) l bs
      return ((v, others), bs)
    else if absence = .refused then throw (.mismatch (.length index form))
    else
      let (others, bs) ← rest.readList form (index + 1) l bs
      return ((value.default, others), bs)
end

/-- Whether a byte is a blank of ASCII. -/
def isBlankByte (b : UInt8) : Bool := b = 32 || b = 9 || b = 10 || b = 12 || b = 13

/-- The document that a text holds. -/
def Shape.ofBytes (s : Shape) (bs : List UInt8) : Except Error s.El := Json.readWhole s.read bs

/-- The document that a payload carries; one without content stands for the empty object. -/
def Shape.ofPayload (s : Shape) (payload : ByteArray) : Except Error s.El :=
  let bs := payload.data.toList
  if bs.all isBlankByte then s.ofBytes [123, 125] else s.ofBytes bs

end Gallows.Document
