import Gallows.Json.Value
import Gallows.Table
import Gallows.Time.Moment

/-!
The shapes of documents. A shape says which JSON values a document admits and which type of values
it holds; one reader and one writer serve every shape.
-/
namespace Gallows.Document

/-- The ranges that integers in documents are limited to. -/
inductive Width
  | int32
  | int64
  | uint32
deriving DecidableEq, Repr

namespace Width

/-- The least integer of the range. -/
def low : Width → Int
  | int32 => -0x80000000
  | int64 => -0x8000000000000000
  | uint32 => 0

/-- The greatest integer of the range. -/
def high : Width → Int
  | int32 => 0x7fffffff
  | int64 => 0x7fffffffffffffff
  | uint32 => 0xffffffff

/-- The name of the range in messages. -/
def name : Width → String
  | int32 => "i32"
  | int64 => "i64"
  | uint32 => "u32"

/-- An integer of the range. -/
abbrev Value (w : Width) : Type := { n : Int // w.low ≤ n ∧ n ≤ w.high }

theorem zero_mem (w : Width) : w.low ≤ 0 ∧ 0 ≤ w.high := by
  cases w <;> decide

/-- Zero, which is in every range. -/
def zero (w : Width) : w.Value := ⟨0, w.zero_mem⟩

end Width

/-- What a record makes of a member that is not there. -/
inductive Absence
  /-- Reading fails. -/
  | refused
  /-- Reading takes the default, and writing always writes the member. -/
  | defaulted
  /-- Reading takes the default, and writing leaves a default out. -/
  | omitted
deriving DecidableEq, Repr

mutual
/-- What a document, or a part of one, looks like. -/
inductive Shape where
  | text
  | flag
  | int (width : Width)
  | moment
  | optional (value : Shape)
  | list (item : Shape)
  | table (value : Shape)
  | record (name : String) (fields : Fields)

/-- The members of a record, in order. -/
inductive Fields where
  | nil
  | cons (name : String) (value : Shape) (absence : Absence) (rest : Fields)
end

mutual
/-- The values that a shape holds. -/
def Shape.El : Shape → Type
  | .text => String
  | .flag => Bool
  | .int width => width.Value
  | .moment => Time.Moment
  | .optional value => Option value.El
  | .list item => List item.El
  | .table value => Table value.El
  | .record _ fields => fields.El

/-- The values of a record's members. -/
def Fields.El : Fields → Type
  | .nil => Unit
  | .cons _ value _ rest => value.El × rest.El
end

mutual
/-- The default of a shape: nothing, nought or no. -/
def Shape.default : (s : Shape) → s.El
  | .text => ("" : String)
  | .flag => false
  | .int width => width.zero
  | .moment => Time.epoch
  | .optional _ => none
  | .list _ => []
  | .table _ => Table.empty
  | .record _ fields => fields.default

/-- The defaults of a record's members. -/
def Fields.default : (fs : Fields) → fs.El
  | .nil => ()
  | .cons _ value _ rest => (value.default, rest.default)
end

mutual
/-- Whether a value is the default of its shape. -/
def Shape.isDefault : (s : Shape) → s.El → Bool
  | .text, v => String.isEmpty v
  | .flag, v => !v
  | .int _, v => v.val = 0
  | .moment, v => Time.Moment.isEpoch v
  | .optional _, v => Option.isNone v
  | .list _, v => List.isEmpty v
  | .table _, v => Table.isEmpty v
  | .record _ fields, v => fields.isDefault v

/-- Whether all members are defaults. -/
def Fields.isDefault : (fs : Fields) → fs.El → Bool
  | .nil, _ => true
  | .cons _ value _ rest, v => value.isDefault v.1 && rest.isDefault v.2
end

/-- Members that are all treated alike, in front of others. -/
def Fields.of (absence : Absence) (members : List (String × Shape)) (rest : Fields) : Fields :=
  match members with
  | [] => rest
  | (name, value) :: members => .cons name value absence (.of absence members rest)

/-- The name of a record. -/
def Shape.name? : Shape → Option String
  | .record name _ => some name
  | _ => none

/-- How many members a record has. -/
def Fields.count : Fields → Nat
  | .nil => 0
  | .cons _ _ _ rest => rest.count + 1

/-- The names of a record's members. -/
def Fields.names : Fields → List String
  | .nil => []
  | .cons name _ _ rest => name :: rest.names

mutual
/-- The JSON value of a document. -/
def Shape.toJson : (s : Shape) → s.El → Json.Value
  | .text, v => .text v
  | .flag, v => .flag v
  | .int _, v => .integer v.val
  | .moment, v => .text (Time.Moment.text v)
  | .optional value, v =>
    match v with
    | none => .null
    | some v => value.toJson v
  | .list item, v => .list (List.map item.toJson v)
  | .table value, v => .object ((Table.entries v).map fun e => (e.1, value.toJson e.2))
  | .record _ fields, v => .object (fields.toMembers v)

/-- The members of a record that are written. -/
def Fields.toMembers : (fs : Fields) → fs.El → List (String × Json.Value)
  | .nil, _ => []
  | .cons name value absence rest, v =>
    if absence = .omitted && value.isDefault v.1 then rest.toMembers v.2
    else (name, value.toJson v.1) :: rest.toMembers v.2
end

/-- The text of a document. -/
def Shape.write (s : Shape) (v : s.El) : String := (s.toJson v).compact

/-- The payload that carries a document. -/
def Shape.toPayload (s : Shape) (v : s.El) : ByteArray := (s.write v).toUTF8

end Gallows.Document
