import Gallows.Document.Reader
import Gallows.Json.Node

/-!
Documents from values that have already been read.
-/
namespace Gallows.Document
open Json (Mismatch Node)

/-- What a list with more items than a record has members should have been. -/
def itemsForm (count : Nat) : String :=
  s!"{count} element" ++ (if count = 1 then "" else "s") ++ " in sequence"

/-- An integer of a range. -/
def intOfNode (width : Width) : Node → Except Mismatch width.Value
  | .number (.integer n) =>
    if h : width.low ≤ n ∧ n ≤ width.high then .ok ⟨n, h⟩
    else .error (.value (.integer n) width.name)
  | node => .error (.type node.found width.name)

/-- A moment, written as a string. -/
def momentOfNode : Node → Except Mismatch Time.Moment
  | .text text => (Time.Moment.ofText text).mapError .moment
  | node => .error (.type node.found "an RFC 3339 formatted date and time string")

mutual
/-- The document of shape `s` that a value holds. -/
def Shape.ofNode : (s : Shape) → Node → Except Mismatch s.El
  | .text, node =>
    match node with
    | .text value => .ok (value : String)
    | node => .error (.type node.found "a string")
  | .flag, node =>
    match node with
    | .flag value => .ok (value : Bool)
    | node => .error (.type node.found "a boolean")
  | .int width, node => intOfNode width node
  | .moment, node => momentOfNode node
  | .optional value, node =>
    match node with
    | .null => .ok (none : Option value.El)
    | node => do
      let v ← value.ofNode node
      return (some v : Option value.El)
  | .list item, node =>
    match node with
    | .list items => (items.mapM item.ofNode : Except Mismatch (List item.El))
    | node => .error (.type node.found "a sequence")
  | .table value, node =>
    match node with
    | .object members =>
      (members.foldlM (fun t (e : String × Node) => do return t.insert e.1 (← value.ofNode e.2))
        Table.empty : Except Mismatch (Table value.El))
    | node => .error (.type node.found "a map")
  | .record name fields, node =>
    match node with
    | .list items => do
      let v ← fields.ofItems (listForm name fields.count) 0 items
      if fields.count < items.length then
        throw (.length items.length (itemsForm fields.count))
      return (v : fields.El)
    | .object members => do
      let slots ← members.foldlM (fun slots e => fields.putMember e.1 e.2 slots) fields.noSlots
      fields.ofSlots slots
    | node => .error (.type node.found s!"struct {name}")

/-- Puts the value behind a key into its slot. -/
def Fields.putMember : (fs : Fields) → String → Node → fs.Slots → Except Mismatch fs.Slots
  | .nil, _, _, slots => .ok slots
  | .cons name value _ rest, key, node, slots =>
    if key = name then
      match slots.1 with
      | some _ => .error (.duplicate name)
      | none => do return (some (← value.ofNode node), slots.2)
    else do return (slots.1, ← rest.putMember key node slots.2)

/-- The members in order from the one at `index` on. -/
def Fields.ofItems (form : String) :
    (fs : Fields) → (index : Nat) → List Node → Except Mismatch fs.El
  | .nil, _, _ => .ok ()
  | .cons _ value absence rest, index, items =>
    match items with
    | node :: items => do
      let v ← value.ofNode node
      return (v, ← rest.ofItems form (index + 1) items)
    | [] =>
      if absence = .refused then .error (.length index form)
      else do return (value.default, ← rest.ofItems form (index + 1) [])
end

end Gallows.Document
