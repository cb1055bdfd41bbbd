/-!
JSON values and how they are written: without blanks, or laid out over lines.
-/
namespace Gallows.Json

/-- A JSON value whose numbers are integers. -/
inductive Value
  | null
  | flag (value : Bool)
  | integer (value : Int)
  | text (value : String)
  | list (items : List Value)
  | object (members : List (String × Value))

/-- Two hexadecimal digits. -/
def hexByte (n : Nat) : String := String.ofList [Nat.digitChar (n / 16), Nat.digitChar (n % 16)]

/-- A character within a string: quotes, backslashes and controls are escaped. -/
def escapeChar (c : Char) : String :=
  if c = '"' then "\\\""
  else if c = '\\' then "\\\\"
  else if c = '\n' then "\\n"
  else if c = '\r' then "\\r"
  else if c = '\t' then "\\t"
  else if c = '\x08' then "\\b"
  else if c = '\x0c' then "\\f"
  else if c.toNat < 32 then "\\u00" ++ hexByte c.toNat
  else String.singleton c

/-- A string. -/
def quote (s : String) : String :=
  s.toList.foldl (fun acc c => acc ++ escapeChar c) "\"" ++ "\""

mutual
/-- A value without blanks. -/
def Value.compact : Value → String
  | .null => "null"
  | .flag value => if value then "true" else "false"
  | .integer value => toString value
  | .text value => quote value
  | .list items => "[" ++ String.intercalate "," (compactItems items) ++ "]"
  | .object members => "\x7b" ++ String.intercalate "," (compactMembers members) ++ "\x7d"

/-- The items of a list, each without blanks. -/
def compactItems : List Value → List String
  | [] => []
  | v :: items => v.compact :: compactItems items

/-- The members of an object, each without blanks. -/
def compactMembers : List (String × Value) → List String
  | [] => []
  | (k, v) :: members => (quote k ++ ":" ++ v.compact) :: compactMembers members
end

/-- The start of a line at a level of nesting. -/
def lineStart (level : Nat) : String := "\n".pushn ' ' (2 * level)

/-- Parts between brackets, each on a line of its own, nested in `level` containers. Without
parts the brackets stand side by side. -/
def block (level : Nat) (opening closing : String) (parts : List String) : String :=
  if parts.isEmpty then opening ++ closing
  else
    opening ++ lineStart (level + 1) ++
      String.intercalate ("," ++ lineStart (level + 1)) parts ++ lineStart level ++ closing

mutual
/-- A value laid out over lines, nested in `level` containers. -/
def Value.layout (level : Nat) : Value → String
  | .null => "null"
  | .flag value => if value then "true" else "false"
  | .integer value => toString value
  | .text value => quote value
  | .list items => block level "[" "]" (layoutItems (level + 1) items)
  | .object members => block level "\x7b" "\x7d" (layoutMembers (level + 1) members)

/-- The items of a list, each laid out. -/
def layoutItems (level : Nat) : List Value → List String
  | [] => []
  | v :: items => v.layout level :: layoutItems level items

/-- The members of an object, each laid out. -/
def layoutMembers (level : Nat) : List (String × Value) → List String
  | [] => []
  | (k, v) :: members => (quote k ++ ": " ++ v.layout level) :: layoutMembers level members
end

/-- A value laid out over lines. -/
def Value.pretty (v : Value) : String := v.layout 0

end Gallows.Json
