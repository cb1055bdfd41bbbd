import Gallows.Text.Invisible

/-!
Texts shown inside messages: between double quotes, with every character that could be mistaken
or overlooked written as an escape.
-/
namespace Gallows.Text

/-- A character inside quotes. -/
def escaped (c : Char) : String :=
  if c = '\x00' then "\\0"
  else if c = '\t' then "\\t"
  else if c = '\r' then "\\r"
  else if c = '\n' then "\\n"
  else if c = '\\' then "\\\\"
  else if c = '"' then "\\\""
  else if isInvisible c then
    "\\u\x7b" ++ String.ofList (Nat.toDigits 16 c.toNat) ++ "\x7d"
  else String.singleton c

/-- A text between quotes. -/
def quoted (s : String) : String :=
  "\"" ++ s.toList.foldl (fun acc c => acc ++ escaped c) "" ++ "\""

end Gallows.Text
