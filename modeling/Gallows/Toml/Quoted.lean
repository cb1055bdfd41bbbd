/-!
How strings are written in TOML texts. Of the four forms of a string the plainest is taken that
shows the text without escapes; a text that needs escapes stands between double quotes.
-/
namespace Gallows.Toml

/-- The forms of a string. -/
inductive Style
  /-- Between double quotes, with escapes. -/
  | basic
  /-- Between single quotes, as it is. -/
  | literal
  /-- Between three double quotes, with escapes; line breaks stand as they are. -/
  | basicLines
  /-- Between three single quotes, as it is. -/
  | literalLines
deriving DecidableEq, Repr

/-- The length of the longest row of `c` in a text, when a row of `n` stands in front of it. -/
def longestRow (c : Char) (n : Nat) : List Char → Nat
  | [] => n
  | d :: rest => if d = c then longestRow c (n + 1) rest else max n (longestRow c 0 rest)

/-- A control character that only an escape can show. -/
def needsEscape (c : Char) : Bool := (c < ' ' && c ≠ '\t' && c ≠ '\n') || c = '\x7f'

/-- The form that a text is written in. -/
def Style.of (text : List Char) : Style :=
  let escapes := text.any needsEscape
  let slashes := text.contains '\\'
  let lines := text.contains '\n'
  let doubles := longestRow '"' 0 text
  let singles := longestRow '\'' 0 text
  if !escapes && !slashes && doubles = 0 && !lines then .basic
  else if !escapes && singles = 0 && !lines then .literal
  else if !escapes && !slashes && doubles ≤ 2 then .basicLines
  else if !escapes && singles ≤ 2 then .literalLines
  else if lines then .basicLines
  else .basic

/-- The escape of a character other than quotes, or the character itself. -/
def escape (c : Char) : List Char :=
  if c = '\x08' then ['\\', 'b']
  else if c = '\t' then ['\\', 't']
  else if c = '\n' then ['\\', 'n']
  else if c = '\x0c' then ['\\', 'f']
  else if c = '\r' then ['\\', 'r']
  else if c = '\\' then ['\\', '\\']
  else if c < ' ' || c = '\x7f' then
    ['\\', 'u', '0', '0', (Nat.digitChar (c.toNat / 16)).toUpper,
      (Nat.digitChar (c.toNat % 16)).toUpper]
  else [c]

/-- A text between double quotes. -/
def basicBody (text : List Char) : List Char :=
  text.flatMap fun c => if c = '"' then ['\\', '"'] else escape c

/-- A text between three double quotes, of which `row` quotes stand in front of it: the third
quote of a row is escaped. -/
def basicLinesBody (row : Nat) : List Char → List Char
  | [] => []
  | c :: rest =>
    if c = '"' then
      if row = 2 then '\\' :: '"' :: basicLinesBody 0 rest else '"' :: basicLinesBody (row + 1) rest
    else if c = '\n' then '\n' :: basicLinesBody 0 rest
    else escape c ++ basicLinesBody 0 rest

/-- A line break in front of a text that has line breaks of its own. -/
def leadingBreak (text : List Char) : List Char := if text.contains '\n' then ['\n'] else []

/-- A text as a string of the given form. -/
def Style.write (style : Style) (text : List Char) : List Char :=
  match style with
  | basic => ['"'] ++ basicBody text ++ ['"']
  | literal => ['\''] ++ text ++ ['\'']
  | basicLines =>
    ['"', '"', '"'] ++ leadingBreak text ++ basicLinesBody 0 text ++ ['"', '"', '"']
  | literalLines =>
    ['\'', '\'', '\''] ++ leadingBreak text ++ text ++ ['\'', '\'', '\'']

/-- A text as a string. -/
def quote (text : String) : String :=
  String.ofList ((Style.of text.toList).write text.toList)

end Gallows.Toml
