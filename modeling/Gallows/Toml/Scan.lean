/-!
The smallest parts of TOML texts: blanks, comments, strings and keys. A scan takes a part from
the front of a text and gives what it means and the rest; it gives nothing where the part is not
well formed.
-/
namespace Gallows.Toml

/-- A reader of a part at the front of a text. -/
abbrev Scan (α : Type) := List Char → Option (α × List Char)

/-- A blank within a line. -/
def isBlank (c : Char) : Bool := c = ' ' || c = '\t'

/-- A text without the blanks in front. -/
def dropBlank (cs : List Char) : List Char := cs.dropWhile isBlank

/-- A character that may stand in a comment. -/
def isCommentChar (c : Char) : Bool := c = '\t' || (' ' ≤ c && c ≠ '\x7f')

/-- A text behind a line break. -/
def newline? : List Char → Option (List Char)
  | '\n' :: rest => some rest
  | '\r' :: '\n' :: rest => some rest
  | _ => none

/-- A text behind the end of a line, which may be the end of the text. -/
def lineEnd? : List Char → Option (List Char)
  | [] => some []
  | cs => newline? cs

/-- A text without a comment in front. -/
def dropComment : List Char → List Char
  | '#' :: rest => rest.dropWhile isCommentChar
  | cs => cs

/-- A text behind the blanks and the comment that may end a line. -/
def lineTail? (cs : List Char) : Option (List Char) := lineEnd? (dropComment (dropBlank cs))

/-- A text without blanks, line breaks and comments in front; `commenting` tells whether it starts
within a comment. -/
def dropVoid? (commenting : Bool) : List Char → Option (List Char)
  | [] => if commenting then none else some []
  | '\n' :: rest => dropVoid? false rest
  | '\r' :: '\n' :: rest => dropVoid? false rest
  | c :: rest =>
    if commenting then if isCommentChar c then dropVoid? true rest else none
    else if isBlank c then dropVoid? false rest
    else if c = '#' then dropVoid? true rest
    else some (c :: rest)

/-- The escapes of one letter. -/
def escapes : List (Char × Char) :=
  [('b', '\x08'), ('t', '\t'), ('n', '\n'), ('f', '\x0c'), ('r', '\r'), ('"', '"'), ('\\', '\\')]

/-- The value of a hexadecimal digit. -/
def hexDigit? (c : Char) : Option Nat :=
  if c.isDigit then some (c.toNat - '0'.toNat)
  else if 'a' ≤ c && c ≤ 'f' then some (c.toNat - 'a'.toNat + 10)
  else if 'A' ≤ c && c ≤ 'F' then some (c.toNat - 'A'.toNat + 10)
  else none

/-- The character whose code point the digits spell, if there is one. -/
def codePoint? (digits : List Char) : Option Char := do
  let n ← digits.foldlM (fun n c => do return 16 * n + (← hexDigit? c)) 0
  if h : n.isValidChar then some (Char.ofNatAux n h) else none

/-- A character that stands for itself between double quotes. -/
def isBasicChar (c : Char) : Bool :=
  c = '\t' || (' ' ≤ c && c ≠ '"' && c ≠ '\\' && c ≠ '\x7f')

/-- A character that stands for itself between single quotes. -/
def isLiteralChar (c : Char) : Bool := c = '\t' || (' ' ≤ c && c ≠ '\'' && c ≠ '\x7f')

/-- Puts a character in front of what was read. -/
def consing (c : Char) : Option (List Char × List Char) → Option (List Char × List Char) :=
  Option.map fun (text, rest) => (c :: text, rest)

/-- The rest of a string behind its double quote. -/
def scanBasic : Scan (List Char)
  | [] => none
  | '"' :: rest => some ([], rest)
  | '\\' :: 'u' :: a :: b :: c :: d :: rest => do
    consing (← codePoint? [a, b, c, d]) (scanBasic rest)
  | '\\' :: 'U' :: a :: b :: c :: d :: e :: f :: g :: h :: rest => do
    consing (← codePoint? [a, b, c, d, e, f, g, h]) (scanBasic rest)
  | '\\' :: c :: rest => do consing (← escapes.lookup c) (scanBasic rest)
  | c :: rest => if isBasicChar c then consing c (scanBasic rest) else none

/-- The rest of a string behind three double quotes. A backslash at the end of a line takes the
line break and all blank space behind it away; `joining` tells whether the text starts within such
space. One or two quotes in a row belong to the text. -/
def scanBasicLines (joining : Bool) : Scan (List Char)
  | [] => none
  | '"' :: '"' :: '"' :: '"' :: '"' :: rest => some (['"', '"'], rest)
  | '"' :: '"' :: '"' :: '"' :: rest => some (['"'], rest)
  | '"' :: '"' :: '"' :: rest => some ([], rest)
  | '\r' :: '\n' :: rest =>
    if joining then scanBasicLines true rest else consing '\n' (scanBasicLines false rest)
  | '\\' :: 'u' :: a :: b :: c :: d :: rest => do
    consing (← codePoint? [a, b, c, d]) (scanBasicLines false rest)
  | '\\' :: 'U' :: a :: b :: c :: d :: e :: f :: g :: h :: rest => do
    consing (← codePoint? [a, b, c, d, e, f, g, h]) (scanBasicLines false rest)
  | '\\' :: c :: rest =>
    if (newline? (dropBlank (c :: rest))).isSome then scanBasicLines true (c :: rest)
    else do consing (← escapes.lookup c) (scanBasicLines false rest)
  | c :: rest =>
    if joining && (isBlank c || c = '\n') then scanBasicLines true rest
    else if c = '\n' || c = '"' || isBasicChar c then consing c (scanBasicLines false rest)
    else none

/-- The rest of a string behind its single quote. -/
def scanLiteral (cs : List Char) : Option (List Char × List Char) :=
  match cs.dropWhile isLiteralChar with
  | '\'' :: rest => some (cs.takeWhile isLiteralChar, rest)
  | _ => none

/-- The rest of a string behind three single quotes. One or two quotes in a row belong to the
text. -/
def scanLiteralLines : Scan (List Char)
  | [] => none
  | '\'' :: '\'' :: '\'' :: '\'' :: '\'' :: rest => some (['\'', '\''], rest)
  | '\'' :: '\'' :: '\'' :: '\'' :: rest => some (['\''], rest)
  | '\'' :: '\'' :: '\'' :: rest => some ([], rest)
  | '\r' :: '\n' :: rest => consing '\n' (scanLiteralLines rest)
  | c :: rest =>
    if c = '\n' || c = '\'' || isLiteralChar c then consing c (scanLiteralLines rest) else none

/-- A text without the line break that may follow three quotes. -/
def dropFirstBreak (cs : List Char) : List Char := (newline? cs).getD cs

/-- A string of any form. -/
def scanString (cs : List Char) : Option (String × List Char) :=
  Option.map (fun (text, rest) => (String.ofList text, rest)) <|
    match cs with
    | '"' :: '"' :: '"' :: rest => scanBasicLines false (dropFirstBreak rest)
    | '"' :: rest => scanBasic rest
    | '\'' :: '\'' :: '\'' :: rest => scanLiteralLines (dropFirstBreak rest)
    | '\'' :: rest => scanLiteral rest
    | _ => none

/-- A character of a key without quotes. -/
def isBareChar (c : Char) : Bool := c.isAlphanum || c = '_' || c = '-'

/-- A key without dots. -/
def scanSimpleKey (cs : List Char) : Option (String × List Char) :=
  match cs with
  | '"' :: rest => (scanBasic rest).map fun (text, rest) => (String.ofList text, rest)
  | '\'' :: rest => (scanLiteral rest).map fun (text, rest) => (String.ofList text, rest)
  | cs =>
    if (cs.takeWhile isBareChar).isEmpty then none
    else some (String.ofList (cs.takeWhile isBareChar), cs.dropWhile isBareChar)

/-- The parts of a dotted key with the blanks around it; at most `limit` of them. -/
def scanParts : (limit : Nat) → Scan (List String)
  | 0, _ => none
  | limit + 1, cs => do
    let (key, rest) ← scanSimpleKey (dropBlank cs)
    match dropBlank rest with
    | '.' :: rest =>
      let (keys, rest) ← scanParts limit rest
      return (key :: keys, rest)
    | rest => return ([key], rest)

/-- How many parts a key may have, and how deeply values may be nested. -/
def depthLimit : Nat := 79

/-- A dotted key: the path to its last part, and that part. -/
def scanKey (cs : List Char) : Option ((List String × String) × List Char) := do
  let (keys, rest) ← scanParts depthLimit cs
  return ((keys.dropLast, ← keys.getLast?), rest)

end Gallows.Toml
