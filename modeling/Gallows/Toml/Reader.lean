import Gallows.Toml.Number

/-!
Reading TOML documents. A document is a sequence of sections: a header, which the first one lacks,
and entries. The sections are then put together into one tree.
-/
namespace Gallows.Toml

/-- A value under a dotted key. -/
abbrev Entry := List String × String × Node

/-- The items of a list and its closing bracket. Every item takes something from the text, so
`fuel` is no limit when it is above the text's length. -/
def scanItems (scanItem : Scan Node) : (fuel : Nat) → Scan (List Node)
  | 0, _ => none
  | fuel + 1, cs => do
    match ← dropVoid? false cs with
    | ']' :: rest => some ([], rest)
    | cs =>
      let (item, rest) ← scanItem cs
      match ← dropVoid? false rest with
      | ',' :: rest =>
        let (items, rest) ← scanItems scanItem fuel rest
        return (item :: items, rest)
      | ']' :: rest => some ([item], rest)
      | _ => none

/-- A dotted key, an equals sign and a value. -/
def scanEntry (scanItem : Scan Node) (cs : List Char) : Option (Entry × List Char) := do
  let ((path, key), rest) ← scanKey cs
  let (value, rest) ← scanItem (dropBlank (← expect '=' rest))
  return ((path, key, value), rest)

/-- The entries of a table in braces and the closing brace; `fuel` is no limit when it is above the
text's length. -/
def scanBraces (scanItem : Scan Node) : (fuel : Nat) → Scan (List Entry)
  | 0, _ => none
  | fuel + 1, cs => do
    let (entry, rest) ← scanEntry scanItem cs
    match dropBlank rest with
    | ',' :: rest =>
      let (entries, rest) ← scanBraces scanItem fuel rest
      return (entry :: entries, rest)
    | '\x7d' :: rest => some ([entry], rest)
    | _ => none

/-- A value in which lists and tables are nested at most `depth` deep. -/
def scanValue : (depth : Nat) → Scan Node
  | _, [] => none
  | depth, c :: rest =>
    if c = '"' || c = '\'' then
      (scanString (c :: rest)).map fun (text, rest) => (.text text, rest)
    else if c = '[' then
      match depth with
      | 0 => none
      | depth + 1 =>
        (scanItems (scanValue depth) (rest.length + 1) rest).map fun (items, rest) =>
          (.list items, rest)
    else if c = '\x7b' then
      match depth with
      | 0 => none
      | depth + 1 =>
        match dropBlank rest with
        | '\x7d' :: rest => some (.table .braces [], rest)
        | inner => do
          let (entries, rest) ← scanBraces (scanValue depth) (inner.length + 1) inner
          return (.table .braces (← Members.addAll entries []), rest)
    else if c = 't' then (['r', 'u', 'e'].isPrefixOf? rest).map fun rest => (.flag true, rest)
    else if c = 'f' then
      (['a', 'l', 's', 'e'].isPrefixOf? rest).map fun rest => (.flag false, rest)
    else scanNumber (c :: rest)

/-- The header of a section. -/
inductive Header
  /-- The first section has none; its entries are those of the document. -/
  | root
  | table (path : List String) (key : String)
  /-- One more table of an array. -/
  | element (path : List String) (key : String)
deriving DecidableEq

/-- A header and the entries behind it. -/
structure Section where
  header : Header
  entries : List Entry

/-- The header behind an opening bracket, up to the end of its line. -/
def scanHeader (cs : List Char) : Option (Header × List Char) := do
  match cs with
  | '[' :: cs =>
    let ((path, key), rest) ← scanKey cs
    return (.element path key, ← lineTail? (← expect ']' (← expect ']' rest)))
  | cs =>
    let ((path, key), rest) ← scanKey cs
    return (.table path key, ← lineTail? (← expect ']' rest))

/-- What stands on a line: a header or an entry. -/
abbrev Statement := Header ⊕ Entry

/-- The statements of a text, without the blank lines and comments. Every line takes something
from the text, so `fuel` is no limit when it is above the text's length. -/
def scanStatements : (fuel : Nat) → List Char → Option (List Statement)
  | 0, _ => none
  | fuel + 1, cs => do
    match dropBlank cs with
    | [] => some []
    | '#' :: rest => scanStatements fuel (← lineEnd? (dropComment ('#' :: rest)))
    | '[' :: rest =>
      let (header, rest) ← scanHeader rest
      return .inl header :: (← scanStatements fuel rest)
    | cs =>
      match newline? cs with
      | some rest => scanStatements fuel rest
      | none =>
        let (entry, rest) ← scanEntry (scanValue depthLimit) cs
        return .inr entry :: (← scanStatements fuel (← lineTail? rest))

/-- The section of a header and the sections behind it. -/
def sections (header : Header) : List Statement → List Section
  | [] => [⟨header, []⟩]
  | .inl next :: rest => ⟨header, []⟩ :: sections next rest
  | .inr entry :: rest =>
    match sections header rest with
    | s :: rest => { s with entries := entry :: s.entries } :: rest
    | [] => [⟨header, [entry]⟩]

/-- Adds a section to a document. A table has at most one header. -/
def Members.extend (document : Members) (s : Section) : Option Members :=
  match s.header with
  | .root => Members.addAll s.entries document
  | .table path key =>
    document.alter false (fun _ members =>
      match members.lookup key with
      | none => do return members ++ [(key, .table .header (← Members.addAll s.entries []))]
      | some (.table .implied inner) => do
        return members.replace key (.table .header (← Members.addAll s.entries inner))
      | some _ => none) path .header
  | .element path key =>
    document.alter false (fun _ members =>
      match members.lookup key with
      | none => do return members ++ [(key, .tables [← Members.addAll s.entries []])]
      | some (.tables items) => do
        return members.replace key (.tables (items ++ [← Members.addAll s.entries []]))
      | some _ => none) path .header

/-- A text without the byte order mark in front. -/
def dropMark : List Char → List Char
  | '\ufeff' :: rest => rest
  | cs => cs

/-- The members of the document that a text holds. -/
def read? (text : String) : Option Members := do
  let cs := dropMark text.toList
  let statements ← scanStatements (cs.length + 1) cs
  (sections .root statements).foldlM Members.extend []

end Gallows.Toml
