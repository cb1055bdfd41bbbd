/-!
TOML documents as trees.
-/
namespace Gallows.Toml

/-- How a table came into a document, which decides what may still be added to it. -/
inductive Origin
  /-- By a header of its own. -/
  | header
  /-- As a table on the way to one with a header. -/
  | implied
  /-- As a table on the way to a dotted key. -/
  | dotted
  /-- As a value in braces. -/
  | braces
deriving DecidableEq, Repr

/-- Whether a table only stands on the way to something else. -/
def Origin.isImplicit : Origin → Bool
  | implied | dotted => true
  | header | braces => false

/-- A value, a table, or the tables of an array. Of numbers with a fraction or an exponent and of
dates and times nothing is kept but that they are there. -/
inductive Node
  | text (value : String)
  | integer (value : Int)
  | flag (value : Bool)
  | real
  | moment
  | list (items : List Node)
  | table (origin : Origin) (members : List (String × Node))
  | tables (items : List (List (String × Node)))

/-- The members of a table, in the order in which they came. -/
abbrev Members := List (String × Node)

namespace Members

/-- Puts a value in the place of the one under a key. -/
def replace (key : String) (value : Node) (members : Members) : Members :=
  members.map fun m => if m.1 = key then (key, value) else m

/-- Applies `change` to the table at the end of a path. Tables that are missing on the way are
made. A path does not lead through other values. Dotted keys lead through no table that has been
defined elsewhere; headers lead into the last table of an array. -/
def alter (dotted : Bool) (change : Origin → Members → Option Members) :
    (path : List String) → Origin → Members → Option Members
  | [], origin, members => change origin members
  | key :: path, _, members =>
    match members.lookup key with
    | none => do
      let origin := if dotted then Origin.dotted else .implied
      let inner ← alter dotted change path origin []
      return members ++ [(key, .table origin inner)]
    | some (.table origin inner) => do
      if origin = .braces || dotted && !origin.isImplicit then none
      let inner ← alter dotted change path origin inner
      return replace key (.table origin inner) members
    | some (.tables items) => do
      let last ← items.getLast?
      let inner ← alter dotted change path .header last
      return replace key (.tables (items.dropLast ++ [inner])) members
    | some _ => none

/-- Adds a value under a dotted key. No key is used twice, and a table that has been defined
elsewhere is not added to. -/
def add (path : List String) (key : String) (value : Node) (members : Members) : Option Members :=
  alter true (fun origin members =>
    if (origin = .dotted) = path.isEmpty || (members.lookup key).isSome then none
    else some (members ++ [(key, value)])) path .header members

/-- Adds values under dotted keys, in order. -/
def addAll (entries : List (List String × String × Node)) (members : Members) : Option Members :=
  entries.foldlM (fun members (path, key, value) => members.add path key value) members

end Members
end Gallows.Toml
