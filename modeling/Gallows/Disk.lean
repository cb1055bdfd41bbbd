import Gallows.Host

/-!
Files in directories, and where the paths among them lead.
-/
namespace Gallows

/-- The files of a machine. A place is given by the names on the way to it from the root. -/
structure Disk where
  files : List (List String × ByteArray)
  /-- Directories besides those that the files are in. -/
  directories : List (List String) := []
  /-- The directory that a path starts from unless it starts with a slash. -/
  here : List String := []

namespace Disk

/-- Whether there is a directory at a place. -/
def isDirectory (d : Disk) (place : List String) : Bool :=
  place.isEmpty || (d.here :: d.directories ++ d.files.map (·.1.dropLast)).any place.isPrefixOf

/-- What is at a place. -/
def entry? (d : Disk) (place : List String) : Option Entry :=
  match d.files.lookup place with
  | some content => some (.file content)
  | none => if d.isDirectory place then some .directory else none

/-- How many bytes a name may have. -/
def longestName : Nat := 255

/-- How many bytes a path may have. -/
def longestPath : Nat := 4095

/-- Takes one name of a path. The root is above itself. -/
def step (d : Disk) (place : List String) (name : String) : Except PathError (List String) :=
  if !d.isDirectory place then .error .notDirectory
  else if name = "" || name = "." then .ok place
  else if name = ".." then .ok place.dropLast
  else if longestName < name.utf8ByteSize then .error .tooLong
  else if (d.entry? (place ++ [name])).isSome then .ok (place ++ [name])
  else .error .missing

/-- What a path leads to. -/
def find (d : Disk) (path : String) : Except PathError Entry := do
  if path.toList.contains '\x00' then throw .zeroByte
  if path.isEmpty then throw .missing
  if longestPath < path.utf8ByteSize then throw .tooLong
  let start := if path.startsWith "/" then [] else d.here
  let place ← (path.splitOn "/").foldlM d.step start
  match d.entry? place with
  | some entry => return entry
  | none => throw .missing

end Disk
end Gallows
