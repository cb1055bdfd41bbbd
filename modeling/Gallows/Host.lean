/-!
What the program finds on the machine that it runs on.
-/
namespace Gallows

/-- What a run of another program left behind. -/
structure Run where
  stdout : String := ""
  stderr : String := ""
  exit : Nat := 0
deriving DecidableEq, Repr

/-- What a path leads to. -/
inductive Entry
  | file (content : ByteArray)
  | directory

/-- Why a path leads to nothing, or to nothing that can be read. -/
inductive PathError
  | missing
  /-- On the way there is a file where a directory is needed. -/
  | notDirectory
  /-- The path leads to a directory, which is read like a file. -/
  | isDirectory
  | tooLong
  | denied
  /-- No path holds a zero byte. -/
  | zeroByte
deriving DecidableEq, Repr

/-- The wording of an error. -/
def PathError.message : PathError → String
  | missing => "No such file or directory (os error 2)"
  | notDirectory => "Not a directory (os error 20)"
  | isDirectory => "Is a directory (os error 21)"
  | tooLong => "File name too long (os error 36)"
  | denied => "Permission denied (os error 13)"
  | zeroByte => "file name contained an unexpected NUL byte"

/-- A machine, as far as the program looks at it. -/
structure Host where
  /-- The environment variables. -/
  env : String → Option String := fun _ => none
  /-- The user's home according to the machine's accounts. -/
  home? : Option String := none
  /-- What is on the disk, by paths. -/
  entry : String → Except PathError Entry := fun _ => .error .missing
  /-- The password store, asked for an entry; `none` where it is not installed. -/
  pass : Option (String → Run) := none

namespace Host

/-- What is in a file. -/
def read (host : Host) (path : String) : Except PathError ByteArray := do
  match ← host.entry path with
  | .file content => return content
  | .directory => throw .isDirectory

/-- Whether a path leads to anything. -/
def hasEntry (host : Host) (path : String) : Bool := (host.entry path).toOption.isSome

/-- The value behind a name in the environment, which is a list of texts `name=value`. The name is
the part in front of any equals sign, so that it may reach into the value of a shorter one. -/
def valueOf (host : Host) (name : String) : Option String :=
  match name.toList.span (· ≠ '=') with
  | (_, []) => host.env name
  | (shorter, _ :: start) => do
    let value ← host.env (String.ofList shorter)
    (List.isPrefixOf? (start ++ ['=']) value.toList).map String.ofList

/-- A path within a directory. -/
def within (directory name : String) : String :=
  if directory.toList.getLast? = some '/' then directory ++ name else directory ++ "/" ++ name

/-- The user's home: the one that is set, unless it is empty, or the one that the accounts name. -/
def home (host : Host) : Option String :=
  ((host.env "HOME").filter (!·.isEmpty)).or host.home?

/-- The directory of the user's settings: the one set for all programs, if its path is absolute,
or else the one in the user's home. -/
def settingsDirectory (host : Host) : String :=
  match (host.env "XDG_CONFIG_HOME").filter (·.toList.head? = some '/') with
  | some directory => directory
  | none => (host.home.map (within · ".config")).getD "."

end Host
end Gallows
