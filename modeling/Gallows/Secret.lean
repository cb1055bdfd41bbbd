import Gallows.Host
import Gallows.Text.Blank

/-!
Passwords that are kept elsewhere. A setting either is the password itself or refers to an entry
of the password store (`pass::entry`) or to an environment variable (`env::name`).
-/
namespace Gallows

/-- Where a password is kept. -/
inductive Reference
  | entry (path : String)
  | environment (name : String)
deriving DecidableEq, Repr

namespace Reference

/-- What a reference to an entry of the password store starts with. -/
def entryMark : List Char := "pass::".toList

/-- What a reference to an environment variable starts with. -/
def environmentMark : List Char := "env::".toList

/-- The reference that a setting is; `none` if it is the password itself. -/
def of? (setting : String) : Option Reference :=
  match entryMark.isPrefixOf? setting.toList with
  | some path => some (.entry (String.ofList path))
  | none =>
    (environmentMark.isPrefixOf? setting.toList).map fun name => .environment (String.ofList name)

end Reference

namespace Secret

/-- Whether a setting refers to a password that is kept elsewhere. -/
def isReference (setting : String) : Bool :=
  Reference.entryMark.isPrefixOf setting.toList ||
    Reference.environmentMark.isPrefixOf setting.toList

/-- Why no password was found behind a reference. -/
inductive Error
  | unset (name : String)
  | noStore (entry : String)
  /-- The store cannot be asked for an entry whose path holds a zero byte. -/
  | untellable (entry : String)
  /-- The store cannot be asked for an entry whose path is too long for an argument. -/
  | overlong (entry : String)
  | refused (entry : String) (exit : Nat) (complaint : String)
  | nothing (entry : String)
deriving DecidableEq, Repr

/-- The wording of an error. -/
def Error.message : Error → String
  | unset name => s!"environment variable `{name}` is not set"
  | noStore entry => s!"failed to run `pass show {entry}`: {PathError.missing.message}"
  | untellable entry => s!"failed to run `pass show {entry}`: nul byte found in provided data"
  | overlong entry => s!"failed to run `pass show {entry}`: Argument list too long (os error 7)"
  | refused entry exit complaint =>
    s!"`pass show {entry}` failed (exit status: {exit}): {complaint}"
  | nothing entry => s!"`pass show {entry}` printed nothing"

/-- A text up to its first line break; `none` if it is empty. -/
def firstLine? (text : String) : Option String :=
  match text.toList with
  | [] => none
  | cs =>
    let line := cs.takeWhile (· ≠ '\n')
    let broken := line.length < cs.length
    some <| String.ofList <|
      if broken && line.getLast? = some '\r' then line.dropLast else line

/-- The password in what the store printed for an entry: its first line. -/
def ofRun (entry : String) (run : Run) : Except Error String :=
  if run.exit ≠ 0 then .error (.refused entry run.exit (Text.trim run.stderr))
  else
    match firstLine? run.stdout with
    | none => .error (.nothing entry)
    | some line => .ok line

/-- How many bytes an argument of a program may have. -/
def longestArgument : Nat := 131071

/-- The password in an entry of the store. -/
def ofEntry (host : Host) (entry : String) : Except Error String :=
  if entry.toList.contains '\x00' then .error (.untellable entry)
  else
    match host.pass with
    | none => .error (.noStore entry)
    | some run =>
      if longestArgument < entry.utf8ByteSize then .error (.overlong entry)
      else ofRun entry (run entry)

/-- The password that a setting stands for. -/
def resolve (host : Host) (setting : String) : Except Error String :=
  match Reference.of? setting with
  | none => .ok setting
  | some (.entry path) => ofEntry host path
  | some (.environment name) =>
    match host.valueOf name with
    | none => .error (.unset name)
    | some value => .ok value

end Secret
end Gallows
