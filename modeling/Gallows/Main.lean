import Gallows.Program

/-!
The program on a command line. It looks at the machine for what its run depends on, runs, and shows
what comes of it. It has no way to a server of its own, so a command that needs one fails to
connect.
-/
namespace Gallows.Main

/-- The environment variables that every run looks at. -/
def environmentNames : List String :=
  ["HOME", "XDG_CONFIG_HOME"] ++ Invocation.flags.filterMap (·.stand?)

/-- The values of environment variables. -/
def environment (names : List String) : IO (String → Option String) := do
  let values ← names.mapM fun name => do return (name, ← IO.getEnv name)
  return fun name => (values.lookup name).join

/-- What an error in reading a file means. -/
def pathError : IO.Error → PathError
  | .inappropriateType _ 21 _ => .isDirectory
  | .inappropriateType .. => .notDirectory
  | .invalidArgument .. => .tooLong
  | .permissionDenied .. => .denied
  | _ => .missing

/-- What a path leads to. -/
def entry (path : String) : IO (Except PathError Entry) := do
  try
    let bytes ← IO.FS.readBinFile path
    return .ok (.file bytes)
  catch e =>
    match pathError e with
    | .isDirectory => return .ok .directory
    | e => return .error e

/-- The file that a run takes its settings from. -/
def settingsPath (host : Host) (words : List String) : String :=
  ((Invocation.read host words).toOption.bind (·.config)).getD (Settings.defaultPath host)

/-- The environment variable that holds the password of a run, if one does. -/
def passwordVariable? (host : Host) (words : List String) : Option String := do
  let i ← (Invocation.read host words).toOption
  let settings ← (Settings.load host i.config).toOption
  match Reference.of? (← (i.apply settings).player.password) with
  | some (.environment name) => some name
  | _ => none

/-- The machine, as far as a run looks at it. -/
def machine (words : List String) : IO Host := do
  let env ← environment environmentNames
  let path := settingsPath { env } words
  let found ← entry path
  let host : Host := { env, entry := fun p => if p = path then found else .error .missing }
  let names := (passwordVariable? host words).toList ++ environmentNames
  return { host with env := ← environment names }

/-- Shows how a run ended, and gives the exit code. -/
def present (ending : Ending) : IO UInt32 := do
  let help := Invocation.program.help Invocation.programName
  match ending with
  | .usage .version =>
    IO.println Invocation.version
    return 0
  | .help | .usage .help =>
    IO.print help
    return 0
  | .usage u =>
    IO.eprint help
    return u.exit.toUInt32
  | .done report =>
    IO.print report.stdout
    match report.result with
    | some (.error f) =>
      IO.eprintln s!"error: {f.message}"
      return 1
    | _ => return 0

/-- Runs the program with these words behind its name. -/
def run (words : List String) : IO UInt32 := do
  let net : Network := { outage := some (.ofSystem .networkUnreachable) }
  let (ending, _) := Program.run (← machine words) words .never 0 net
  present ending

end Gallows.Main

/-- The program. -/
def main (words : List String) : IO UInt32 := Gallows.Main.run words
