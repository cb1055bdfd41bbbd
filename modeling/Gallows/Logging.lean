/-!
How the program logs.
-/
namespace Gallows.Logging

/-- How much a log line matters. -/
inductive Level
  | error
  | warn
  | info
  | debug
  | trace
deriving DecidableEq, Repr

/-- The name of a level. -/
def Level.name : Level → String
  | error => "ERROR"
  | warn => "WARN"
  | info => "INFO"
  | debug => "DEBUG"
  | trace => "TRACE"

/-- The forms of log lines. -/
inductive Format
  /-- Several lines for people. -/
  | pretty
  /-- One line. -/
  | compact
  /-- One JSON object. -/
  | json
deriving DecidableEq, Repr

/-- Every form. -/
def Format.all : List Format := [pretty, compact, json]

/-- The name of a form on the command line. -/
def Format.name : Format → String
  | pretty => "pretty"
  | compact => "compact"
  | json => "json"

end Logging

/-- How the program logs. -/
structure Logging where
  /-- The least level that is logged. -/
  level : Logging.Level
  format : Logging.Format
  /-- Whether lines tell where in the program they were written. -/
  location : Bool
  timestamp : Bool
  /-- What decides about lines in place of the level. -/
  filter : Option String
deriving DecidableEq, Repr

namespace Logging

/-- Warnings only. -/
def quiet : Logging where
  level := .warn
  format := .compact
  location := false
  timestamp := false
  filter := none

/-- Everything that helps to find a fault. -/
def verbose : Logging := { quiet with level := .debug, location := true, timestamp := true }

/-- The filter that the level stands for. -/
def directive (logging : Logging) : String := s!"hangman={logging.level.name}"

end Logging
end Gallows
