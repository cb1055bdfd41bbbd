import Gallows.Failure
import Gallows.Secret

/-!
What can be wrong with settings.
-/
namespace Gallows.Settings

/-- What is wrong with settings. -/
inductive Error
  | unreadable (path cause : String)
  | unparsable (path : String)
  | emptyAddress
  | zeroPort
  | equalPorts
  | zeroReadTimeout
  | blankUsername
  | noUsername (path : String)
  | password (cause : Secret.Error)
  /-- A number is too great to be written. -/
  | unwritable
deriving DecidableEq, Repr

/-- The wording of an error. -/
def Error.message : Error → String
  | unreadable path cause => s!"failed to read {path}: {cause}"
  | unparsable path => s!"failed to parse {path}"
  | emptyAddress => "server.address must not be empty"
  | zeroPort => "server ports must be non-zero"
  | equalPorts => "server.game_port and server.notification_port must differ"
  | zeroReadTimeout => "server.read_timeout_ms must be non-zero"
  | blankUsername => "player.username must not be blank"
  | noUsername path =>
    s!"no username set. Pass --username or add to {path}:\n  [player]\n  username = \"alice\""
  | password cause => s!"failed to resolve password: {cause.message}"
  | unwritable => "failed to serialize config: out-of-range value for u64 type"

/-- An error in settings as a failure of what needed them. -/
def Error.toFailure (e : Error) : Failure := .settings e.message

end Gallows.Settings
