import Gallows.Protocol.Command
import Gallows.Protocol.Error
import Gallows.Status

/-!
Why something that the client was asked for did not happen.
-/
namespace Gallows

/-- Why an operation of the client failed. -/
inductive Failure
  /-- No connection to the endpoint came about. -/
  | connect (endpoint : String) (cause : Fault)
  /-- What the server sent, or was to be sent, breaks the protocol. -/
  | protocol (cause : ProtocolError)
  /-- The server turned the request down. -/
  | rejected (status : Status) (message : String)
  /-- The document of a successful reply is not one of this command. -/
  | reply (command : Command) (cause : ProtocolError)
  /-- An open connection failed. -/
  | transport (cause : Fault)
  /-- Something that was waited for did not arrive in time. -/
  | timeout (awaited : String)
  /-- The settings do not work. -/
  | settings (complaint : String)
deriving DecidableEq, Repr

namespace Failure

/-- The kinds of failures that callers tell apart. -/
inductive Kind
  | connection
  | protocol
  | server
  | deserialization
  | io
  | timeout
  | config
deriving DecidableEq, Repr

/-- The kind of a failure. That the peer went away counts as a failure of the connection. -/
def kind : Failure → Kind
  | connect .. => .connection
  | protocol cause => if cause.isPeerGone then .connection else .protocol
  | rejected .. => .server
  | reply .. => .deserialization
  | transport _ => .io
  | timeout _ => .timeout
  | settings _ => .config

/-- The status that the server answered with, if it turned the request down. -/
def status? : Failure → Option Status
  | rejected status _ => some status
  | _ => none

/-- The wording of a failure. -/
def message : Failure → String
  | connect endpoint cause => s!"failed to connect to {endpoint}: {cause.text}"
  | protocol cause => s!"protocol error: {cause.message}"
  | rejected status message => s!"server returned {status.text}: {message}"
  | reply command cause => s!"failed to decode {command.wireName} reply: {cause.message}"
  | transport cause => s!"IO error: {cause.text}"
  | timeout awaited => s!"timed out {awaited}"
  | settings complaint => s!"configuration error: {complaint}"

/-- Whether the connection is no longer of use. -/
def isLoss : Failure → Bool
  | transport _ => true
  | protocol cause => cause.isPeerGone
  | _ => false

/-- Whether what follows on the connection starts with a new frame. -/
def isAligned : Failure → Bool
  | protocol (.envelope _) => true
  | _ => false

end Failure

/-- How something that takes time ends; `none` if it does not before its deadline. -/
abbrev Outcome (α : Type) : Type := Option (Except Failure α)

end Gallows
