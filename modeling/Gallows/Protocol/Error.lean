import Gallows.Frame.Basic
import Gallows.Json.Error
import Gallows.Transport.Fault
import Gallows.Wire.Error

/-!
Everything that can be wrong with what a peer sends.
-/
namespace Gallows

/-- What is wrong with what a peer sent, or with sending to it. -/
inductive ProtocolError
  | frame (e : Frame.Error)
  | envelope (e : Wire.Error)
  | document (e : Json.Error)
  | transport (f : Fault)
  | unknownEvent (tag : String)
deriving DecidableEq, Repr

namespace ProtocolError

/-- Whether the cause is that the peer has gone. -/
def isPeerGone : ProtocolError → Bool
  | frame (.closed ..) => true
  | transport f => f.kind.isPeerGone
  | _ => false

/-- The wording of an error. -/
def message : ProtocolError → String
  | frame e => e.message
  | envelope e => s!"malformed envelope: {e.message}"
  | document e => s!"payload JSON error: {e.message}"
  | transport f => s!"IO error: {f.text}"
  | unknownEvent tag => s!"unknown event type: {tag}"

end ProtocolError
end Gallows
