/-!
Failures of the transport below the protocol.
-/
namespace Gallows

namespace Fault

/-- What kind of failure it is, as far as anything depends on it. -/
inductive Kind
  | interrupted
  | unexpectedEnd
  | connectionReset
  | connectionAborted
  | brokenPipe
  | connectionRefused
  | networkUnreachable
  | notConnected
  | timedOut
  | writeZero
  | other (name : String)
deriving DecidableEq, Repr

/-- Whether a failure of this kind means that the peer has gone. -/
def Kind.isPeerGone : Kind → Bool
  | unexpectedEnd | connectionReset | connectionAborted | brokenPipe => true
  | _ => false

end Fault

/-- A failed read, write or connect. -/
structure Fault where
  kind : Fault.Kind
  text : String
deriving DecidableEq, Repr

namespace Fault

/-- A failure that goes away when the operation is tried again. -/
def isTransient (f : Fault) : Bool := f.kind = .interrupted

/-- What the system calls a failure of a kind. -/
def systemText : Kind → String
  | .connectionReset => "Connection reset by peer (os error 104)"
  | .brokenPipe => "Broken pipe (os error 32)"
  | .connectionRefused => "Connection refused (os error 111)"
  | .networkUnreachable => "Network is unreachable (os error 101)"
  | .notConnected => "not connected"
  | _ => "failed"

/-- A failure that the system reports. -/
def ofSystem (kind : Kind) : Fault := ⟨kind, systemText kind⟩

/-- A write that took nothing. -/
def nothingWritten : Fault := ⟨.writeZero, "failed to write whole buffer"⟩

end Fault
end Gallows
