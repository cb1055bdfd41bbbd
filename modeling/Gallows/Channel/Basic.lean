import Gallows.Envelope
import Gallows.Failure
import Gallows.Frame.Codec
import Gallows.Network.Basic

/-!
A channel to one endpoint. It opens a socket when it needs one and has none, and it holds the part
of a frame that has been read, so that reading may be given up and taken up again.
-/
namespace Gallows

/-- A channel. -/
structure Channel where
  endpoint : Endpoint
  /-- How long an attempt to connect may take, in milliseconds. -/
  connectTimeout : Nat := 5000
  /-- How long a lenient read waits, in milliseconds. -/
  readTimeout : Nat := 1000
  /-- The open socket. -/
  socket : Option Socket := none
  assembler : Frame.Assembler := {}
  /-- How many sockets have been opened so far. -/
  generation : Nat := 0

namespace Channel

/-- Whether a socket is open. -/
def isConnected (c : Channel) : Bool := c.socket.isSome

/-- Which part of a frame is being read. -/
def phase (c : Channel) : Frame.Phase := c.assembler.phase

/-- How many bytes of an unfinished frame are held. -/
def buffered (c : Channel) : Nat := c.assembler.buffered

/-- Whether the other end of the open socket is known. -/
def knowsPeer (c : Channel) (net : Network) : Bool := c.socket.any net.knowsPeer

/-- Closes the socket, and drops what has been read of a frame. -/
def close (c : Channel) (net : Network) : Channel × Network :=
  ({ c with socket := none, assembler := c.assembler.reset },
    match c.socket with
    | none => net
    | some socket => net.close socket)

/-- What a server is blamed for that does not answer. -/
def noAnswer (c : Channel) : Fault := ⟨.timedOut, s!"no answer after {c.connectTimeout / 1000}s"⟩

/-- Gives the open socket, and opens one if there is none. -/
def ensure (c : Channel) (deadline : Nat) (net : Network) : Outcome Socket × Channel × Network :=
  match c.socket with
  | some socket => (some (.ok socket), c, net)
  | none =>
    let limit := net.now + c.connectTimeout
    match net.connect c.endpoint (min limit deadline) with
    | (some (.ok socket), net) =>
      (some (.ok socket),
        { c with
          socket := some socket
          assembler := c.assembler.reset
          generation := c.generation + 1 }, net)
    | (some (.error fault), net) => (some (.error (.connect c.endpoint.text fault)), c, net)
    | (none, net) =>
      if limit ≤ deadline then (some (.error (.connect c.endpoint.text c.noAnswer)), c, net)
      else (none, c, net)

/-- Opens a new socket in the place of the open one. -/
def reconnect (c : Channel) (deadline : Nat) (net : Network) : Outcome Socket × Channel × Network :=
  let (c, net) := c.close net
  c.ensure deadline net

/-- Opens a new socket to another endpoint. -/
def connect (c : Channel) (endpoint : Endpoint) (deadline : Nat) (net : Network) :
    Outcome Socket × Channel × Network :=
  { c with endpoint }.reconnect deadline net

/-- Sends an envelope. One that is too large for a frame changes nothing; a write that fails closes
the socket. -/
def send (c : Channel) (e : Envelope.Client) (deadline : Nat) (net : Network) :
    Outcome Unit × Channel × Network :=
  match Frame.encode e with
  | .error e => (some (.error (.protocol (.frame e))), c, net)
  | .ok frame =>
    match c.ensure deadline net with
    | (none, c, net) => (none, c, net)
    | (some (.error f), c, net) => (some (.error f), c, net)
    | (some (.ok socket), c, net) =>
      match net.write socket frame with
      | (.ok (), net) => (some (.ok ()), c, net)
      | (.error fault, net) => (some (.error (.transport fault)), c.close net)

/-- Writes bytes to the open socket as they are; `none` if there is none. A write that fails leaves
it open. -/
def writeRaw (c : Channel) (bytes : ByteArray) (net : Network) :
    Option (Except Failure Unit) × Network :=
  match c.socket with
  | none => (none, net)
  | some socket =>
    let (r, net) := net.write socket bytes
    (some (r.mapError .transport), net)

end Channel
end Gallows
