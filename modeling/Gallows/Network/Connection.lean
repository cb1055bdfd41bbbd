import Gallows.Frame.Split
import Gallows.Transport.Sink
import Gallows.Transport.Source

/-!
A connection between the client and a server that follows a script. Time counts in milliseconds,
and only pauses take time: what one side writes is there for the other at once. What the server
does by itself is caught up on whenever the client looks at the connection.
-/
namespace Gallows

/-- What a server does on a connection. -/
inductive Act
  /-- Waits until so many frames have arrived in all, or the client has closed. -/
  | await (frames : Nat)
  | pause (time : Nat)
  | send (bytes : ByteArray)
  /-- Ends what it sends; it still reads. -/
  | finish
  /-- Breaks the connection off. What it has sent is still read first. -/
  | reset

/-- How many bytes an act sends, and one for the act itself. -/
def Act.weight : Act → Nat
  | send bytes => bytes.size + 1
  | _ => 1

/-- The weight of a script. -/
def Act.totalWeight (script : List Act) : Nat := script.foldr (fun act n => act.weight + n) 0

/-- Where a server listens. -/
structure Endpoint where
  address : String
  port : UInt16
deriving DecidableEq, Repr

/-- An endpoint as it is shown. -/
def Endpoint.text (e : Endpoint) : String := e.address ++ ":" ++ toString e.port.toNat

/-- A connection. -/
structure Connection where
  endpoint : Endpoint
  /-- What the server has still to do. -/
  script : List Act
  /-- When the server came to the first act of its script. -/
  clock : Nat
  /-- When the client last wrote or closed. -/
  touched : Nat
  /-- What the server has sent and the client has not read. -/
  inbound : Source := []
  /-- What the client has read. -/
  received : ByteArray := .empty
  /-- What the client has written, and how its writes go. -/
  outbound : Sink
  /-- Whether the client has closed. -/
  closed : Bool := false
  /-- Whether the server has broken the connection off. -/
  severed : Bool := false

namespace Connection

/-- A failure of a connection that was broken off. -/
def broken : Fault := .ofSystem .connectionReset

/-- The frames that have arrived at the server. -/
def arrived (c : Connection) : List (Except Frame.Error (List UInt8)) :=
  (Frame.split c.outbound.written.data.toList).1

/-- Whether what the server waits for has happened. -/
def isSatisfied (c : Connection) (frames : Nat) : Bool := c.closed || frames ≤ c.arrived.length

/-- The connection after what the server has done until `now`. -/
def playScript (now : Nat) : Connection → List Act → Connection
  | c, [] => { c with script := [] }
  | c, .await frames :: script =>
    if c.isSatisfied frames then playScript now { c with clock := max c.clock c.touched } script
    else { c with script := .await frames :: script }
  | c, .pause time :: script =>
    if c.clock + time ≤ now then playScript now { c with clock := c.clock + time } script
    else { c with script := .pause time :: script }
  | c, .send bytes :: script =>
    if bytes.size = 0 then playScript now c script
    else playScript now { c with inbound := c.inbound ++ [.data (.ofBytes bytes)] } script
  | c, .finish :: script => playScript now { c with inbound := c.inbound ++ [.ended] } script
  | c, .reset :: script =>
    if c.closed then playScript now c script
    else { c with script := [], inbound := c.inbound ++ [.failed broken], severed := true }

/-- The connection at a later time. -/
def play (c : Connection) (now : Nat) : Connection := playScript now c c.script

/-- When the script, begun at `clock`, next lets something arrive at the client. -/
def arrival? (c : Connection) (clock : Nat) : List Act → Option Nat
  | [] => none
  | .await frames :: script =>
    if c.isSatisfied frames then c.arrival? (max clock c.touched) script else none
  | .pause time :: script => c.arrival? (clock + time) script
  | .send bytes :: script => if bytes.size = 0 then c.arrival? clock script else some clock
  | .finish :: _ => some clock
  | .reset :: script => if c.closed then c.arrival? clock script else some clock

/-- When something next arrives at the client that has read everything. -/
def nextArrival? (c : Connection) : Option Nat := c.arrival? c.clock c.script

/-- Takes at most `limit` bytes of what has arrived; none are taken only at the end. -/
def take (c : Connection) (limit : Nat) : Except Fault ByteArray × Connection :=
  let (r, inbound) := c.inbound.read limit
  match r with
  | .ok bytes => (.ok bytes, { c with inbound, received := c.received ++ bytes })
  | .error fault => (.error fault, { c with inbound })

/-- Writes `bytes` at the time `now`. -/
def write (c : Connection) (now : Nat) (bytes : ByteArray) : Except Fault Unit × Connection :=
  let c := c.play now
  if c.severed then (.error broken, c)
  else
    let (r, outbound) := c.outbound.push bytes
    (r, { c with outbound, touched := now }.play now)

/-- Closes the client's side at the time `now`. -/
def close (c : Connection) (now : Nat) : Connection :=
  let c := c.play now
  { c with closed := true, touched := now }.play now

/-- A bound on the reads that a connection can still serve. -/
def weight (c : Connection) : Nat := c.inbound.weight + Act.totalWeight c.script

end Connection
end Gallows
