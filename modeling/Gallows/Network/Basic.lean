import Gallows.Network.Connection

/-!
The network that the client lives in: servers that follow scripts, the connections to them, and the
time. An operation that waits is given the time at which it gives up; it takes up what happens
before that time.
-/
namespace Gallows

/-- How a server meets an attempt to connect. -/
inductive Reception
  /-- Accepts after a while, and follows a script; `writes` tells how the client's writes go. -/
  | accept (after : Nat) (script : List Act) (writes : List Sink.Step)
  | refuse (after : Nat)
  /-- Never answers. -/
  | ignore

/-- A bound on the reads that a reception leads to. -/
def Reception.weight : Reception → Nat
  | accept _ script _ => Act.totalWeight script + 1
  | _ => 1

/-- A server. -/
structure Server where
  endpoint : Endpoint
  /-- How it meets the next attempts to connect. -/
  receptions : List Reception := []
  /-- How it meets all later ones. -/
  otherwise : Reception := .accept 0 [] []

/-- Servers, connections and the time. -/
structure Network where
  now : Nat := 0
  /-- What every attempt to connect fails with at once, where there is no way to any server. -/
  outage : Option Fault := none
  servers : List Server := []
  /-- All connections, the oldest first. -/
  connections : List Connection := []

/-- A connection, by its place among all. -/
abbrev Socket := Nat

namespace Network

/-- The network at a time that is not earlier. -/
def waitUntil (net : Network) (time : Nat) : Network := { net with now := max net.now time }

/-- Takes the next reception of the server at an endpoint. Nobody listens elsewhere. -/
def reception (net : Network) (endpoint : Endpoint) : Reception × Network :=
  match net.servers.find? (·.endpoint = endpoint) with
  | none => (.refuse 0, net)
  | some server =>
    match server.receptions with
    | [] => (server.otherwise, net)
    | next :: receptions =>
      let servers := net.servers.map fun s =>
        if s.endpoint = endpoint then { s with receptions } else s
      (next, { net with servers })

/-- Adds a connection. -/
def accept (net : Network) (endpoint : Endpoint) (script : List Act) (writes : List Sink.Step) :
    Socket × Network :=
  let connection : Connection :=
    { endpoint, script, clock := net.now, touched := net.now, outbound := { script := writes } }
  (net.connections.length,
    { net with connections := net.connections ++ [connection.play net.now] })

/-- Changes a connection. -/
def modify (net : Network) (socket : Socket) (change : Connection → Connection) : Network :=
  { net with connections := net.connections.modify socket change }

/-- Closes a connection. -/
def close (net : Network) (socket : Socket) : Network :=
  net.modify socket (·.close net.now)

/-- Connects to an endpoint; `none` if that is not settled before the deadline. A server that
accepts an attempt that was given up sees it closed at once. -/
def connect (net : Network) (endpoint : Endpoint) (deadline : Nat) :
    Option (Except Fault Socket) × Network :=
  match net.outage with
  | some fault => (some (.error fault), net)
  | none =>
    let (reception, net) := net.reception endpoint
    match reception with
    | .accept after script writes =>
      let isInTime := net.now + after < deadline
      let net := net.waitUntil (if isInTime then net.now + after else deadline)
      let (socket, net) := net.accept endpoint script writes
      if isInTime then (some (.ok socket), net) else (none, net.close socket)
    | .refuse after =>
      if net.now + after < deadline then
        (some (.error (.ofSystem .connectionRefused)), net.waitUntil (net.now + after))
      else (none, net.waitUntil deadline)
    | .ignore => (none, net.waitUntil deadline)

/-- Reads at most `limit` bytes from a connection, and none only at its end. What has arrived is
taken at once; if there is nothing, what arrives before the deadline is waited for, and the result
is `none` if nothing does. -/
def read (net : Network) (socket : Socket) (limit deadline : Nat) :
    Option (Except Fault ByteArray) × Network :=
  match net.connections[socket]? with
  | none => (some (.error (.ofSystem .notConnected)), net)
  | some c =>
    let c := c.play net.now
    let time? :=
      if c.inbound.isEmpty then c.nextArrival?.filter (· < deadline) else some net.now
    match time? with
    | none => (none, (net.modify socket fun _ => c).waitUntil deadline)
    | some time =>
      let net := net.waitUntil time
      let (r, c) := (c.play net.now).take limit
      (some r, net.modify socket fun _ => c)

/-- Writes all of `bytes` to a connection. -/
def write (net : Network) (socket : Socket) (bytes : ByteArray) : Except Fault Unit × Network :=
  match net.connections[socket]? with
  | none => (.error (.ofSystem .notConnected), net)
  | some c =>
    let (r, c) := c.write net.now bytes
    (r, net.modify socket fun _ => c)

/-- Whether the other end of a connection is known, which it no longer is once it was broken
off. -/
def knowsPeer (net : Network) (socket : Socket) : Bool :=
  net.connections[socket]?.any fun c => !(c.play net.now).severed

/-- A bound on the reads that one connection can still serve. -/
def weightOf (net : Network) (socket : Socket) : Nat :=
  (net.connections[socket]?.map Connection.weight).getD 0

/-- A bound on the looks at the network that can find something before `deadline`: each of them
takes time, or something that a server sends. -/
def patience (net : Network) (deadline : Nat) : Nat :=
  let ofServer (s : Server) (n : Nat) := s.receptions.foldr (fun r n => r.weight + n) n
  deadline - net.now + net.connections.foldr (fun c n => c.weight + n) 0 +
    net.servers.foldr ofServer 0 + 1

end Network
end Gallows
