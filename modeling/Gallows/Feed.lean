import Gallows.Channel.Receive
import Gallows.Protocol.Event
import Gallows.Protocol.Request

/-!
The events that a server announces to a player. A feed subscribes once on every socket that it
opens, and makes events of the envelopes that it reads.
-/
namespace Gallows

namespace Feed

/-- What a feed was last about. -/
inductive State
  | idle
  | awaitingHeader
  | awaitingBody
  | stopped
deriving DecidableEq, Repr

/-- What a look at a feed gives. -/
inductive Found
  | event (e : Event)
  /-- An envelope without a document, which is no event. -/
  | nothing
  | stopped
deriving DecidableEq, Repr

/-- What an envelope brings, whatever its status. -/
def Found.ofEnvelope (e : Envelope.Server) : Except Failure Found :=
  if e.hasPayload then
    match Event.decode e.message e.payload with
    | .ok e => .ok (.event e)
    | .error cause => .error (.protocol cause)
  else .ok .nothing

end Feed

/-- A channel for events. -/
structure Feed where
  channel : Channel
  username : String
  /-- Whether to subscribe. -/
  subscribe : Bool := true
  /-- The generation of the socket that was last subscribed on. -/
  subscribed : Nat := 0
  /-- How long to pause behind an envelope without an event, in milliseconds. -/
  pollInterval : Nat := 100
  state : Feed.State := .idle

namespace Feed

/-- The envelope that asks for the events of a player. -/
def subscription (username : String) : Envelope.Client where
  command := Command.subscribe.wireName
  payload := Command.subscribe.request.toPayload (username, ())

/-- Makes sure that a socket is open and was subscribed on. -/
def connect (f : Feed) (deadline : Nat) (net : Network) : Outcome Unit × Feed × Network :=
  match f.channel.ensure deadline net with
  | (none, channel, net) => (none, { f with channel }, net)
  | (some (.error e), channel, net) => (some (.error e), { f with channel }, net)
  | (some (.ok _), channel, net) =>
    if f.subscribe && channel.generation ≠ f.subscribed then
      let generation := channel.generation
      match channel.send (subscription f.username) deadline net with
      | (some (.ok ()), channel, net) =>
        (some (.ok ()), { f with channel, subscribed := generation }, net)
      | (r, channel, net) => (r, { f with channel }, net)
    else (some (.ok ()), { f with channel }, net)

/-- Closes the channel. -/
def close (f : Feed) (net : Network) : Feed × Network :=
  let (channel, net) := f.channel.close net
  ({ f with channel }, net)

/-- The feed when it begins to read. -/
def reading (f : Feed) : Feed :=
  { f with
    state := match f.channel.phase with
      | .awaitingHeader => .awaitingHeader
      | .awaitingBody => .awaitingBody }

/-- The feed when a stop was asked for. -/
def stopped (f : Feed) : Feed := { f with state := .stopped }

/-- The feed when it has read an envelope. -/
def atRest (f : Feed) : Feed := { f with state := .idle }

/-- How long a pause takes, which is a millisecond at least: timers are no finer, and round up. -/
def pauseTime (f : Feed) : Nat := max 1 f.pollInterval

/-- Pauses for the poll interval. Gives whether the feed may go on after that, or `none` if the
deadline comes first. -/
def pause (f : Feed) (token : Token) (deadline : Nat) (net : Network) : Option Bool × Network :=
  let limit := token.limit deadline
  if token.isFired net.now then (some false, net)
  else if net.now + f.pauseTime ≤ limit then
    (some true, net.waitUntil (net.now + f.pauseTime))
  else (if token.ends deadline then some false else none, net.waitUntil limit)

/-- Looks again and again until there is an event. There is a pause between two looks, so `fuel` is
no limit when it is above the number of milliseconds that are left. -/
def nextWithin (token : Token) (deadline : Nat) :
    (fuel : Nat) → Feed → Network → Outcome Found × Feed × Network
  | 0, f, net => (none, f, net)
  | fuel + 1, f, net =>
    if token.isFired net.now then (some (.ok .stopped), f.stopped, net)
    else
      match f.connect deadline net with
      | (none, f, net) => (none, f, net)
      | (some (.error e), f, net) => (some (.error e), f, net)
      | (some (.ok ()), f, net) =>
        let f := f.reading
        if token.isFired net.now then (some (.ok .stopped), f.stopped, net)
        else
          match f.channel.poll (token.limit deadline) net with
          | (none, channel, net) =>
            let f := { f with channel }
            if token.ends deadline then (some (.ok .stopped), f.stopped, net) else (none, f, net)
          | (some (.error e), channel, net) => (some (.error e), { f with channel }, net)
          | (some (.ok e), channel, net) =>
            let f := { f with channel }.atRest
            match Found.ofEnvelope e with
            | .error e => (some (.error e), f, net)
            | .ok .nothing =>
              match f.pause token deadline net with
              | (none, net) => (none, f, net)
              | (some false, net) => (some (.ok .stopped), f.stopped, net)
              | (some true, net) => nextWithin token deadline fuel f net
            | .ok found => (some (.ok found), f, net)

/-- Waits for the next event. Envelopes without an event, time limits and lost connections are
passed over; connections that do not come about and malformed events are not. -/
def next (f : Feed) (token : Token) (deadline : Nat) (net : Network) :
    Outcome Found × Feed × Network :=
  nextWithin token deadline (deadline - net.now + 1) f net

/-- Waits for one envelope and gives what it brings. -/
def tryNext (f : Feed) (token : Token) (deadline : Nat) (net : Network) :
    Outcome Found × Feed × Network :=
  if token.isFired net.now then (some (.ok .stopped), f.stopped, net)
  else
    match f.connect deadline net with
    | (none, f, net) => (none, f, net)
    | (some (.error e), f, net) => (some (.error e), f, net)
    | (some (.ok ()), f, net) =>
      let f := f.reading
      match f.channel.receiveUnless token deadline net with
      | (none, channel, net) => (none, { f with channel }, net)
      | (some (.error e), channel, net) => (some (.error e), { f with channel }.atRest, net)
      | (some (.ok .stopped), channel, net) =>
        (some (.ok .stopped), { f with channel }.stopped, net)
      | (some (.ok (.envelope e)), channel, net) =>
        (some (Found.ofEnvelope e), { f with channel }.atRest, net)

end Feed
end Gallows
