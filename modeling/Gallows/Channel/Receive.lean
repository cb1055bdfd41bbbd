import Gallows.Channel.Basic
import Gallows.Token

/-!
Receiving an envelope: for as long as it takes, within a time limit, or until a stop is asked for.
All three read in the same way and differ in when they give up and in what they make of a failure.
-/
namespace Gallows

/-- What comes of receiving where that can be stopped. -/
inductive Received
  | envelope (e : Envelope.Server)
  | stopped

namespace Channel

/-- Reads until a frame is complete. Every read takes something from the connection, so `fuel` is no
limit when it is above the connection's weight. -/
def readWithin (socket : Socket) (deadline : Nat) :
    (fuel : Nat) → Channel → Network → Outcome Envelope.Server × Channel × Network
  | 0, c, net => (none, c, net)
  | fuel + 1, c, net =>
    match net.read socket c.assembler.unfilled deadline with
    | (none, net) => (none, c, net)
    | (some (.error fault), net) =>
      if fault.isTransient then readWithin socket deadline fuel c net
      else (some (.error (.transport fault)), c, net)
    | (some (.ok piece), net) =>
      match c.assembler.feed piece with
      | (.error e, assembler) => (some (.error (.protocol (.frame e))), { c with assembler }, net)
      | (.ok none, assembler) => readWithin socket deadline fuel { c with assembler } net
      | (.ok (some body), assembler) =>
        (some ((Frame.decodeBody body).mapError .protocol), { c with assembler }, net)

/-- Reads the envelope of the next frame. The part of a frame that has been read stays. -/
def read (c : Channel) (socket : Socket) (deadline : Nat) (net : Network) :
    Outcome Envelope.Server × Channel × Network :=
  readWithin socket deadline (net.weightOf socket + 1) c net

/-- Hands on why a read failed. The socket is closed unless a new frame follows on it. -/
def fail {α : Type} (c : Channel) (f : Failure) (net : Network) : Outcome α × Channel × Network :=
  (some (.error f), if f.isAligned then (c, net) else c.close net)

/-- Receives an envelope. -/
def receive (c : Channel) (deadline : Nat) (net : Network) :
    Outcome Envelope.Server × Channel × Network :=
  match c.ensure deadline net with
  | (none, c, net) => (none, c, net)
  | (some (.error f), c, net) => (some (.error f), c, net)
  | (some (.ok socket), c, net) =>
    match c.read socket deadline net with
    | (some (.error f), c, net) => c.fail f net
    | other => other

/-- Polls for an envelope, within the channel's time limit. The empty envelope stands for one that
has not come by then, which leaves the socket open, and for one that cannot come because the
connection is lost. -/
def poll (c : Channel) (deadline : Nat) (net : Network) :
    Outcome Envelope.Server × Channel × Network :=
  match c.ensure deadline net with
  | (none, c, net) => (none, c, net)
  | (some (.error f), c, net) => (some (.error f), c, net)
  | (some (.ok socket), c, net) =>
    let limit := net.now + c.readTimeout
    match c.read socket (min limit deadline) net with
    | (some (.error f), c, net) =>
      if f.isLoss then (some (.ok {}), c.close net) else c.fail f net
    | (none, c, net) => (if limit ≤ deadline then some (.ok {}) else none, c, net)
    | other => other

/-- Receives an envelope unless the token fires first. A stop leaves the socket open and loses
nothing of a frame. -/
def receiveUnless (c : Channel) (token : Token) (deadline : Nat) (net : Network) :
    Outcome Received × Channel × Network :=
  if token.isFired net.now then (some (.ok .stopped), c, net)
  else
    match c.ensure (token.limit deadline) net with
    | (none, c, net) => (token.interrupt deadline .stopped, c, net)
    | (some (.error f), c, net) => (some (.error f), c, net)
    | (some (.ok socket), c, net) =>
      match c.read socket (token.limit deadline) net with
      | (none, c, net) => (token.interrupt deadline .stopped, c, net)
      | (some (.error f), c, net) => c.fail f net
      | (some (.ok e), c, net) => (some (.ok (.envelope e)), c, net)

end Channel
end Gallows
