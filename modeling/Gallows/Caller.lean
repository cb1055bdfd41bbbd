import Gallows.Channel.Receive
import Gallows.Protocol.Reply

/-!
Requests and their replies. A caller has one request under way at a time, and the next frame is its
reply; a channel on which a reply may still come late is closed.
-/
namespace Gallows
open Document

/-- What a reply means to the command it answers. The document counts only if the status is that of
success. -/
def Envelope.Server.answer (e : Envelope.Server) (command : Command) (reply : Shape) :
    Except Failure reply.El :=
  if e.isSuccess then
    (reply.ofPayload e.payload).mapError fun cause => .reply command (.document cause)
  else .error (.rejected (.ofCode e.status) e.message)

/-- The payload of a request without a document. -/
def Request.noDocument : ByteArray := "\x7b\x7d".toUTF8

/-- A channel for requests. -/
structure Caller where
  channel : Channel
  /-- How long a reply may take, in milliseconds. -/
  requestTimeout : Nat := 10000

namespace Caller

/-- What is said when there is no reply. -/
def noReply (c : Caller) (command : Command) : Failure :=
  .timeout s!"waiting {c.requestTimeout / 1000}s for {command.wireName} reply"

/-- Sends a request and receives the reply to it. -/
def call (c : Caller) (command : Command) (payload : ByteArray) (reply : Shape) (deadline : Nat)
    (net : Network) : Outcome reply.El × Caller × Network :=
  match c.channel.send { command := command.wireName, payload } deadline net with
  | (none, channel, net) => (none, { c with channel }, net)
  | (some (.error f), channel, net) => (some (.error f), { c with channel }, net)
  | (some (.ok ()), channel, net) =>
    let limit := net.now + c.requestTimeout
    match channel.receive (min limit deadline) net with
    | (some (.error f), channel, net) => (some (.error f), { c with channel }, net)
    | (some (.ok e), channel, net) => (some (e.answer command reply), { c with channel }, net)
    | (none, channel, net) =>
      if limit ≤ deadline then
        let (channel, net) := channel.close net
        (some (.error (c.noReply command)), { c with channel }, net)
      else (none, { c with channel }, net)

end Caller
end Gallows
