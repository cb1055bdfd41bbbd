import Gallows.Feed
import Gallows.Move
import Gallows.Options

/-!
A client: a player who makes moves, and the feed of the player's events.
-/
namespace Gallows

/-- A client. -/
structure Client where
  player : Player
  feed : Feed

namespace Client

/-- A client that has not connected yet. -/
def ofOptions (o : Options) (username : String) : Client :=
  let channel (port : UInt16) : Channel :=
    { endpoint := ⟨o.address, port⟩
      connectTimeout := o.connectTimeout
      readTimeout := o.readTimeout }
  { player :=
      { caller := { channel := channel o.gamePort, requestTimeout := o.requestTimeout }, username }
    feed :=
      { channel := channel o.notificationPort
        username
        subscribe := o.subscribe
        pollInterval := o.pollInterval } }

/-- The channel for requests. -/
def game (c : Client) : Channel := c.player.caller.channel

/-- The client with another state of its channel for requests. -/
def withGame (c : Client) (channel : Channel) : Client :=
  { c with player.caller.channel := channel }

/-- Closes both channels. -/
def close (c : Client) (net : Network) : Client × Network :=
  let (channel, net) := c.game.close net
  let (feed, net) := c.feed.close net
  ({ c.withGame channel with feed }, net)

/-- Connects both channels, and subscribes. If one of them fails, none stays open. -/
def connect (o : Options) (username : String) (deadline : Nat) (net : Network) :
    Outcome Client × Network :=
  let c := ofOptions o username
  match c.game.ensure deadline net with
  | (none, channel, net) => (none, ((c.withGame channel).close net).2)
  | (some (.error f), channel, net) => (some (.error f), ((c.withGame channel).close net).2)
  | (some (.ok _), channel, net) =>
    let c := c.withGame channel
    match c.feed.connect deadline net with
    | (none, feed, net) => (none, ({ c with feed }.close net).2)
    | (some (.error f), feed, net) => (some (.error f), ({ c with feed }.close net).2)
    | (some (.ok ()), feed, net) => (some (.ok { c with feed }), net)

/-- Makes a move and gives the document of the reply. -/
def perform (c : Client) (m : Move) (deadline : Nat) (net : Network) :
    Outcome m.reply.El × Client × Network :=
  let (r, player, net) := c.player.perform m deadline net
  (r, { c with player }, net)

/-- Waits for the next event. -/
def next (c : Client) (token : Token) (deadline : Nat) (net : Network) :
    Outcome Feed.Found × Client × Network :=
  let (r, feed, net) := c.feed.next token deadline net
  (r, { c with feed }, net)

/-- Waits for one envelope of the feed and gives what it brings. -/
def tryNext (c : Client) (token : Token) (deadline : Nat) (net : Network) :
    Outcome Feed.Found × Client × Network :=
  let (r, feed, net) := c.feed.tryNext token deadline net
  (r, { c with feed }, net)

end Client
end Gallows
