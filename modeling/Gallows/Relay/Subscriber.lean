import Gallows.Relay.Basic

/-!
A subscriber that takes what a relay hands on: first it lets some time pass, then it takes items,
and then it leaves, asks the relay to stop, or goes on to the end.
-/
namespace Gallows

namespace Subscriber

/-- How a subscriber goes on behind the items that it wants. -/
inductive Finish
  /-- It leaves at once. -/
  | leave
  /-- It asks the relay to stop and takes what is still handed on. -/
  | stop
  /-- It takes everything that is still handed on. -/
  | drain
deriving DecidableEq, Repr

end Subscriber

/-- What a subscriber does. -/
structure Subscriber where
  /-- How long it takes nothing, in milliseconds. -/
  idle : Nat := 0
  /-- How many items it wants; all of them, if there is no number. -/
  count : Option Nat := none
  finish : Subscriber.Finish := .drain

/-- What a subscriber got. -/
structure Delivery where
  /-- The items that it wanted. -/
  items : List Relay.Item
  /-- Whether there were no more of them. -/
  ended : Bool
  /-- What it took behind them. -/
  rest : List Relay.Item := []
  /-- The feed, when the relay has ended. -/
  feed : Feed

namespace Relay

/-- Takes items until there are `count` of them or the relay ends. Gives whether it ended, or `none`
if the deadline comes first, and the items. Every item but the last few comes out of the network, so
`fuel` is no limit when it is above the network's patience by more than the queue can hold. -/
def collectWithin (token : Token) (deadline : Nat) :
    (fuel : Nat) → (count : Option Nat) → Relay → Network →
      Option Bool × List Item × Relay × Network
  | 0, _, r, net => (none, [], r, net)
  | _ + 1, some 0, r, net => (some false, [], r, net)
  | fuel + 1, count, r, net =>
    match r.receive token deadline net with
    | (none, r, net) => (none, [], r, net)
    | (some none, r, net) => (some true, [], r, net)
    | (some (some item), r, net) =>
      let (ended, items, r, net) :=
        collectWithin token deadline fuel (count.map (· - 1)) r net
      (ended, item :: items, r, net)

/-- Takes items until there are `count` of them or the relay ends. -/
def collect (r : Relay) (token : Token) (deadline : Nat) (count : Option Nat) (net : Network) :
    Option Bool × List Item × Relay × Network :=
  collectWithin token deadline (net.patience deadline + capacity + 3) count r net

end Relay

namespace Subscriber

/-- Takes from a relay of the feed; `none` if this does not end before the deadline. -/
def follow (s : Subscriber) (feed : Feed) (token : Token) (deadline : Nat) (net : Network) :
    Option Delivery × Network :=
  let start := net.now + s.idle
  if deadline < start then (none, net)
  else
    let relay : Relay := { feed }
    let (relay, net) := if s.idle = 0 then (relay, net) else relay.idle token start net
    match relay.collect token deadline s.count net with
    | (none, _, _, net) => (none, net)
    | (some ended, items, relay, net) =>
      let time := max start net.now
      match s.finish with
      | .leave =>
        let (feed, net) := relay.leaveAt token time net
        (some { items, ended, feed }, net)
      | .stop =>
        match relay.collect (relay.stopAt token time) deadline none net with
        | (none, _, _, net) => (none, net)
        | (some _, rest, relay, net) =>
          (some { items, ended, rest, feed := relay.feed }, net.waitUntil time)
      | .drain =>
        match relay.collect token deadline none net with
        | (none, _, _, net) => (none, net)
        | (some _, rest, relay, net) =>
          (some { items, ended, rest, feed := relay.feed }, net.waitUntil time)

end Subscriber
end Gallows
