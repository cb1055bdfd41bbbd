import Gallows.Feed

/-!
Handing events on to a subscriber. A relay looks at its feed by itself and puts what it finds into a
queue of limited length; where the queue is full, it parks the next item and waits until there is
room. It ends with the first failure, which is handed on too, or when it is stopped.
-/
namespace Gallows

/-- What a relay hands on: an event, or the failure that it ends with. -/
abbrev Relay.Item : Type := Except Failure Event

/-- A relay. -/
structure Relay where
  feed : Feed
  /-- What the subscriber has not taken yet. -/
  queue : List Relay.Item := []
  /-- What waits for room in the queue. -/
  parked : Option Relay.Item := none
  /-- Whether the relay looks at its feed no more. -/
  isOver : Bool := false
  /-- Whether a look at the feed is under way. -/
  isLooking : Bool := false

namespace Relay

/-- How many items the queue holds. -/
def capacity : Nat := 32

/-- Puts an item into the queue, or parks it where there is no room. -/
def offer (r : Relay) (item : Item) : Relay :=
  if r.queue.length < capacity then { r with queue := r.queue ++ [item] }
  else { r with parked := some item }

/-- Takes the next item. -/
def take? (r : Relay) : Option (Item × Relay) :=
  match r.queue with
  | [] => none
  | item :: queue => some (item, { r with queue })

/-- The relay after a look at its feed that gave this. -/
def afterLook (r : Relay) (feed : Feed) (result : Except Failure Feed.Found) : Relay :=
  let r := { r with feed, isLooking := false }
  match result with
  | .ok (.event e) => r.offer (.ok e)
  | .ok .nothing => r
  | .ok .stopped => { r with isOver := true }
  | .error f => { r with isOver := true }.offer (.error f)

/-- The next thing that the relay does by itself: it puts the parked item into the queue, or looks
at its feed once. It is `none` if there is no room, if the relay is over, or if the look does not
end before the deadline. -/
def step? (r : Relay) (token : Token) (deadline : Nat) (net : Network) : Option (Relay × Network) :=
  match r.parked with
  | some item =>
    if r.queue.length < capacity then
      some ({ r with queue := r.queue ++ [item], parked := none }, net)
    else none
  | none =>
    if r.isOver then none
    else
      match r.feed.next token deadline net with
      | (none, _, _) => none
      | (some result, feed, net) => some (r.afterLook feed result, net)

/-- Goes on for as long as the relay can by itself before the deadline. A look that does not end by
then stays under way: it goes on later from where it began, with the same outcome. Every step adds
an item to the queue, parks one or is the last, so `fuel` is no limit when it is above the queue's
capacity by two. -/
def run (token : Token) (deadline : Nat) : (fuel : Nat) → Relay → Network → Relay × Network
  | 0, r, net => (r, net)
  | fuel + 1, r, net =>
    match r.step? token deadline net with
    | none => ({ r with isLooking := r.parked.isNone && !r.isOver }, net)
    | some (r, net) => run token deadline fuel r net

/-- The relay and the network at `time`, the subscriber having done nothing until then. -/
def idle (r : Relay) (token : Token) (time : Nat) (net : Network) : Relay × Network :=
  let (r, net) := r.run token time (capacity + 3) net
  (r, if r.isLooking then net else net.waitUntil time)

/-- Waits for the next item and takes it. Gives `some none` at the end of the items, and `none` if
nothing comes before the deadline. -/
def receive (r : Relay) (token : Token) (deadline : Nat) (net : Network) :
    Option (Option Item) × Relay × Network :=
  match r.take? with
  | some (item, r) => (some (some item), r, net)
  | none =>
    match r.step? token deadline net with
    | none => (if r.isOver then some none else none, r, net)
    | some (r, net) =>
      let (r, net) := r.run token net.now (capacity + 3) net
      match r.take? with
      | some (item, r) => (some (some item), r, net)
      | none => (if r.isOver then some none else none, r, net)

/-- The token of a relay that is asked to stop at `time`: a look that is under way takes up what can
happen by then, and no other look begins. -/
def stopAt (r : Relay) (token : Token) (time : Nat) : Token :=
  if r.isLooking then token.fireAt time else .fired

/-- The feed when the subscriber leaves at `time`. A look that is under way is given up then, and
what is queued is lost. -/
def leaveAt (r : Relay) (token : Token) (time : Nat) (net : Network) : Feed × Network :=
  if r.isLooking then
    let (_, feed, net) := r.feed.next token time net
    (feed, net.waitUntil time)
  else (r.feed, net.waitUntil time)

end Relay
end Gallows
