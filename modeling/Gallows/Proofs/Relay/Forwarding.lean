import Gallows.Proofs.Feed.Attention
import Gallows.Proofs.Relay.Moves

/-!
A relay hands on every event once and in order, however its own steps and the subscriber's takes
fall. What was taken, queued and parked is what the frames carry that it has read; a failure is the
last item and ends the relay; and when it was stopped and everything was taken, its feed goes on
with the very next event.
-/
namespace Gallows.Relay

open Channel (Attends HasRead Stands)
open Feed (Found Takes fresh heardFrom itemOf newsOn performAll)

variable {feed : Feed} {net net' : Network} {x : Transit} {endpoint : Endpoint} {first : Nat}
  {wire : Socket → List UInt8} {events : List Event} {failure? : Option Failure}
  {token : Token} {deadline : Nat}

/-- How the looks of a relay end, with which failure, and whether it is over then. -/
inductive Ending : Bool → Option Failure → List (Except Failure Found) → Prop
  | notYet : Ending false none []
  | stopped : Ending true none [.ok .stopped]
  | failed (failure : Failure) : Ending true (some failure) [.error failure]

/-- The items of a relay that has handed on these events, and then maybe a failure. -/
def itemsOf (events : List Event) (failure? : Option Failure) : List Item :=
  events.map .ok ++ (failure?.map .error).toList

/-- Whether a relay has handed on these events, and then maybe a failure, since its feed was as
`heard` tells. -/
structure Forwards (endpoint : Endpoint) (first : Nat) (wire : Socket → List UInt8)
    (heard : List (Except Failure Event)) (events : List Event) (failure? : Option Failure)
    (x : Transit) : Prop where
  items_eq : x.items = itemsOf events failure?
  looks_eq : ∃ ending, Ending x.relay.isOver failure? ending ∧
    x.looks = events.map (fun e => .ok (.event e)) ++ ending
  heard_eq : heardFrom first x.net = heard ++ itemsOf events failure? ∨
    failure? ≠ none ∧ heardFrom first x.net = heard ++ itemsOf events none
  hasRead : HasRead first wire x.net
  attends : failure? = none → Attends endpoint first wire x.relay.feed.channel x.net
  bounded : x.relay.queue.length ≤ capacity

/-- An item that is offered is the next behind those in the queue, whether there is room or not. -/
theorem offer_spec {r : Relay} (hp : r.parked = none) (hb : r.queue.length ≤ capacity)
    (item : Item) :
    (r.offer item).queue ++ (r.offer item).parked.toList = r.queue ++ [item] ∧
      (r.offer item).queue.length ≤ capacity ∧ (r.offer item).feed = r.feed ∧
      (r.offer item).isOver = r.isOver := by
  rw [offer]
  by_cases hroom : r.queue.length < capacity
  · rw [if_pos hroom]
    refine ⟨by simp [hp], ?_, rfl, rfl⟩
    rw [List.length_append]
    exact hroom
  · rw [if_neg hroom]
    exact ⟨rfl, hb, rfl, rfl⟩

theorem itemsOf_event (events : List Event) (e : Event) :
    itemsOf (events ++ [e]) none = itemsOf events none ++ [.ok e] := by
  simp [itemsOf]

theorem itemsOf_failure (events : List Event) (failure : Failure) :
    itemsOf events (some failure) = itemsOf events none ++ [.error failure] := by
  simp [itemsOf]

variable {heard : List (Except Failure Event)}

/-- A relay that is not over has handed on no failure. -/
theorem Forwards.not_over (h : Forwards endpoint first wire heard events failure? x)
    (ho : x.relay.isOver = false) :
    failure? = none ∧ x.looks = events.map (fun e => .ok (.event e)) ∧
      heardFrom first x.net = heard ++ itemsOf events none := by
  obtain ⟨ending, hending, hlooks⟩ := h.looks_eq
  rw [ho] at hending
  cases hending
  refine ⟨rfl, by simpa using hlooks, ?_⟩
  rcases h.heard_eq with hheard | ⟨hne, -⟩
  · exact hheard
  · exact absurd rfl hne

/-- Where nothing waits for room, everything was taken or is in the queue. -/
theorem Forwards.items_of_unparked (h : Forwards endpoint first wire heard events failure? x)
    (hp : x.relay.parked = none) : x.taken ++ x.relay.queue = itemsOf events failure? := by
  have hall := h.items_eq
  rwa [Transit.items, hp, Option.toList_none, List.append_nil] at hall

/-- A look that brings an event hands it on. -/
theorem Forwards.found (h : Forwards endpoint first wire heard events failure? x)
    (hp : x.relay.parked = none) (ho : x.relay.isOver = false) {e : Event}
    (htakes : Takes endpoint first wire x.net (.ok (.event e)) feed net') :
    Forwards endpoint first wire heard (events ++ [e]) none
      { x with
        relay := x.relay.afterLook feed (.ok (.event e))
        net := net'
        looks := x.looks ++ [.ok (.event e)] } := by
  obtain ⟨rfl, hlooks, hheard⟩ := h.not_over ho
  obtain ⟨hqueue, hbounded, hfeed, hover⟩ := offer_spec
    (r := { x.relay with feed, isLooking := false }) hp h.bounded (.ok e)
  have hmore : heardFrom first net' = heardFrom first x.net ++ [.ok e] := by
    rcases htakes.heard_eq with hmore | ⟨⟨_, he⟩, -⟩
    · exact hmore
    · cases he
  refine ⟨?_, ⟨[], ?_, ?_⟩, Or.inl ?_, htakes.hasRead, ?_, hbounded⟩
  · rw [itemsOf_event, ← h.items_of_unparked hp, List.append_assoc, ← hqueue, ← List.append_assoc]
    rfl
  · have hnot : (x.relay.afterLook feed (.ok (.event e))).isOver = false := hover.trans ho
    rw [hnot]
    exact .notYet
  · simp [hlooks]
  · rw [hmore, hheard, itemsOf_event, List.append_assoc]
  · intro _
    have hsame : (x.relay.afterLook feed (.ok (.event e))).feed = feed := hfeed
    rw [hsame]
    exact htakes.attends (by simp)

/-- A look that is stopped hands on nothing and is the last. -/
theorem Forwards.stopped (h : Forwards endpoint first wire heard events failure? x)
    (ho : x.relay.isOver = false)
    (htakes : Takes endpoint first wire x.net (.ok .stopped) feed net') :
    Forwards endpoint first wire heard events none
      { x with
        relay := x.relay.afterLook feed (.ok .stopped)
        net := net'
        looks := x.looks ++ [.ok .stopped] } := by
  obtain ⟨rfl, hlooks, hheard⟩ := h.not_over ho
  refine ⟨h.items_eq, ⟨_, .stopped, ?_⟩, Or.inl ?_, htakes.hasRead,
    fun _ => htakes.attends (by simp), h.bounded⟩
  · rw [hlooks]
  · rcases htakes.heard_eq with hmore | ⟨⟨_, he⟩, -⟩
    · simpa [itemOf, hheard] using hmore
    · cases he

/-- A look that fails hands on the failure and is the last. -/
theorem Forwards.failed (h : Forwards endpoint first wire heard events failure? x)
    (hp : x.relay.parked = none) (ho : x.relay.isOver = false) {failure : Failure}
    (htakes : Takes endpoint first wire x.net (.error failure) feed net') :
    Forwards endpoint first wire heard events (some failure)
      { x with
        relay := x.relay.afterLook feed (.error failure)
        net := net'
        looks := x.looks ++ [.error failure] } := by
  obtain ⟨rfl, hlooks, hheard⟩ := h.not_over ho
  obtain ⟨hqueue, hbounded, -, hover⟩ := offer_spec
    (r := { x.relay with feed, isLooking := false, isOver := true }) hp h.bounded (.error failure)
  refine ⟨?_, ⟨[.error failure], ?_, ?_⟩, ?_, htakes.hasRead, by simp, hbounded⟩
  · rw [itemsOf_failure, ← h.items_of_unparked hp, List.append_assoc, ← hqueue,
      ← List.append_assoc]
    rfl
  · have hdone : (x.relay.afterLook feed (.error failure)).isOver = true := hover
    rw [hdone]
    exact .failed failure
  · rw [hlooks]
  · rcases htakes.heard_eq with hmore | ⟨-, hmore⟩
    · refine Or.inl ?_
      rw [hmore, hheard, itemsOf_failure, List.append_assoc]
      rfl
    · exact Or.inr ⟨by simp, hmore.trans hheard⟩

/-- What a look of the relay adds. -/
theorem Forwards.looked (h : Forwards endpoint first wire heard events failure? x)
    (hp : x.relay.parked = none) (ho : x.relay.isOver = false) {result : Except Failure Found}
    (hn : x.relay.feed.next token deadline x.net = (some result, feed, net')) :
    ∃ events' failure?', Forwards endpoint first wire heard events' failure?'
      { x with
        relay := x.relay.afterLook feed result, net := net', looks := x.looks ++ [result] } := by
  have htakes := Feed.next_takes (h.attends (h.not_over ho).1) hn
  cases result with
  | ok found =>
    cases found with
    | event e => exact ⟨_, _, h.found hp ho htakes⟩
    | nothing => exact absurd rfl (Feed.waits_ne_nothing (Feed.waits_of_next hn))
    | stopped => exact ⟨_, _, h.stopped ho htakes⟩
  | error failure => exact ⟨_, _, h.failed hp ho htakes⟩

theorem Forwards.unparked (h : Forwards endpoint first wire heard events failure? x) {item : Item}
    (hp : x.relay.parked = some item) (hroom : x.relay.queue.length < capacity) :
    Forwards endpoint first wire heard events failure?
      { x with relay := { x.relay with queue := x.relay.queue ++ [item], parked := none } } := by
  refine ⟨?_, h.looks_eq, h.heard_eq, h.hasRead, h.attends, ?_⟩
  · have hall := h.items_eq
    rw [Transit.items, hp] at hall
    rw [← hall]
    simp [Transit.items]
  · rw [List.length_append]
    exact hroom

theorem Forwards.taken (h : Forwards endpoint first wire heard events failure? x) {item : Item}
    {queue : List Item} (hq : x.relay.queue = item :: queue) :
    Forwards endpoint first wire heard events failure?
      { x with relay := { x.relay with queue }, taken := x.taken ++ [item] } := by
  have hbounded := h.bounded
  refine ⟨?_, h.looks_eq, h.heard_eq, h.hasRead, h.attends, ?_⟩
  · have hall := h.items_eq
    rw [Transit.items, hq] at hall
    rw [← hall]
    simp [Transit.items]
  · rw [hq, List.length_cons] at hbounded
    exact Nat.le_of_succ_le hbounded

theorem Forwards.rest (h : Forwards endpoint first wire heard events failure? x) (time : Nat) :
    Forwards endpoint first wire heard events failure?
      { x with net := x.net.waitUntil time } :=
  ⟨h.items_eq, h.looks_eq, h.heard_eq, ⟨h.hasRead.whole, h.hasRead.part⟩,
    fun hf => (h.attends hf).wait time, h.bounded⟩

/-- One move keeps what was handed on, and hands on one item more at most. -/
theorem Forwards.move (h : Forwards endpoint first wire heard events failure? x) (m : Move) :
    ∃ events' failure?', Forwards endpoint first wire heard events' failure?' (x.move m) := by
  cases m with
  | work token deadline =>
    cases hstep : x.relay.step? token deadline x.net with
    | none =>
      simp only [Transit.move, hstep]
      exact ⟨events, failure?, h⟩
    | some result =>
      obtain ⟨relay, net'⟩ := result
      have hsteps := step?_steps hstep
      simp only [Transit.move, hstep]
      generalize x.relay.look? token deadline x.net = look at hsteps ⊢
      cases hsteps with
      | unparked item hp hroom =>
        simp only [Option.toList_none, List.append_nil]
        exact ⟨events, failure?, h.unparked hp hroom⟩
      | looked result hp ho hn => exact h.looked hp ho hn
  | look =>
    exact ⟨events, failure?, h.items_eq, h.looks_eq, h.heard_eq, h.hasRead, h.attends, h.bounded⟩
  | take =>
    cases hq : x.relay.queue with
    | nil =>
      simp only [Transit.move, take?, hq]
      exact ⟨events, failure?, h⟩
    | cons item queue =>
      simp only [Transit.move, take?, hq]
      exact ⟨events, failure?, h.taken hq⟩
  | rest time => exact ⟨events, failure?, h.rest time⟩

/-- And so do any moves. -/
theorem Forwards.run (h : Forwards endpoint first wire heard events failure? x)
    (moves : List Move) :
    ∃ events' failure?', Forwards endpoint first wire heard events' failure?' (x.run moves) := by
  induction moves generalizing x events failure? with
  | nil => exact ⟨events, failure?, h⟩
  | cons m moves ih =>
    obtain ⟨events₁, failure?₁, h₁⟩ := h.move m
    exact ih h₁

/-- A relay that has done nothing yet. -/
theorem forwards_start (h : Stands feed.channel net) :
    Forwards feed.channel.endpoint (feed.channel.firstSocket net) (feed.channel.wireOf net)
      (heardFrom (feed.channel.firstSocket net) net) [] none { relay := { feed }, net } where
  items_eq := rfl
  looks_eq := ⟨[], .notYet, rfl⟩
  heard_eq := Or.inl (List.append_nil _).symm
  hasRead := h.attends.hasRead
  attends := fun _ => h.attends
  bounded := Nat.zero_le _

/-- Whether a relay, which was given its feed on this network, has handed on these events
faithfully, and then maybe a failure. -/
structure Faithful (feed : Feed) (net : Network) (events : List Event) (failure? : Option Failure)
    (x : Transit) : Prop where
  /-- The items, those that were taken first, are the events and the failure behind them. -/
  items_eq : x.items = itemsOf events failure?
  /-- They are what the looks at the feed came to. The last look of a relay that is over was
  stopped, or came to the failure. -/
  looks_eq : ∃ ending, Ending x.relay.isOver failure? ending ∧
    x.looks = events.map (fun e => .ok (.event e)) ++ ending
  /-- They are what the complete frames carry that were read since, except that a failure may be
  none of a frame. -/
  heard_eq :
    heardFrom (feed.channel.firstSocket net) x.net =
        heardFrom (feed.channel.firstSocket net) net ++ itemsOf events failure? ∨
      failure? ≠ none ∧ heardFrom (feed.channel.firstSocket net) x.net =
        heardFrom (feed.channel.firstSocket net) net ++ itemsOf events none
  /-- No socket was left before the end of its stream, but for the newest. -/
  hasRead : HasRead (feed.channel.firstSocket net) (feed.channel.wireOf net) x.net
  /-- So what was read is the beginning of what the streams carry, one socket behind the other. -/
  on_wire : heardFrom (feed.channel.firstSocket net) x.net <+:
    newsOn (feed.channel.firstSocket net)
      (x.net.connections.length - feed.channel.firstSocket net) (feed.channel.wireOf net)
  /-- Without a failure the subscriber that takes everything has every event that was read, and the
  feed goes on with the next one. -/
  goesOn : failure? = none → x.relay.queue = [] → x.relay.parked = none →
    x.taken = events.map .ok ∧
      ∀ token deadline time e feed' net',
        x.relay.feed.next token deadline (x.net.waitUntil time) =
          (some (.ok (.event e)), feed', net') →
        heardFrom (feed.channel.firstSocket net) net' =
            heardFrom (feed.channel.firstSocket net) net ++ x.taken ++ [.ok e] ∧
          heardFrom (feed.channel.firstSocket net) net' <+:
            newsOn (feed.channel.firstSocket net)
              (net'.connections.length - feed.channel.firstSocket net) (feed.channel.wireOf net)

theorem Forwards.faithful
    (h : Forwards feed.channel.endpoint (feed.channel.firstSocket net) (feed.channel.wireOf net)
      (heardFrom (feed.channel.firstSocket net) net) events failure? x) :
    Faithful feed net events failure? x := by
  refine ⟨h.items_eq, h.looks_eq, h.heard_eq, h.hasRead, Feed.heardFrom_begins h.hasRead, ?_⟩
  intro hf hqueue hparked
  subst hf
  have hitems := h.items_eq
  simp only [Transit.items, hqueue, hparked, Option.toList_none, List.append_nil] at hitems
  have htaken : x.taken = events.map .ok := by simpa [itemsOf] using hitems
  refine ⟨htaken, ?_⟩
  intro token deadline time e feed' net' hn
  have htakes := Feed.next_takes ((h.attends rfl).wait time) hn
  refine ⟨?_, Feed.heardFrom_begins htakes.hasRead⟩
  have hsame : heardFrom (feed.channel.firstSocket net) (x.net.waitUntil time) =
      heardFrom (feed.channel.firstSocket net) x.net := rfl
  have hheard : heardFrom (feed.channel.firstSocket net) x.net =
      heardFrom (feed.channel.firstSocket net) net ++ x.taken := by
    rcases h.heard_eq with hheard | ⟨hne, -⟩
    · rw [hheard, hitems]
    · exact absurd rfl hne
  rcases htakes.heard_eq with hmore | ⟨⟨_, he⟩, -⟩
  · rw [hmore, hsame, hheard]
    rfl
  · cases he

/-- A relay of a feed, whatever this was used for before, is faithful at every moment, in whatever
order frames arrive, the subscriber takes items, the queue fills up, and the relay is stopped; and
what a subscriber gets that lets time pass, takes items and then leaves, stops the relay or goes on
to the end is what such a relay has handed on. -/
theorem run_faithful (endpoint : Endpoint) (username : String) (subscribe : Bool)
    (connectTimeout readTimeout pollInterval : Nat) (before : List Feed.Turn) (start : Network) :
    ∃ feed net, performAll before
        (fresh endpoint username subscribe connectTimeout readTimeout pollInterval) start =
          (feed, net) ∧
      (∀ moves, ∃ events failure?,
        Faithful feed net events failure? (Transit.run { relay := { feed }, net } moves)) ∧
      ∀ (s : Subscriber) token deadline d net',
        s.follow feed token deadline net = (some d, net') →
          ∃ moves, (Transit.run { relay := { feed }, net } moves).taken = d.items ++ d.rest ∧
            (s.finish ≠ .leave →
              (Transit.run { relay := { feed }, net } moves).relay.feed = d.feed) := by
  have hstands := Feed.performAll_stands (Feed.stands_fresh endpoint username subscribe
    connectTimeout readTimeout pollInterval start) before
  refine ⟨_, _, rfl, ?_, ?_⟩
  · intro moves
    obtain ⟨events, failure?, h⟩ := (forwards_start hstands).run moves
    exact ⟨events, failure?, h.faithful⟩
  · intro s token deadline d net' hd
    exact follow_leads s _ token deadline _ hd

end Gallows.Relay
