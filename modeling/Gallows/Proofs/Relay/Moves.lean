import Gallows.Relay.Subscriber

/-!
What happens between a relay and its subscriber, one move behind the other. Neither waits for the
other but where the queue is full or empty, so that the moves may come in any order.
-/
namespace Gallows.Relay

open Feed (Found)

/-- What happens between a relay and its subscriber. -/
inductive Move
  /-- The relay does what it does next by itself, if it can before the deadline. -/
  | work (token : Token) (deadline : Nat)
  /-- A look gets under way that does not end yet. -/
  | look
  /-- The subscriber takes the next item, if there is one. -/
  | take
  /-- Nothing happens until this time. -/
  | rest (time : Nat)

/-- The look at its feed that a relay does next by itself. -/
def look? (r : Relay) (token : Token) (deadline : Nat) (net : Network) : Outcome Found :=
  if r.parked.isSome || r.isOver then none else (r.feed.next token deadline net).1

/-- A relay in use. -/
structure Transit where
  relay : Relay
  net : Network
  /-- What the subscriber has taken. -/
  taken : List Item := []
  /-- What the looks of the relay came to. -/
  looks : List (Except Failure Found) := []

namespace Transit

/-- The relay after a move. -/
def move (x : Transit) : Move → Transit
  | .work token deadline =>
    match x.relay.step? token deadline x.net with
    | none => x
    | some (relay, net) =>
      { x with relay, net, looks := x.looks ++ (x.relay.look? token deadline x.net).toList }
  | .look =>
    { x with relay := { x.relay with isLooking := x.relay.parked.isNone && !x.relay.isOver } }
  | .take =>
    match x.relay.take? with
    | none => x
    | some (item, relay) => { x with relay, taken := x.taken ++ [item] }
  | .rest time => { x with net := x.net.waitUntil time }

/-- The relay after one move behind the other. -/
def run (x : Transit) (moves : List Move) : Transit := moves.foldl move x

/-- What has been handed on, taken or not, and what waits for room. -/
def items (x : Transit) : List Item := x.taken ++ x.relay.queue ++ x.relay.parked.toList

end Transit

variable {feed : Feed} {net net' : Network} {x x' x'' : Transit} {token : Token} {deadline : Nat}

/-- What a relay can do by itself, and what the look comes to that it takes. -/
inductive Steps (token : Token) (deadline : Nat) (r : Relay) (net : Network) :
    Relay → Network → Outcome Found → Prop
  | unparked (item : Item) (hp : r.parked = some item) (hroom : r.queue.length < capacity) :
      Steps token deadline r net { r with queue := r.queue ++ [item], parked := none } net none
  | looked {feed : Feed} {net' : Network} (result : Except Failure Found) (hp : r.parked = none)
      (ho : r.isOver = false) (hn : r.feed.next token deadline net = (some result, feed, net')) :
      Steps token deadline r net (r.afterLook feed result) net' (some result)

theorem step?_steps {r r' : Relay} (h : r.step? token deadline net = some (r', net')) :
    Steps token deadline r net r' net' (r.look? token deadline net) := by
  simp only [step?] at h
  cases hp : r.parked with
  | some item =>
    simp only [hp] at h
    by_cases hroom : r.queue.length < capacity
    · rw [if_pos hroom] at h
      cases h
      have hlook : r.look? token deadline net = none := by simp [look?, hp]
      rw [hlook]
      exact .unparked item hp hroom
    · rw [if_neg hroom] at h
      cases h
  | none =>
    simp only [hp] at h
    cases ho : r.isOver with
    | true => simp [ho] at h
    | false =>
      rcases hn : r.feed.next token deadline net with ⟨_ | result, feed, net₁⟩
      · simp [ho, hn] at h
      · simp only [ho, hn, Bool.false_eq_true, if_false] at h
        cases h
        have hlook : r.look? token deadline net = some result := by simp [look?, hp, ho, hn]
        rw [hlook]
        exact .looked result hp ho hn

/-- Whether a relay has come to its end, and nothing waits for room any more. -/
def HasEnded (r : Relay) : Prop := r.isOver = true ∧ r.parked = none

/-- Whether an item waits for room in a queue that is full. -/
def IsStuck (r : Relay) : Prop := r.parked ≠ none ∧ capacity ≤ r.queue.length

/-- A relay that is not stuck has room for the item that waits. -/
theorem room_of_not_stuck {r : Relay} {item : Item} (h : ¬ r.IsStuck) (hp : r.parked = some item) :
    r.queue.length < capacity := by
  apply Nat.lt_of_not_le
  intro hfull
  exact h ⟨by simp [hp], hfull⟩

theorem IsStuck.not_hasEnded {r : Relay} (h : r.IsStuck) : ¬ r.HasEnded := fun he => h.1 he.2

/-- A relay that is stuck does nothing by itself. -/
theorem IsStuck.step?_eq {r : Relay} (h : r.IsStuck) (token : Token) (deadline : Nat)
    (net : Network) : r.step? token deadline net = none := by
  obtain ⟨item, hp⟩ := Option.ne_none_iff_exists'.mp h.1
  simp only [step?, hp, if_neg (Nat.not_lt_of_le h.2)]

/-- An item that is offered goes into the queue where there is room, or gets stuck. -/
theorem offer_advances (r : Relay) (item : Item) :
    r.queue.length < capacity ∧ (r.offer item).queue.length = r.queue.length + 1 ∨
      (r.offer item).IsStuck := by
  rw [offer]
  split
  · rename_i hroom
    exact Or.inl ⟨hroom, List.length_append⟩
  · rename_i hroom
    exact Or.inr ⟨by simp, Nat.le_of_not_lt hroom⟩

theorem feed_offer (r : Relay) (item : Item) : (r.offer item).feed = r.feed := by
  rw [offer]
  split <;> rfl

theorem feed_afterLook (r : Relay) (feed : Feed) (result : Except Failure Found) :
    (r.afterLook feed result).feed = feed := by
  rcases result with failure | _ | _ | _
  · exact feed_offer _ _
  · exact feed_offer _ _
  · rfl
  · rfl

/-! What a subscriber does with a relay consists of moves. -/

/-- Whether moves lead from one relay in use to the other. -/
def Transit.Leads (x x' : Transit) : Prop := ∃ moves, x.run moves = x'

theorem Transit.Leads.refl (x : Transit) : x.Leads x := ⟨[], rfl⟩

theorem Transit.Leads.trans (h : x.Leads x') (h' : x'.Leads x'') : x.Leads x'' := by
  obtain ⟨moves, rfl⟩ := h
  obtain ⟨moves', rfl⟩ := h'
  exact ⟨moves ++ moves', List.foldl_append⟩

theorem Transit.leads_move (x : Transit) (m : Move) : x.Leads (x.move m) := ⟨[m], rfl⟩

theorem run_leads (token : Token) (deadline fuel : Nat) (x : Transit) :
    ∃ looks, x.Leads { x with
      relay := (x.relay.run token deadline fuel x.net).1
      net := (x.relay.run token deadline fuel x.net).2
      looks } := by
  induction fuel generalizing x with
  | zero => exact ⟨x.looks, .refl x⟩
  | succ fuel ih =>
    cases hstep : x.relay.step? token deadline x.net with
    | none =>
      simp only [run, hstep]
      exact ⟨x.looks, x.leads_move .look⟩
    | some result =>
      obtain ⟨relay, net⟩ := result
      have hmove := x.leads_move (.work token deadline)
      simp only [Transit.move, hstep] at hmove
      obtain ⟨looks, hrest⟩ := ih { x with
        relay, net, looks := x.looks ++ (x.relay.look? token deadline x.net).toList }
      simp only [run, hstep]
      exact ⟨looks, hmove.trans hrest⟩

theorem idle_leads (token : Token) (time : Nat) (x : Transit) :
    ∃ looks, x.Leads { x with
      relay := (x.relay.idle token time x.net).1
      net := (x.relay.idle token time x.net).2
      looks } := by
  obtain ⟨looks, hrun⟩ := run_leads token time (capacity + 3) x
  simp only [idle]
  generalize x.relay.run token time (capacity + 3) x.net = result at hrun ⊢
  obtain ⟨relay, net⟩ := result
  dsimp only at hrun ⊢
  split
  · exact ⟨looks, hrun⟩
  · exact ⟨looks, hrun.trans (Transit.leads_move _ (.rest time))⟩

/-- The subscriber takes the next item if there is one. -/
theorem take?_leads (x : Transit) :
    (x.relay.take? = none ∨ ∃ item relay, x.relay.take? = some (item, relay) ∧
      x.Leads { x with relay, taken := x.taken ++ [item] }) := by
  have hmove := x.leads_move .take
  cases ht : x.relay.take? with
  | none => exact Or.inl rfl
  | some result =>
    obtain ⟨item, relay⟩ := result
    simp only [Transit.move, ht] at hmove
    exact Or.inr ⟨item, relay, rfl, hmove⟩

theorem receive_leads (token : Token) (deadline : Nat) (x : Transit) {r : Option (Option Item)}
    {relay : Relay} (h : x.relay.receive token deadline x.net = (r, relay, net')) :
    ∃ looks, x.Leads { relay, net := net', taken := x.taken ++ r.join.toList, looks } := by
  rw [receive] at h
  rcases take?_leads x with ht | ⟨item, relay₁, ht, htake⟩
  · simp only [ht] at h
    cases hstep : x.relay.step? token deadline x.net with
    | none =>
      simp only [hstep] at h
      obtain ⟨rfl, rfl, rfl⟩ := h
      refine ⟨x.looks, ?_⟩
      split <;> simpa using Transit.Leads.refl x
    | some result =>
      obtain ⟨relay₁, net₁⟩ := result
      have hmove := x.leads_move (.work token deadline)
      simp only [Transit.move, hstep] at hmove
      obtain ⟨looks, hrun⟩ := run_leads token net₁.now (capacity + 3) { x with
        relay := relay₁
        net := net₁
        looks := x.looks ++ (x.relay.look? token deadline x.net).toList }
      have hboth := hmove.trans hrun
      simp only [hstep] at h
      dsimp only at hboth
      generalize relay₁.run token net₁.now (capacity + 3) net₁ = result at h hboth
      obtain ⟨relay₂, net₂⟩ := result
      dsimp only at h hboth
      rcases take?_leads { relay := relay₂, net := net₂, taken := x.taken, looks } with
        ht' | ⟨item, relay₃, ht', htake⟩
      · simp only [ht'] at h
        obtain ⟨rfl, rfl, rfl⟩ := h
        refine ⟨looks, ?_⟩
        split <;> simpa using hboth
      · simp only [ht'] at h
        obtain ⟨rfl, rfl, rfl⟩ := h
        exact ⟨looks, hboth.trans htake⟩
  · simp only [ht] at h
    obtain ⟨rfl, rfl, rfl⟩ := h
    exact ⟨x.looks, htake⟩

theorem collectWithin_leads (token : Token) (deadline fuel : Nat) (count : Option Nat) (x : Transit)
    {ended : Option Bool} {items : List Item} {relay : Relay}
    (h : collectWithin token deadline fuel count x.relay x.net = (ended, items, relay, net')) :
    ∃ looks, x.Leads { relay, net := net', taken := x.taken ++ items, looks } := by
  induction fuel generalizing x count ended items relay net' with
  | zero =>
    rw [collectWithin] at h
    obtain ⟨rfl, rfl, rfl, rfl⟩ := h
    exact ⟨x.looks, by simpa using Transit.Leads.refl x⟩
  | succ fuel ih =>
    by_cases hcount : count = some 0
    · rw [hcount, collectWithin] at h
      obtain ⟨rfl, rfl, rfl, rfl⟩ := h
      exact ⟨x.looks, by simpa using Transit.Leads.refl x⟩
    · rw [collectWithin] at h
      rcases hr : x.relay.receive token deadline x.net with ⟨_ | _ | item, relay₁, net₁⟩
      · obtain ⟨looks, hreceive⟩ := receive_leads token deadline x hr
        simp only [hr] at h
        obtain ⟨rfl, rfl, rfl, rfl⟩ := h
        exact ⟨looks, hreceive⟩
      · obtain ⟨looks, hreceive⟩ := receive_leads token deadline x hr
        simp only [hr] at h
        obtain ⟨rfl, rfl, rfl, rfl⟩ := h
        exact ⟨looks, hreceive⟩
      · obtain ⟨looks, hreceive⟩ := receive_leads token deadline x hr
        simp only [hr] at h
        rcases hrest : collectWithin token deadline fuel (count.map (· - 1)) relay₁ net₁ with
          ⟨ended₂, items₂, relay₂, net₂⟩
        obtain ⟨looks₂, hcollect⟩ := ih (count.map (· - 1))
          { relay := relay₁, net := net₁, taken := x.taken ++ [item], looks } hrest
        simp only [hrest] at h
        obtain ⟨rfl, rfl, rfl, rfl⟩ := h
        refine ⟨looks₂, hreceive.trans ?_⟩
        simpa using hcollect
      · exact hcount

theorem collect_leads (token : Token) (deadline : Nat) (count : Option Nat) (x : Transit)
    {ended : Option Bool} {items : List Item} {relay : Relay}
    (h : x.relay.collect token deadline count x.net = (ended, items, relay, net')) :
    ∃ looks, x.Leads { relay, net := net', taken := x.taken ++ items, looks } :=
  collectWithin_leads token deadline _ count x h

/-- A subscriber first lets some time pass, or none. -/
theorem begin_leads (s : Subscriber) (token : Token) (x : Transit) :
    ∃ looks, x.Leads { x with
      relay := (if s.idle = 0 then (x.relay, x.net)
        else x.relay.idle token (x.net.now + s.idle) x.net).1
      net := (if s.idle = 0 then (x.relay, x.net)
        else x.relay.idle token (x.net.now + s.idle) x.net).2
      looks } := by
  by_cases hz : s.idle = 0
  · simp only [hz, if_true]
    exact ⟨x.looks, .refl x⟩
  · simp only [hz, if_false]
    exact idle_leads token (x.net.now + s.idle) x

/-- Whatever a subscriber does, what it takes is what the relay hands on, and the feed that it gets
back is the relay's unless it left. -/
theorem follow_leads (s : Subscriber) (feed : Feed) (token : Token) (deadline : Nat) (net : Network)
    {d : Delivery} (h : s.follow feed token deadline net = (some d, net')) :
    ∃ moves, (Transit.run { relay := { feed }, net } moves).taken = d.items ++ d.rest ∧
      (s.finish ≠ .leave → (Transit.run { relay := { feed }, net } moves).relay.feed = d.feed) := by
  have hbegin := begin_leads s token { relay := { feed }, net }
  rw [Subscriber.follow] at h
  dsimp only at h hbegin
  split at h
  · cases h
  · generalize (if s.idle = 0 then (({ feed } : Relay), net)
      else ({ feed } : Relay).idle token (net.now + s.idle) net) = result at h hbegin
    obtain ⟨relay₁, net₁⟩ := result
    obtain ⟨looks₁, hbegin⟩ := hbegin
    dsimp only at h hbegin
    rcases hc : relay₁.collect token deadline s.count net₁ with ⟨_ | ended, items, relay₂, net₂⟩
    · simp only [hc] at h
      cases h
    simp only [hc] at h
    obtain ⟨looks₂, hcollect⟩ := collect_leads token deadline s.count
      { relay := relay₁, net := net₁, looks := looks₁ } hc
    have hwanted := hbegin.trans hcollect
    simp only [List.nil_append] at hwanted
    -- What is taken behind the items that are wanted, with this token or another.
    have hrest (token' : Token) {ended' : Option Bool} {rest : List Item} {relay₃ : Relay}
        {net₃ : Network}
        (hc' : relay₂.collect token' deadline none net₂ = (ended', rest, relay₃, net₃)) :
        ∃ moves, (Transit.run { relay := { feed }, net } moves).taken = items ++ rest ∧
          (Transit.run { relay := { feed }, net } moves).relay.feed = relay₃.feed := by
      obtain ⟨looks₃, hmore⟩ := collect_leads token' deadline none
        { relay := relay₂, net := net₂, taken := items, looks := looks₂ } hc'
      obtain ⟨moves, hmoves⟩ := hwanted.trans hmore
      exact ⟨moves, by rw [hmoves], by rw [hmoves]⟩
    cases hf : s.finish with
    | leave =>
      simp only [hf] at h
      obtain ⟨rfl, -⟩ := h
      obtain ⟨moves, hmoves⟩ := hwanted
      refine ⟨moves, ?_, by simp⟩
      rw [hmoves, List.append_nil]
    | stop =>
      simp only [hf] at h
      rcases hc' : relay₂.collect (relay₂.stopAt token (max (net.now + s.idle) net₂.now)) deadline
        none net₂ with ⟨_ | _, rest, relay₃, net₃⟩
      · simp only [hc'] at h
        cases h
      · simp only [hc'] at h
        obtain ⟨rfl, -⟩ := h
        obtain ⟨moves, htaken, hfeed⟩ := hrest _ hc'
        exact ⟨moves, htaken, fun _ => hfeed⟩
    | drain =>
      simp only [hf] at h
      rcases hc' : relay₂.collect token deadline none net₂ with ⟨_ | _, rest, relay₃, net₃⟩
      · simp only [hc'] at h
        cases h
      · simp only [hc'] at h
        obtain ⟨rfl, -⟩ := h
        obtain ⟨moves, htaken, hfeed⟩ := hrest _ hc'
        exact ⟨moves, htaken, fun _ => hfeed⟩

end Gallows.Relay
