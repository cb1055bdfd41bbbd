import Gallows.Proofs.Feed.Halting
import Gallows.Proofs.Feed.Stopping
import Gallows.Proofs.Frame.Streams
import Gallows.Proofs.Relay.Watching

/-!
Whether a relay ends when its token fires. It does, by itself, unless its queue is full and an item
waits for room: putting this into the queue does not heed the token, so that the relay is stuck
there until the subscriber takes an item.
-/
namespace Gallows

namespace Relay

open Feed (At Tale announcement fresh performAll)

variable {r r' : Relay} {net net' : Network} {x : Transit} {token : Token} {time deadline : Nat}

/-- A relay that is neither stuck nor at its end goes on if its next look comes to something. -/
theorem step?_of_next {result : Except Failure Feed.Found} {feed : Feed} (he : ¬ r.HasEnded)
    (hs : ¬ r.IsStuck) (hn : r.feed.next token deadline net = (some result, feed, net')) :
    ∃ r' net'', r.step? token deadline net = some (r', net'') := by
  cases hp : r.parked with
  | some item =>
    have hroom := room_of_not_stuck hs hp
    exact ⟨{ r with queue := r.queue ++ [item], parked := none }, net,
      by simp only [step?, hp, if_pos hroom]⟩
  | none =>
    cases ho : r.isOver with
    | true => exact absurd ⟨ho, hp⟩ he
    | false =>
      exact ⟨r.afterLook feed result, net', by
        simp only [step?, hp, ho, hn, Bool.false_eq_true, if_false]⟩

/-- Every step of a relay makes its queue longer, or is its last one. -/
theorem step?_advances (h : r.step? token deadline net = some (r', net')) :
    r.queue.length < capacity ∧ r'.queue.length = r.queue.length + 1 ∨
      r'.HasEnded ∨ r'.IsStuck := by
  have hsteps := step?_steps h
  generalize r.look? token deadline net = look at hsteps
  cases hsteps with
  | unparked _ _ hroom => exact Or.inl ⟨hroom, List.length_append⟩
  | @looked feed _ result hp _ hn =>
    rcases result with failure | e | _ | _
    · exact (offer_advances { r with feed, isLooking := false, isOver := true } _).imp_right Or.inr
    · exact (offer_advances { r with feed, isLooking := false } _).imp_right Or.inr
    · exact absurd rfl (Feed.waits_ne_nothing (Feed.waits_of_next hn))
    · exact Or.inr (Or.inl ⟨rfl, hp⟩)

/-! A relay that goes on by itself gets to its end or gets stuck. -/

theorem run_of_ended (h : r.HasEnded) (token : Token) (deadline fuel : Nat) (net : Network) :
    (r.run token deadline fuel net).1.HasEnded ∧ (r.run token deadline fuel net).2 = net := by
  cases fuel with
  | zero => exact ⟨h, rfl⟩
  | succ fuel =>
    have hstep : r.step? token deadline net = none := by simp [step?, h.1, h.2]
    rw [run, hstep]
    exact ⟨h, rfl⟩

theorem run_of_stuck (h : r.IsStuck) (token : Token) (deadline fuel : Nat) (net : Network) :
    (r.run token deadline fuel net).1.IsStuck := by
  cases fuel with
  | zero => exact h
  | succ fuel =>
    simp only [run, h.step?_eq]
    exact h

/-- A relay whose token has fired ends at once if it is not stuck. -/
theorem run_of_fired {fuel : Nat} (hfired : token.isFired net.now) (hs : ¬ r.IsStuck)
    (deadline : Nat) (hfuel : 2 ≤ fuel) :
    (r.run token deadline fuel net).1.HasEnded ∧ (r.run token deadline fuel net).2 = net := by
  -- The look of a relay without a parked item is stopped.
  have hlook {r : Relay} {fuel : Nat} (hp : r.parked = none) (hf : 1 ≤ fuel) :
      (r.run token deadline fuel net).1.HasEnded ∧ (r.run token deadline fuel net).2 = net := by
    obtain ⟨fuel, rfl⟩ := Nat.exists_eq_add_of_le' hf
    cases ho : r.isOver with
    | true => exact run_of_ended ⟨ho, hp⟩ token deadline _ net
    | false =>
      have hstep : r.step? token deadline net =
          some (r.afterLook r.feed.stopped (.ok .stopped), net) := by
        simp only [step?, hp, ho, Feed.next_of_fired hfired, Bool.false_eq_true, if_false]
      simp only [run, hstep]
      exact run_of_ended (r := r.afterLook r.feed.stopped (.ok .stopped)) ⟨rfl, hp⟩ token deadline
        fuel net
  cases hp : r.parked with
  | none => exact hlook hp (Nat.le_of_succ_le hfuel)
  | some item =>
    obtain ⟨fuel, rfl⟩ := Nat.exists_eq_add_of_le' (Nat.le_of_succ_le hfuel)
    have hroom := room_of_not_stuck hs hp
    have hstep : r.step? token deadline net =
        some ({ r with queue := r.queue ++ [item], parked := none }, net) := by
      simp only [step?, hp, if_pos hroom]
    simp only [run, hstep]
    exact hlook rfl (Nat.le_of_succ_le_succ hfuel)

/-- No step of a relay changes how long its feed tries to connect. -/
theorem step?_limit (h : r.step? token deadline net = some (r', net')) :
    r'.feed.channel.connectTimeout = r.feed.channel.connectTimeout := by
  have hsteps := step?_steps h
  generalize r.look? token deadline net = look at hsteps
  cases hsteps with
  | unparked => rfl
  | @looked feed _ result _ _ hn =>
    rw [feed_afterLook]
    exact Feed.waits_limit (Feed.waits_of_next hn)

theorem Transit.run_limit (x : Transit) (moves : List Move) :
    (x.run moves).relay.feed.channel.connectTimeout = x.relay.feed.channel.connectTimeout := by
  induction moves generalizing x with
  | nil => rfl
  | cons m moves ih =>
    refine (ih (x.move m)).trans ?_
    cases m with
    | work token deadline =>
      cases hstep : x.relay.step? token deadline x.net with
      | none => simp only [Transit.move, hstep]
      | some result =>
        simp only [Transit.move, hstep]
        exact step?_limit hstep
    | take =>
      simp only [Transit.move, take?]
      cases x.relay.queue <;> rfl
    | look | rest => rfl

/-- Whether the looks of a relay come to an end if its token fires then and they are given up at the
deadline. -/
structure Patient (connectTimeout time deadline : Nat) (r : Relay) : Prop where
  limit : r.feed.channel.connectTimeout = connectTimeout
  inTime : time + connectTimeout ≤ deadline

section Patient

variable {connectTimeout : Nat}

theorem Patient.step (h : Patient connectTimeout time deadline r)
    (hstep : r.step? token deadline net = some (r', net')) :
    Patient connectTimeout time deadline r' :=
  ⟨(step?_limit hstep).trans h.limit, h.inTime⟩

theorem Patient.next (h : Patient connectTimeout time deadline r) (net : Network) :
    ∃ result feed net', r.feed.next (.firing time) deadline net = (some result, feed, net') ∧
      net'.now ≤ max net.now (time + connectTimeout) := by
  rcases hn : r.feed.next (.firing time) deadline net with ⟨result, feed, net'⟩
  obtain ⟨hsome, hnow⟩ := Feed.next_ends (h.limit ▸ h.inTime) hn
  obtain ⟨result, rfl⟩ := Option.ne_none_iff_exists'.mp hsome
  rw [h.limit] at hnow
  exact ⟨result, feed, net', rfl, hnow⟩

theorem Patient.now_step?_le (h : Patient connectTimeout time deadline r)
    (hstep : r.step? (.firing time) deadline net = some (r', net')) :
    net'.now ≤ max net.now (time + connectTimeout) := by
  have hsteps := step?_steps hstep
  generalize r.look? (.firing time) deadline net = look at hsteps
  cases hsteps with
  | unparked => exact Nat.le_max_left _ _
  | looked _ _ _ hn =>
    obtain ⟨_, _, _, hnext, hnow⟩ := h.next net
    obtain ⟨-, -, rfl⟩ : _ ∧ _ ∧ _ = net' := by simpa using hnext.symm.trans hn
    exact hnow

/-- A relay that goes on until its token fires ends or gets stuck, and gives up connecting at
last. -/
theorem Patient.settles (h : Patient connectTimeout time deadline r) {fuel : Nat} (net : Network)
    (hfuel : (r.HasEnded ∨ r.IsStuck) ∨ capacity - r.queue.length < fuel) :
    ((r.run (.firing time) deadline fuel net).1.HasEnded ∨
        (r.run (.firing time) deadline fuel net).1.IsStuck) ∧
      (r.run (.firing time) deadline fuel net).2.now ≤ max net.now (time + connectTimeout) := by
  induction fuel generalizing r net with
  | zero =>
    refine ⟨?_, Nat.le_max_left _ _⟩
    rcases hfuel with hsettled | hfuel
    · exact hsettled
    · exact absurd hfuel (Nat.not_lt_zero _)
  | succ fuel ih =>
    cases hstep : r.step? (.firing time) deadline net with
    | none =>
      have hsettled : r.HasEnded ∨ r.IsStuck := by
        by_contra hnot
        obtain ⟨he, hs⟩ := not_or.mp hnot
        obtain ⟨result, feed, net', hn, -⟩ := h.next net
        obtain ⟨r', net'', hsome⟩ := step?_of_next he hs hn
        rw [hstep] at hsome
        cases hsome
      simp only [run, hstep]
      exact ⟨hsettled, Nat.le_max_left _ _⟩
    | some result =>
      obtain ⟨r', net'⟩ := result
      have hnow := h.now_step?_le hstep
      have hrest := ih (h.step hstep) net' ?_
      · simp only [run, hstep]
        exact ⟨hrest.1, by omega⟩
      · rcases step?_advances hstep with ⟨hroom, hlength⟩ | hsettled
        · rcases hfuel with (he | hs) | hfuel
          · simp [step?, he.1, he.2] at hstep
          · simp [hs.step?_eq] at hstep
          · refine Or.inr ?_
            omega
        · exact Or.inl hsettled

end Patient

/-- A relay that is stuck stays so until the subscriber takes an item. -/
theorem IsStuck.run {moves : List Move} (h : x.relay.IsStuck) (ht : .take ∉ moves) :
    (x.run moves).relay.IsStuck := by
  induction moves generalizing x with
  | nil => exact h
  | cons m moves ih =>
    obtain ⟨hm, ht⟩ := List.ne_and_not_mem_of_not_mem_cons ht
    refine ih ?_ ht
    cases m with
    | work token deadline =>
      simp only [Transit.move, h.step?_eq]
      exact h
    | look | rest => exact h
    | take => exact absurd rfl hm

/-- And then it is not. -/
theorem IsStuck.take (h : x.relay.IsStuck) (hb : x.relay.queue.length ≤ capacity) :
    ¬ (x.move .take).relay.IsStuck := by
  intro hs
  have hlong := h.2
  cases hq : x.relay.queue with
  | nil => simp [hq, capacity] at hlong
  | cons item queue =>
    simp only [Transit.move, take?, hq] at hs
    have hfull : capacity ≤ queue.length := hs.2
    rw [hq, List.length_cons] at hb
    omega

/-- What comes of a relay whose token fires. -/
structure Halts (connectTimeout : Nat) (x : Transit) : Prop where
  /-- When its token has fired, it ends by itself unless it is stuck, and takes no time for that. -/
  ends : ∀ token deadline, token.isFired x.net.now → ¬ x.relay.IsStuck →
    (x.relay.run token deadline (capacity + 3) x.net).1.HasEnded ∧
      (x.relay.run token deadline (capacity + 3) x.net).2 = x.net
  /-- When it is stuck, it does not end by itself, whatever its token does and however long it
  waits. -/
  stuck : x.relay.IsStuck → ∀ moves, .take ∉ moves →
    (x.run moves).relay.IsStuck ∧ ¬ (x.run moves).relay.HasEnded
  /-- One item that the subscriber takes lets it end. -/
  freed : ∀ token deadline, token.isFired x.net.now → x.relay.IsStuck →
    ((x.move .take).relay.run token deadline (capacity + 3) x.net).1.HasEnded
  /-- When its token fires later, it has ended or got stuck by then, unless it is connecting, which
  it gives up behind that. -/
  settles : ∀ time deadline, time + connectTimeout ≤ deadline →
    ((x.relay.run (.firing time) deadline (capacity + 3) x.net).1.HasEnded ∨
        (x.relay.run (.firing time) deadline (capacity + 3) x.net).1.IsStuck) ∧
      (x.relay.run (.firing time) deadline (capacity + 3) x.net).2.now ≤
        max x.net.now (time + connectTimeout)

/-- A relay of a feed, whatever this was used for before, and whatever has happened between the
relay and its subscriber: when its token fires it ends by itself if and only if it is not stuck
behind a subscriber that takes nothing. -/
theorem run_halts (endpoint : Endpoint) (username : String) (subscribe : Bool)
    (connectTimeout readTimeout pollInterval : Nat) (before : List Feed.Turn) (start : Network) :
    ∃ feed net, performAll before
        (fresh endpoint username subscribe connectTimeout readTimeout pollInterval) start =
          (feed, net) ∧
      ∀ moves, Halts connectTimeout (Transit.run { relay := { feed }, net } moves) := by
  have hstands := Feed.performAll_stands (Feed.stands_fresh endpoint username subscribe
    connectTimeout readTimeout pollInterval start) before
  have hlimit := Feed.performAll_limit before
    (fresh endpoint username subscribe connectTimeout readTimeout pollInterval) start
  generalize performAll before _ start = reached at hstands hlimit ⊢
  obtain ⟨feed, net⟩ := reached
  refine ⟨feed, net, rfl, ?_⟩
  intro moves
  obtain ⟨_, _, hforwards⟩ := (forwards_start hstands).run moves
  have hkept := (Transit.run_limit { relay := { feed }, net } moves).trans hlimit
  generalize Transit.run { relay := { feed }, net } moves = x at hforwards hkept
  refine ⟨?_, ?_, ?_, ?_⟩
  · intro token deadline hfired hs
    exact run_of_fired hfired hs deadline (by decide)
  · intro hs moves ht
    exact ⟨hs.run ht, (hs.run ht).not_hasEnded⟩
  · intro token deadline hfired hs
    exact (run_of_fired hfired (hs.take hforwards.bounded) deadline (by decide)).1
  · intro time deadline hd
    have hpatient : Patient connectTimeout time deadline x.relay := ⟨hkept, hd⟩
    exact hpatient.settles x.net (Or.inr (by simp only [capacity]; omega))

/-! A relay that has more to hand on than its queue holds gets stuck behind a subscriber that takes
nothing. -/

section Full

variable {server : Server} {f₀ : Feed} {items : List Item}

/-- A relay that is patient enough fills its queue up with what it has promised, and is stuck
then. -/
theorem Promises.fills (h : Promises server f₀ r net items) (h0 : 0 < f₀.channel.readTimeout)
    (hmore : capacity < items.length) :
    ∃ patience, ∀ deadline fuel, patience ≤ deadline → capacity - r.queue.length < fuel →
      (r.run .never deadline fuel net).1.IsStuck := by
  induction hk : capacity - r.queue.length using Nat.strong_induction_on generalizing r net with
  | _ k ih =>
    subst hk
    by_cases hs : r.IsStuck
    · exact ⟨0, fun deadline fuel _ _ => run_of_stuck hs .never deadline fuel net⟩
    obtain ⟨patience, r', net', hadvance, hstep⟩ :=
      h.advance h0 (Nat.lt_of_le_of_lt h.bounded hmore) hs
    have h' := h.step h0 (hstep patience (Nat.le_refl _))
    rcases hadvance with ⟨hroom, hlength⟩ | hs'
    · obtain ⟨patience', hfills⟩ := ih _ (by omega) h' rfl
      refine ⟨max patience patience', ?_⟩
      intro deadline fuel hd hf
      obtain ⟨fuel, rfl⟩ := Nat.exists_eq_succ_of_ne_zero (Nat.ne_of_gt (Nat.zero_lt_of_lt hf))
      simp only [Relay.run, hstep deadline (Nat.le_trans (Nat.le_max_left _ _) hd)]
      exact hfills deadline fuel (Nat.le_trans (Nat.le_max_right _ _) hd) (by omega)
    · refine ⟨patience, ?_⟩
      intro deadline fuel hd hf
      obtain ⟨fuel, rfl⟩ := Nat.exists_eq_succ_of_ne_zero (Nat.ne_of_gt (Nat.zero_lt_of_lt hf))
      simp only [Relay.run, hstep deadline hd]
      exact run_of_stuck hs' .never deadline fuel net'

/-- A tale may begin with the same event again and again. -/
theorem tale_repeats {body : ByteArray} {e : Event} {rest : List UInt8} {ends : Bool} {n : Nat}
    {events : List Event} {failure : Failure} (hl : body.size ≤ Frame.sizeLimit)
    (hn : Feed.newsOfBody body = some (.ok e))
    (tale : Tale f₀ server (.before rest ends) n events failure) (count : Nat) :
    Tale f₀ server
      (.before ((List.replicate count (Frame.frame body.data.toList)).flatten ++ rest) ends) n
      (List.replicate count e ++ events) failure := by
  induction count with
  | zero => exact tale
  | succ count ih =>
    rw [List.replicate_succ, List.replicate_succ, List.flatten_cons, List.append_assoc]
    exact .event hl hn ih

/-- What a server writes to tell `count` times that bob joined. -/
def repeatedFrames (count : Nat) : ByteArray :=
  ⟨(List.replicate count
    (Frame.frame (announcement (.playerJoined "bob")).data.toList)).flatten.toArray⟩

/-- A server that waits for a subscription, tells of bob again and again and hangs up, and then
accepts no connection any more. -/
def repeatingServer (count : Nat) : Server where
  endpoint := ⟨"127.0.0.1", 9000⟩
  receptions := [.accept 0 [.await 1, .send (repeatedFrames count), .finish] [], .refuse 0]

theorem repeatingServer_tells (count : Nat) :
    Tale Feed.unconnectedFeed (repeatingServer count) .between 0
      (List.replicate count (.playerJoined "bob"))
      (.connect "127.0.0.1:9000" (.ofSystem .connectionRefused)) := by
  obtain ⟨frame, hframe, -⟩ := Frame.encode_eq_ok (m := Feed.subscription "alice")
    (by decide +kernel)
  refine .accepted rfl (by decide) ?_ ?_ ?_
  · refine .written _ frame rfl hframe fun now => ?_
    exact Connection.write_accepted (by simp) _ now frame
  · intro frames hmem
    simp only [List.mem_cons, List.not_mem_nil, or_false, Act.await.injEq, reduceCtorEq] at hmem
    exact Nat.le_of_eq hmem
  · have hend : Tale Feed.unconnectedFeed (repeatingServer count) (.before [] true) 1 []
        (.connect "127.0.0.1:9000" (.ofSystem .connectionRefused)) := by
      have hrefused : Feed.unconnectedFeed.channel.Declined ((repeatingServer count).reception 1)
          (.ofSystem .connectionRefused) := .refused 0 (by decide)
      have htext : Endpoint.text ⟨"127.0.0.1", 9000⟩ = "127.0.0.1:9000" := by decide
      rw [← htext]
      exact .ended Frame.pending_nil (.declined hrefused)
    have hfits : (announcement (.playerJoined "bob")).size ≤ Frame.sizeLimit := by decide +kernel
    have htale := tale_repeats hfits (Feed.newsOfBody_announcement hfits) hend count
    rwa [List.append_nil (List.replicate count _)] at htale

/-- The relay of a feed that is told of 33 players gets stuck behind a subscriber that takes
nothing. Its token may fire then: it does nothing about that, and does not end. -/
theorem repeatingServer_leaves_stuck :
    ∃ moves,
      let x := Transit.run
        { relay := { feed := Feed.unconnectedFeed }, net := { servers := [repeatingServer 33] } }
        moves
      x.taken = [] ∧ x.relay.IsStuck ∧
        (∀ deadline, x.relay.step? .fired deadline x.net = none) ∧
        ∀ more, .take ∉ more → ¬ (x.run more).relay.HasEnded := by
  have hreach : Network.Reaches { servers := [repeatingServer 33] } (repeatingServer 33) :=
    ⟨rfl, rfl⟩
  have hat : At (repeatingServer 33) Feed.unconnectedFeed Feed.unconnectedFeed
      { servers := [repeatingServer 33] } .between 0 :=
    .between (f := Feed.unconnectedFeed) ⟨rfl, rfl, rfl, rfl, rfl, hreach⟩ rfl
      Frame.Assembler.holds_initial fun _ => Nat.le_refl _
  have hpromises : Promises (repeatingServer 33) Feed.unconnectedFeed
      { feed := Feed.unconnectedFeed } { servers := [repeatingServer 33] } _ :=
    ⟨⟨_, .running rfl hat (repeatingServer_tells 33), rfl⟩, Nat.zero_le _⟩
  obtain ⟨patience, hfills⟩ := hpromises.fills (by decide) (by decide)
  have hstuck := hfills patience (capacity + 3) (Nat.le_refl _) (by decide)
  obtain ⟨_, moves, hmoves⟩ := run_leads .never patience (capacity + 3)
    { relay := { feed := Feed.unconnectedFeed }, net := { servers := [repeatingServer 33] } }
  refine ⟨moves, ?_⟩
  rw [hmoves]
  refine ⟨rfl, hstuck, fun deadline => hstuck.step?_eq .fired deadline _, ?_⟩
  intro more ht
  exact (IsStuck.run (x := _) hstuck ht).not_hasEnded

end Full

end Relay

end Gallows
