import Gallows.Feed
import Gallows.Proofs.Channel.Clock

/-!
What a feed can do when it connects and when it is looked at. A wait for an event goes through
rounds: each connects, polls once, and pauses behind an envelope that brings nothing. As a pause
takes time, only so many rounds go on before the deadline. A look for one envelope connects and
receives once. Whatever holds of every use of a feed is read off from here.
-/
namespace Gallows.Feed

/-- What a feed can be asked for. -/
inductive Use
  | connect
  | next (token : Token)
  | tryNext (token : Token)
  | close

/-- A use of a feed in a run, which begins at `start` or later and is given up at the deadline. -/
structure Turn where
  use : Use
  start : Nat := 0
  deadline : Nat

/-- Uses a feed once. -/
def perform (use : Use) (deadline : Nat) (f : Feed) (net : Network) : Feed × Network :=
  match use with
  | .connect => (f.connect deadline net).2
  | .next token => (f.next token deadline net).2
  | .tryNext token => (f.tryNext token deadline net).2
  | .close => f.close net

/-- Uses a feed again and again. -/
def performAll : List Turn → Feed → Network → Feed × Network
  | [], f, net => (f, net)
  | turn :: turns, f, net =>
    let (f, net) := f.perform turn.use turn.deadline (net.waitUntil turn.start)
    performAll turns f net

/-- What comes of making sure that a socket is open and was subscribed on. -/
inductive Connects (deadline : Nat) (f : Feed) (net : Network) :
    Outcome Unit → Feed → Network → Prop
  /-- The deadline came while a socket was being opened. -/
  | opening {c : Channel} {net₁ : Network} (h : f.channel.ensure deadline net = (none, c, net₁)) :
      Connects deadline f net none { f with channel := c } net₁
  | unopened {c : Channel} {net₁ : Network} (failure : Failure)
      (h : f.channel.ensure deadline net = (some (.error failure), c, net₁)) :
      Connects deadline f net (some (.error failure)) { f with channel := c } net₁
  /-- There is nothing to say on the socket. -/
  | silent {s : Socket} {c : Channel} {net₁ : Network}
      (h : f.channel.ensure deadline net = (some (.ok s), c, net₁))
      (hs : ¬ (f.subscribe ∧ c.generation ≠ f.subscribed)) :
      Connects deadline f net (some (.ok ())) { f with channel := c } net₁
  | greeted {s : Socket} {c c' : Channel} {net₁ net₂ : Network}
      (h : f.channel.ensure deadline net = (some (.ok s), c, net₁))
      (hs : f.subscribe ∧ c.generation ≠ f.subscribed)
      (hsend : c.send (subscription f.username) deadline net₁ = (some (.ok ()), c', net₂)) :
      Connects deadline f net (some (.ok ()))
        { f with channel := c', subscribed := c.generation } net₂
  /-- The subscription could not be sent. -/
  | ungreeted {s : Socket} {c c' : Channel} {net₁ net₂ : Network} {r : Outcome Unit}
      (h : f.channel.ensure deadline net = (some (.ok s), c, net₁))
      (hs : f.subscribe ∧ c.generation ≠ f.subscribed)
      (hsend : c.send (subscription f.username) deadline net₁ = (r, c', net₂))
      (hr : r ≠ some (.ok ())) : Connects deadline f net r { f with channel := c' } net₂

/-- A feed fails to connect whose subscription fits no frame, and keeps the socket. -/
theorem connect_unsaid {deadline : Nat} {f : Feed} {net net₁ : Network} {c : Channel} {s : Socket}
    {cause : Frame.Error} (hframe : Frame.encode (subscription f.username) = .error cause)
    (hsub : f.subscribe = true)
    (hensure : f.channel.ensure deadline net = (some (.ok s), c, net₁))
    (hneed : c.generation ≠ f.subscribed) :
    f.connect deadline net =
      (some (.error (.protocol (.frame cause))), { f with channel := c }, net₁) := by
  have hneeded : (f.subscribe && decide (c.generation ≠ f.subscribed)) = true := by
    simp [hsub, hneed]
  simp only [connect, hensure, if_pos hneeded, Channel.send, hframe]

theorem connect_connects (deadline : Nat) (f : Feed) (net : Network) :
    Connects deadline f net (f.connect deadline net).1 (f.connect deadline net).2.1
      (f.connect deadline net).2.2 := by
  rw [connect]
  rcases h : f.channel.ensure deadline net with ⟨_ | ⟨failure | s⟩, c, net₁⟩
  · exact .opening h
  · exact .unopened failure h
  dsimp only
  by_cases hs : f.subscribe ∧ c.generation ≠ f.subscribed
  · have hneed : (f.subscribe && decide (c.generation ≠ f.subscribed)) = true := by simpa using hs
    rw [if_pos hneed]
    rcases hsend : c.send (subscription f.username) deadline net₁ with
      ⟨_ | ⟨failure | _⟩, c', net₂⟩
    · exact .ungreeted h hs hsend (by simp)
    · exact .ungreeted h hs hsend (by simp)
    · exact .greeted h hs hsend
  · have hneed : ¬ (f.subscribe && decide (c.generation ≠ f.subscribed)) = true := by simpa using hs
    rw [if_neg hneed]
    exact .silent h hs

theorem connects_of_eq {deadline : Nat} {f f' : Feed} {net net' : Network} {r : Outcome Unit}
    (h : f.connect deadline net = (r, f', net')) : Connects deadline f net r f' net' := by
  have hconnects := connect_connects deadline f net
  rwa [h] at hconnects

/-- A feed that has connected has a socket. -/
theorem connect_open {deadline : Nat} {f f' : Feed} {net net' : Network}
    (h : f.connect deadline net = (some (.ok ()), f', net')) :
    ∃ s, f'.channel.socket = some s := by
  cases connects_of_eq h with
  | silent he => exact ⟨_, (Channel.opens_of_ensure he).socket_eq⟩
  | greeted he _ hsend =>
    have hs := (Channel.opens_of_ensure he).socket_eq
    cases Channel.posts_of_send hs hsend with
    | sent => exact ⟨_, hs⟩
  | ungreeted _ _ _ hr => exact absurd rfl hr

theorem now_le_connect {deadline : Nat} {f f' : Feed} {net net' : Network} {r : Outcome Unit}
    (h : f.connect deadline net = (r, f', net')) : net.now ≤ net'.now := by
  -- What is sent behind opening takes no time.
  have hsent {s : Socket} {c c' : Channel} {net₁ net₂ : Network} {r : Outcome Unit}
      (he : f.channel.ensure deadline net = (some (.ok s), c, net₁))
      (hsend : c.send (subscription f.username) deadline net₁ = (r, c', net₂)) :
      net.now ≤ net₂.now := by
    have hopens := Channel.opens_of_ensure he
    have hnow := Channel.now_send hopens.socket_eq (subscription f.username) deadline net₁
    rw [hsend] at hnow
    exact Nat.le_trans hopens.now_le (Nat.le_of_eq hnow.symm)
  cases connects_of_eq h with
  | opening he | unopened _ he | silent he => exact (Channel.opens_of_ensure he).now_le
  | greeted he _ hsend | ungreeted he _ hsend => exact hsent he hsend

/-- The feed behind a poll, or behind receiving, that left this channel. -/
def behind (f : Feed) (channel : Channel) : Feed := { f.reading with channel }

/-- A pause only lets time pass. -/
theorem pause_waits {token : Token} {deadline : Nat} {f : Feed} {net net' : Network}
    {r : Option Bool} (h : f.pause token deadline net = (r, net')) :
    ∃ time, net' = net.waitUntil time := by
  rw [pause] at h
  split at h
  · cases h
    exact ⟨net.now, by simp [Network.waitUntil]⟩
  · split at h
    · cases h
      exact ⟨_, rfl⟩
    · cases h
      exact ⟨_, rfl⟩

/-- A pause behind which the feed may go on has taken time, and its token has not fired by then. -/
theorem pause_goesOn {token : Token} {deadline : Nat} {f : Feed} {net net' : Network}
    (h : f.pause token deadline net = (some true, net')) :
    net.now < net'.now ∧ net'.now ≤ token.limit deadline ∧ ¬ token.isFired net'.now := by
  rw [pause] at h
  split at h
  · cases h
  · rename_i hunfired
    split at h
    · rename_i hle
      obtain ⟨-, rfl⟩ := Prod.mk.inj h
      have hpause : 0 < f.pauseTime := Nat.lt_of_lt_of_le Nat.zero_lt_one (Nat.le_max_left _ _)
      have hlater : net.now < (net.waitUntil (net.now + f.pauseTime)).now := by
        simp only [Network.waitUntil]
        omega
      have hsooner : (net.waitUntil (net.now + f.pauseTime)).now ≤ token.limit deadline := by
        simp only [Network.waitUntil]
        omega
      exact ⟨hlater, hsooner,
        Token.not_isFired_of_le hunfired (Nat.le_trans hsooner (Nat.le_max_right _ _))⟩
    · split at h <;> cases h

/-- Whether a round of a wait gets as far as to poll, and what comes of that. -/
structure Polled (token : Token) (deadline : Nat) (f : Feed) (net : Network) (f₁ : Feed)
    (net₁ : Network) (r : Outcome Envelope.Server) (c : Channel) (net₂ : Network) : Prop where
  unfired : ¬ token.isFired net.now
  connect_eq : f.connect deadline net = (some (.ok ()), f₁, net₁)
  stillUnfired : ¬ token.isFired net₁.now
  poll_eq : f₁.channel.poll (token.limit deadline) net₁ = (r, c, net₂)

/-- What one round of a wait can do. It ends the wait with an outcome, or the wait goes on. -/
inductive Round (token : Token) (deadline : Nat) (f : Feed) (net : Network) :
    Option (Outcome Found) → Feed → Network → Prop
  /-- The token had fired. -/
  | fired (h : token.isFired net.now) :
      Round token deadline f net (some (some (.ok .stopped))) f.stopped net
  /-- The deadline came while it was connecting. -/
  | connecting {f₁ : Feed} {net₁ : Network} (h : ¬ token.isFired net.now)
      (hc : f.connect deadline net = (none, f₁, net₁)) :
      Round token deadline f net (some none) f₁ net₁
  | unconnected {f₁ : Feed} {net₁ : Network} (failure : Failure) (h : ¬ token.isFired net.now)
      (hc : f.connect deadline net = (some (.error failure), f₁, net₁)) :
      Round token deadline f net (some (some (.error failure))) f₁ net₁
  /-- The token fired while it was connecting. -/
  | firedMeanwhile {f₁ : Feed} {net₁ : Network} (h : ¬ token.isFired net.now)
      (hc : f.connect deadline net = (some (.ok ()), f₁, net₁)) (h' : token.isFired net₁.now) :
      Round token deadline f net (some (some (.ok .stopped))) f₁.reading.stopped net₁
  /-- The token fired within the poll. -/
  | stopped {f₁ : Feed} {net₁ net₂ : Network} {c : Channel}
      (h : Polled token deadline f net f₁ net₁ none c net₂) (he : token.ends deadline) :
      Round token deadline f net (some (some (.ok .stopped))) (f₁.behind c).stopped net₂
  /-- The deadline came within the poll. -/
  | polling {f₁ : Feed} {net₁ net₂ : Network} {c : Channel}
      (h : Polled token deadline f net f₁ net₁ none c net₂) (he : ¬ token.ends deadline) :
      Round token deadline f net (some none) (f₁.behind c) net₂
  | failed {f₁ : Feed} {net₁ net₂ : Network} {c : Channel} (failure : Failure)
      (h : Polled token deadline f net f₁ net₁ (some (.error failure)) c net₂) :
      Round token deadline f net (some (some (.error failure))) (f₁.behind c) net₂
  /-- An envelope brought an event, or one that is malformed. -/
  | brought {f₁ : Feed} {net₁ net₂ : Network} {c : Channel} (e : Envelope.Server)
      (h : Polled token deadline f net f₁ net₁ (some (.ok e)) c net₂)
      (hb : Found.ofEnvelope e ≠ .ok .nothing) :
      Round token deadline f net (some (some (Found.ofEnvelope e))) (f₁.behind c).atRest net₂
  /-- The deadline came within the pause behind an envelope that brought nothing. -/
  | pausing {f₁ : Feed} {net₁ net₂ net₃ : Network} {c : Channel} (e : Envelope.Server)
      (h : Polled token deadline f net f₁ net₁ (some (.ok e)) c net₂)
      (hb : Found.ofEnvelope e = .ok .nothing)
      (hp : (f₁.behind c).atRest.pause token deadline net₂ = (none, net₃)) :
      Round token deadline f net (some none) (f₁.behind c).atRest net₃
  /-- The token fired within the pause. -/
  | stoppedPausing {f₁ : Feed} {net₁ net₂ net₃ : Network} {c : Channel} (e : Envelope.Server)
      (h : Polled token deadline f net f₁ net₁ (some (.ok e)) c net₂)
      (hb : Found.ofEnvelope e = .ok .nothing)
      (hp : (f₁.behind c).atRest.pause token deadline net₂ = (some false, net₃)) :
      Round token deadline f net (some (some (.ok .stopped))) (f₁.behind c).atRest.stopped net₃
  | goesOn {f₁ : Feed} {net₁ net₂ net₃ : Network} {c : Channel} (e : Envelope.Server)
      (h : Polled token deadline f net f₁ net₁ (some (.ok e)) c net₂)
      (hb : Found.ofEnvelope e = .ok .nothing)
      (hp : (f₁.behind c).atRest.pause token deadline net₂ = (some true, net₃)) :
      Round token deadline f net none (f₁.behind c).atRest net₃

/-- Some rounds of a wait that go on, one after another. -/
inductive Rounds (token : Token) (deadline : Nat) : Feed → Network → Feed → Network → Prop
  | nil (f : Feed) (net : Network) : Rounds token deadline f net f net
  | cons {f f₁ f' : Feed} {net net₁ net' : Network}
      (round : Round token deadline f net none f₁ net₁)
      (rest : Rounds token deadline f₁ net₁ f' net') : Rounds token deadline f net f' net'

/-- What a wait can do: some rounds that go on, and one that does not. -/
def Waits (token : Token) (deadline : Nat) (f : Feed) (net : Network) (r : Outcome Found)
    (f' : Feed) (net' : Network) : Prop :=
  ∃ g net₁, Rounds token deadline f net g net₁ ∧ Round token deadline g net₁ (some r) f' net'

/-- A round that goes on has taken time, and its token has not fired by then. -/
theorem round_goesOn {token : Token} {deadline : Nat} {f f' : Feed} {net net' : Network}
    (h : Round token deadline f net none f' net') :
    net.now < net'.now ∧ net'.now ≤ token.limit deadline ∧ ¬ token.isFired net'.now := by
  cases h with
  | @goesOn f₁ net₁ net₂ _ c e hp hb hpause =>
    obtain ⟨s, hs⟩ := connect_open hp.connect_eq
    have hconnect := now_le_connect hp.connect_eq
    have hpoll := Channel.now_le_poll hs (token.limit deadline) net₁
    rw [hp.poll_eq] at hpoll
    dsimp only at hpoll
    obtain ⟨hlater, hsooner, hunfired⟩ := pause_goesOn hpause
    exact ⟨by omega, hsooner, hunfired⟩

theorem rounds_now_le {token : Token} {deadline : Nat} {f f' : Feed} {net net' : Network}
    (h : Rounds token deadline f net f' net') : net'.now ≤ max net.now (token.limit deadline) := by
  induction h with
  | nil => exact Nat.le_max_left _ _
  | cons round _ ih =>
    obtain ⟨-, hsooner, -⟩ := round_goesOn round
    omega

/-- A token that has fired at the beginning of a round had fired before the first one. -/
theorem rounds_of_fired {token : Token} {deadline : Nat} {f f' : Feed} {net net' : Network}
    (h : Rounds token deadline f net f' net') (hfired : token.isFired net'.now) :
    f' = f ∧ net' = net := by
  induction h with
  | nil => exact ⟨rfl, rfl⟩
  | cons round _ ih =>
    obtain ⟨rfl, rfl⟩ := ih hfired
    exact absurd hfired (round_goesOn round).2.2

/-- A wait begins with a round, which it ends with or goes on behind. -/
theorem nextWithin_round (token : Token) (deadline fuel : Nat) (f : Feed) (net : Network) :
    (∃ r f' net', Round token deadline f net (some r) f' net' ∧
      nextWithin token deadline (fuel + 1) f net = (r, f', net')) ∨
    ∃ f' net', Round token deadline f net none f' net' ∧
      nextWithin token deadline (fuel + 1) f net = nextWithin token deadline fuel f' net' := by
  rw [nextWithin]
  by_cases hfired : token.isFired net.now
  · rw [if_pos hfired]
    exact Or.inl ⟨_, _, _, .fired hfired, rfl⟩
  rw [if_neg hfired]
  rcases hc : f.connect deadline net with ⟨_ | ⟨failure | _⟩, f₁, net₁⟩
  · exact Or.inl ⟨_, _, _, .connecting hfired hc, rfl⟩
  · exact Or.inl ⟨_, _, _, .unconnected failure hfired hc, rfl⟩
  dsimp only
  by_cases hfired' : token.isFired net₁.now
  · rw [if_pos hfired']
    exact Or.inl ⟨_, _, _, .firedMeanwhile hfired hc hfired', rfl⟩
  rw [if_neg hfired']
  have hpolled {r : Outcome Envelope.Server} {c : Channel} {net₂ : Network}
      (hp : f₁.channel.poll (token.limit deadline) net₁ = (r, c, net₂)) :
      Polled token deadline f net f₁ net₁ r c net₂ := ⟨hfired, hc, hfired', hp⟩
  rcases hp : f₁.reading.channel.poll (token.limit deadline) net₁ with
    ⟨_ | ⟨failure | e⟩, c, net₂⟩
  · dsimp only
    by_cases he : token.ends deadline
    · rw [if_pos he]
      exact Or.inl ⟨_, _, _, .stopped (hpolled hp) he, rfl⟩
    · rw [if_neg he]
      exact Or.inl ⟨_, _, _, .polling (hpolled hp) he, rfl⟩
  · exact Or.inl ⟨_, _, _, .failed failure (hpolled hp), rfl⟩
  dsimp only
  by_cases hb : Found.ofEnvelope e = .ok .nothing
  · have hbehind : ({ f₁.reading with channel := c } : Feed) = f₁.behind c := rfl
    simp only [hb, hbehind]
    rcases hpause : (f₁.behind c).atRest.pause token deadline net₂ with ⟨_ | _ | _, net₃⟩
    · exact Or.inl ⟨_, _, _, .pausing e (hpolled hp) hb hpause, rfl⟩
    · exact Or.inl ⟨_, _, _, .stoppedPausing e (hpolled hp) hb hpause, rfl⟩
    · exact Or.inr ⟨_, _, .goesOn e (hpolled hp) hb hpause, rfl⟩
  · have hround := Round.brought e (hpolled hp) hb
    generalize Found.ofEnvelope e = found at hb hround ⊢
    rcases found with failure | _ | _ | _
    · exact Or.inl ⟨_, _, _, hround, rfl⟩
    · exact Or.inl ⟨_, _, _, hround, rfl⟩
    · exact absurd rfl hb
    · exact Or.inl ⟨_, _, _, hround, rfl⟩

/-- A wait that has a round for each millisecond that is left ends in one that does not go on. -/
theorem waits_of_nextWithin {token : Token} {deadline fuel : Nat} {f f' : Feed}
    {net net' : Network} {r : Outcome Found} (hfuel : deadline - net.now < fuel)
    (h : nextWithin token deadline fuel f net = (r, f', net')) :
    Waits token deadline f net r f' net' := by
  induction fuel generalizing f net with
  | zero => exact absurd hfuel (Nat.not_lt_zero _)
  | succ fuel ih =>
    rcases nextWithin_round token deadline fuel f net with
      ⟨r₁, f₁, net₁, hround, he⟩ | ⟨f₁, net₁, hround, he⟩
    · obtain ⟨rfl, rfl, rfl⟩ : r₁ = r ∧ f₁ = f' ∧ net₁ = net' := by
        simpa using he.symm.trans h
      exact ⟨f, net, .nil f net, hround⟩
    · obtain ⟨hlater, hsooner, -⟩ := round_goesOn hround
      have hintime := token.limit_le deadline
      obtain ⟨g, net₂, rounds, round⟩ := ih (by omega) (he.symm.trans h)
      exact ⟨g, net₂, .cons hround rounds, round⟩

theorem waits_of_next {token : Token} {deadline : Nat} {f f' : Feed} {net net' : Network}
    {r : Outcome Found} (h : f.next token deadline net = (r, f', net')) :
    Waits token deadline f net r f' net' :=
  waits_of_nextWithin (Nat.lt_succ_self _) h

/-- What a look for one envelope can do. -/
inductive Tries (token : Token) (deadline : Nat) (f : Feed) (net : Network) :
    Outcome Found → Feed → Network → Prop
  /-- The token had fired. -/
  | fired (h : token.isFired net.now) :
      Tries token deadline f net (some (.ok .stopped)) f.stopped net
  /-- The deadline came while it was connecting. -/
  | connecting {f₁ : Feed} {net₁ : Network} (h : ¬ token.isFired net.now)
      (hc : f.connect deadline net = (none, f₁, net₁)) : Tries token deadline f net none f₁ net₁
  | unconnected {f₁ : Feed} {net₁ : Network} (failure : Failure) (h : ¬ token.isFired net.now)
      (hc : f.connect deadline net = (some (.error failure), f₁, net₁)) :
      Tries token deadline f net (some (.error failure)) f₁ net₁
  /-- The deadline came while it was receiving. -/
  | receiving {f₁ : Feed} {net₁ net₂ : Network} {c : Channel} (h : ¬ token.isFired net.now)
      (hc : f.connect deadline net = (some (.ok ()), f₁, net₁))
      (hr : f₁.channel.receiveUnless token deadline net₁ = (none, c, net₂)) :
      Tries token deadline f net none (f₁.behind c) net₂
  | failed {f₁ : Feed} {net₁ net₂ : Network} {c : Channel} (failure : Failure)
      (h : ¬ token.isFired net.now) (hc : f.connect deadline net = (some (.ok ()), f₁, net₁))
      (hr : f₁.channel.receiveUnless token deadline net₁ = (some (.error failure), c, net₂)) :
      Tries token deadline f net (some (.error failure)) (f₁.behind c).atRest net₂
  /-- The token fired while it was receiving. -/
  | stopped {f₁ : Feed} {net₁ net₂ : Network} {c : Channel} (h : ¬ token.isFired net.now)
      (hc : f.connect deadline net = (some (.ok ()), f₁, net₁))
      (hr : f₁.channel.receiveUnless token deadline net₁ = (some (.ok .stopped), c, net₂)) :
      Tries token deadline f net (some (.ok .stopped)) (f₁.behind c).stopped net₂
  | brought {f₁ : Feed} {net₁ net₂ : Network} {c : Channel} (e : Envelope.Server)
      (h : ¬ token.isFired net.now) (hc : f.connect deadline net = (some (.ok ()), f₁, net₁))
      (hr : f₁.channel.receiveUnless token deadline net₁ = (some (.ok (.envelope e)), c, net₂)) :
      Tries token deadline f net (some (Found.ofEnvelope e)) (f₁.behind c).atRest net₂

theorem tryNext_tries (token : Token) (deadline : Nat) (f : Feed) (net : Network) :
    Tries token deadline f net (f.tryNext token deadline net).1
      (f.tryNext token deadline net).2.1 (f.tryNext token deadline net).2.2 := by
  rw [tryNext]
  by_cases hfired : token.isFired net.now
  · rw [if_pos hfired]
    exact .fired hfired
  rw [if_neg hfired]
  rcases hc : f.connect deadline net with ⟨_ | ⟨failure | _⟩, f₁, net₁⟩
  · exact .connecting hfired hc
  · exact .unconnected failure hfired hc
  dsimp only
  rcases hr : f₁.reading.channel.receiveUnless token deadline net₁ with
    ⟨_ | ⟨failure | e | _⟩, c, net₂⟩
  · exact .receiving hfired hc hr
  · exact .failed failure hfired hc hr
  · exact .brought e hfired hc hr
  · exact .stopped hfired hc hr

end Gallows.Feed
