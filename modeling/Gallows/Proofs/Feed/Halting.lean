import Gallows.Proofs.Channel.Clock
import Gallows.Proofs.Feed.Delivery
import Gallows.Proofs.Feed.Rounds

/-!
Whether a look at a feed comes to an end. When its token fires it does, though it may be connecting
then and give up only behind that: all else that it waits for heeds the token.
-/
namespace Gallows.Feed

variable {f f' f₁ : Feed} {net net' net₁ : Network} {token : Token} {time deadline : Nat}
  {c : Channel}

/-! No use of a feed changes its time limit for connecting. -/

theorem connect_limit {r : Outcome Unit} (h : f.connect deadline net = (r, f', net')) :
    f'.channel.connectTimeout = f.channel.connectTimeout := by
  have hopened {r : Outcome Socket} {c : Channel} {net₁ : Network}
      (he : f.channel.ensure deadline net = (r, c, net₁)) :
      c.connectTimeout = f.channel.connectTimeout := by
    cases Channel.opens_of_ensure he <;> rfl
  have hsent {s : Socket} {c c' : Channel} {net₁ net₂ : Network} {r : Outcome Unit}
      (he : f.channel.ensure deadline net = (some (.ok s), c, net₁))
      (hsend : c.send (subscription f.username) deadline net₁ = (r, c', net₂)) :
      c'.connectTimeout = f.channel.connectTimeout := by
    rw [← hopened he]
    cases Channel.posts_of_send (Channel.opens_of_ensure he).socket_eq hsend <;> rfl
  cases connects_of_eq h with
  | opening he | unopened _ he | silent he => exact hopened he
  | greeted he _ hsend | ungreeted he _ hsend => exact hsent he hsend

theorem polled_limit {r : Outcome Envelope.Server}
    (hp : Polled token deadline f net f₁ net₁ r c net') :
    c.connectTimeout = f.channel.connectTimeout := by
  obtain ⟨s, hs⟩ := connect_open hp.connect_eq
  have hlistens := Channel.poll_listens hs (token.limit deadline) net₁
  rw [hp.poll_eq] at hlistens
  rw [← connect_limit hp.connect_eq]
  cases hlistens <;> rfl

theorem round_limit {r : Option (Outcome Found)} (h : Round token deadline f net r f' net') :
    f'.channel.connectTimeout = f.channel.connectTimeout := by
  cases h with
  | fired => rfl
  | connecting _ hc | unconnected _ _ hc => exact connect_limit hc
  | firedMeanwhile _ hc =>
    have hlimit := connect_limit hc
    exact hlimit
  | stopped hp | polling hp | failed _ hp | brought _ hp | pausing _ hp | stoppedPausing _ hp
    | goesOn _ hp => exact polled_limit hp

theorem rounds_limit (h : Rounds token deadline f net f' net') :
    f'.channel.connectTimeout = f.channel.connectTimeout := by
  induction h with
  | nil => rfl
  | cons round _ ih => exact ih.trans (round_limit round)

theorem waits_limit {r : Outcome Found} (h : Waits token deadline f net r f' net') :
    f'.channel.connectTimeout = f.channel.connectTimeout := by
  obtain ⟨g, net₁, rounds, round⟩ := h
  exact (round_limit round).trans (rounds_limit rounds)

theorem tries_limit {r : Outcome Found} (h : Tries token deadline f net r f' net') :
    f'.channel.connectTimeout = f.channel.connectTimeout := by
  have hreceived {f₁ : Feed} {net₁ net₂ : Network} {r : Outcome Received} {c : Channel}
      (hc : f.connect deadline net = (some (.ok ()), f₁, net₁))
      (hr : f₁.channel.receiveUnless token deadline net₁ = (r, c, net₂)) :
      c.connectTimeout = f.channel.connectTimeout := by
    obtain ⟨s, hs⟩ := connect_open hc
    have hlistens := Channel.receiveUnless_listens hs token deadline net₁
    rw [hr] at hlistens
    rw [← connect_limit hc]
    cases hlistens <;> rfl
  cases h with
  | fired => rfl
  | connecting _ hc | unconnected _ _ hc => exact connect_limit hc
  | receiving _ hc hr | failed _ _ hc hr | stopped _ hc hr | brought _ _ hc hr =>
    exact hreceived hc hr

theorem performAll_limit (turns : List Turn) (f : Feed) (net : Network) :
    (performAll turns f net).1.channel.connectTimeout = f.channel.connectTimeout := by
  induction turns generalizing f net with
  | nil => rfl
  | cons turn turns ih =>
    refine (ih _ _).trans ?_
    cases turn.use with
    | connect => exact connect_limit rfl
    | next token => exact waits_limit (waits_of_next rfl)
    | tryNext token => exact tries_limit (tryNext_tries token turn.deadline f _)
    | close => rfl

/-! A token that fires in time, which is early enough to give up connecting behind it. -/

/-- A feed gives up connecting at its time limit for that. -/
theorem connect_ends {r : Outcome Unit} (hd : net.now + f.channel.connectTimeout ≤ deadline)
    (h : f.connect deadline net = (r, f', net')) :
    r ≠ none ∧ net'.now ≤ net.now + f.channel.connectTimeout := by
  -- What is sent behind opening takes no time.
  have hsent {s : Socket} {c c' : Channel} {net₁ net₂ : Network} {r : Outcome Unit}
      (he : f.channel.ensure deadline net = (some (.ok s), c, net₁))
      (hsend : c.send (subscription f.username) deadline net₁ = (r, c', net₂)) :
      r ≠ none ∧ net₂.now ≤ net.now + f.channel.connectTimeout := by
    have hs := (Channel.opens_of_ensure he).socket_eq
    have hnow := Channel.now_send hs (subscription f.username) deadline net₁
    rw [hsend] at hnow
    dsimp only at hnow
    rw [hnow]
    refine ⟨?_, (Channel.ensure_ends hd he).2⟩
    cases Channel.posts_of_send hs hsend <;> simp
  cases connects_of_eq h with
  | opening he => exact absurd rfl (Channel.ensure_ends hd he).1
  | unopened _ he => exact ⟨by simp, (Channel.ensure_ends hd he).2⟩
  | silent he => exact ⟨by simp, (Channel.ensure_ends hd he).2⟩
  | greeted he _ hsend | ungreeted he _ hsend => exact hsent he hsend

/-- A pause is over when the token fires. -/
theorem pause_ends {r : Option Bool} (hd : time ≤ deadline)
    (h : f.pause (.firing time) deadline net = (r, net')) :
    r ≠ none ∧ net'.now ≤ max net.now time := by
  have hlimit : Token.limit deadline (.firing time) = time := Nat.min_eq_left hd
  have hends : Token.ends deadline (.firing time) = true := by simpa [Token.ends] using hd
  rw [pause, hlimit, hends] at h
  split at h
  · cases h
    exact ⟨by simp, Nat.le_max_left _ _⟩
  · split at h
    · cases h
      simp only [Network.waitUntil]
      exact ⟨by simp, by omega⟩
    · cases h
      exact ⟨by simp, Nat.le_refl _⟩

/-- A poll is over when the token fires. -/
theorem polled_now_le {r : Outcome Envelope.Server}
    (hp : Polled (.firing time) deadline f net f₁ net₁ r c net') : net'.now ≤ time := by
  obtain ⟨s, hs⟩ := connect_open hp.connect_eq
  have hstill : net₁.now ≤ time := by simpa [Token.isFired] using hp.stillUnfired
  have hsooner := Channel.now_poll_le hs (Token.limit deadline (.firing time)) net₁
  rw [hp.poll_eq] at hsooner
  dsimp only [Token.limit] at hsooner
  omega

/-- A round comes to an end when its token fires, or when it gives up connecting behind that. -/
theorem round_ends {r : Option (Outcome Found)} (hd : time + f.channel.connectTimeout ≤ deadline)
    (h : Round (.firing time) deadline f net r f' net') :
    r ≠ some none ∧ net'.now ≤ max net.now (time + f.channel.connectTimeout) := by
  have hunfired {now : Nat} (h : ¬ Token.isFired now (.firing time)) : now ≤ time := by
    simpa [Token.isFired] using h
  have hends : Token.ends deadline (.firing time) = true := by
    simp only [Token.ends, decide_eq_true_eq]
    omega
  have hpaused {r : Option Bool} {e : Envelope.Server} {f₁ : Feed} {c : Channel}
      {net₁ net₂ net₃ : Network}
      (hp : Polled (.firing time) deadline f net f₁ net₁ (some (.ok e)) c net₂)
      (hpause : (f₁.behind c).atRest.pause (.firing time) deadline net₂ = (r, net₃)) :
      r ≠ none ∧ net₃.now ≤ time := by
    have hsooner := polled_now_le hp
    obtain ⟨hr, hnow⟩ := pause_ends (by omega) hpause
    exact ⟨hr, by omega⟩
  cases h with
  | fired => exact ⟨by simp, Nat.le_max_left _ _⟩
  | connecting h hc => exact absurd rfl (connect_ends (by have := hunfired h; omega) hc).1
  | unconnected _ h hc | firedMeanwhile h hc =>
    have hle := hunfired h
    obtain ⟨-, hnow⟩ := connect_ends (by omega) hc
    exact ⟨by simp, by omega⟩
  | polling _ he => exact absurd hends he
  | stopped hp | failed _ hp | brought _ hp =>
    have hnow := polled_now_le hp
    exact ⟨by simp, by omega⟩
  | pausing _ hp _ hpause => exact absurd rfl (hpaused hp hpause).1
  | stoppedPausing _ hp _ hpause | goesOn _ hp _ hpause =>
    obtain ⟨-, hnow⟩ := hpaused hp hpause
    exact ⟨by simp, by omega⟩

/-- A wait comes to an end when its token fires, or when it gives up connecting behind that. -/
theorem next_ends (hd : time + f.channel.connectTimeout ≤ deadline) {r : Outcome Found}
    (h : f.next (.firing time) deadline net = (r, f', net')) :
    r ≠ none ∧ net'.now ≤ max net.now (time + f.channel.connectTimeout) := by
  obtain ⟨g, net₁, rounds, round⟩ := waits_of_next h
  have hlimit := rounds_limit rounds
  have hnow := rounds_now_le rounds
  obtain ⟨hr, hround⟩ := round_ends (by rwa [hlimit]) round
  rw [hlimit] at hround
  dsimp only [Token.limit] at hnow
  exact ⟨fun hn => hr (congrArg some hn), by omega⟩

/-- A look for one envelope comes to an end when its token fires, or when it gives up connecting
behind that. -/
theorem tryNext_ends (hd : time + f.channel.connectTimeout ≤ deadline) {r : Outcome Found}
    (h : f.tryNext (.firing time) deadline net = (r, f', net')) :
    r ≠ none ∧ net'.now ≤ max net.now (time + f.channel.connectTimeout) := by
  have hunfired {now : Nat} (h : ¬ Token.isFired now (.firing time)) : now ≤ time := by
    simpa [Token.isFired] using h
  have hends : Token.ends deadline (.firing time) := by
    simp only [Token.ends, decide_eq_true_eq]
    omega
  have hreceived {r : Outcome Received} {f₁ : Feed} {net₁ net₂ : Network} {c : Channel}
      (hf : ¬ Token.isFired net.now (.firing time))
      (hc : f.connect deadline net = (some (.ok ()), f₁, net₁))
      (hr : f₁.channel.receiveUnless (.firing time) deadline net₁ = (r, c, net₂)) :
      r ≠ none ∧ net₂.now ≤ max net.now (time + f.channel.connectTimeout) := by
    obtain ⟨s, hs⟩ := connect_open hc
    have hle := hunfired hf
    obtain ⟨-, hconnect⟩ := connect_ends (by omega) hc
    have hsome := Channel.receiveUnless_ends hs hends net₁
    have hnow := Channel.now_receiveUnless_le hs (.firing time) deadline net₁
    rw [hr] at hsome hnow
    dsimp only [Token.limit] at hsome hnow
    exact ⟨hsome, by omega⟩
  have htries := tryNext_tries (.firing time) deadline f net
  rw [h] at htries
  dsimp only at htries
  cases htries with
  | fired => exact ⟨by simp, Nat.le_max_left _ _⟩
  | connecting hf hc => exact absurd rfl (connect_ends (by have := hunfired hf; omega) hc).1
  | unconnected _ hf hc =>
    have hle := hunfired hf
    obtain ⟨-, hnow⟩ := connect_ends (by omega) hc
    exact ⟨by simp, by omega⟩
  | receiving hf hc hr => exact absurd rfl (hreceived hf hc hr).1
  | failed _ hf hc hr | stopped hf hc hr | brought _ hf hc hr =>
    exact ⟨by simp, (hreceived hf hc hr).2⟩

/-- A look comes to an end when its token fires, or when it gives up connecting behind that. -/
theorem look_ends {l : Look} (ht : l.token = .firing time)
    (hd : time + f.channel.connectTimeout ≤ l.deadline) {r : Outcome Found}
    (h : f.look l net = (r, f', net')) :
    r ≠ none ∧ net'.now ≤ max net.now (time + f.channel.connectTimeout) := by
  rw [look, ht] at h
  split at h
  · exact tryNext_ends hd h
  · exact next_ends hd h

end Gallows.Feed
