import Gallows.Proofs.Feed.Stopping

/-!
What a feed shows of itself between looks. Behind a look that was stopped it shows that, and behind
one that has found something it is at rest. Behind a look that failed it is at rest as well, with
two exceptions: a look that cannot connect to begin with leaves what was shown before, and a wait
for an event that comes upon a frame which cannot be read still shows that it reads.
-/
namespace Gallows.Feed

open Channel (Stands Manner)

/-- What is wrong with a frame that a wait does not pass over. -/
inductive Unreadable : Failure → Prop
  | tooLarge (size limit : Nat) : Unreadable (.protocol (.frame (.tooLarge size limit)))
  | malformed (cause : Wire.Error) : Unreadable (.protocol (.envelope cause))

/-- What a look has come to and what the feed shows behind it. -/
inductive Leaves (l : Look) (f : Feed) (net : Network) :
    Except Failure Found → Feed → Network → Prop
  | stopped {f' : Feed} {net' : Network} (hs : f'.state = .stopped) :
      Leaves l f net (.ok .stopped) f' net'
  | found {f' : Feed} {net' : Network} (found : Found) (hne : found ≠ .stopped)
      (hs : f'.state = .idle) : Leaves l f net (.ok found) f' net'
  /-- The document of an envelope is no event. -/
  | undecoded {f' : Feed} {net' : Network} {failure : Failure} (e : Envelope.Server)
      (he : Found.ofEnvelope e = .error failure) (hs : f'.state = .idle) :
      Leaves l f net (.error failure) f' net'
  /-- A look for one envelope has not received it. -/
  | unreceived {f₁ f' : Feed} {net₁ net' : Network} {c : Channel} {failure : Failure}
      (hl : l.once = true) (hc : f.connect l.deadline net = (some (.ok ()), f₁, net₁))
      (hr : f₁.channel.receiveUnless l.token l.deadline net₁ = (some (.error failure), c, net'))
      (hs : f'.state = .idle) : Leaves l f net (.error failure) f' net'
  /-- No connection came about to begin with. -/
  | unconnected {f' : Feed} {net' : Network} {failure : Failure}
      (hc : f.connect l.deadline net = (some (.error failure), f', net'))
      (hs : f'.state = f.state) : Leaves l f net (.error failure) f' net'
  /-- No connection came about behind an envelope that brought nothing. -/
  | disconnected {f₁ f' : Feed} {net₁ net' : Network} {failure : Failure} (hl : l.once = false)
      (rounds : Rounds l.token l.deadline f net f₁ net₁) (hi : f₁.state = .idle)
      (hc : f₁.connect l.deadline net₁ = (some (.error failure), f', net'))
      (hs : f'.state = .idle) : Leaves l f net (.error failure) f' net'
  /-- A wait for an event has come upon a frame that cannot be read. -/
  | unread {f₁ f' : Feed} {net₁ net' : Network} {c : Channel} {failure : Failure}
      (hl : l.once = false) (comesBy : l.ComesBy f net f₁ net₁)
      (hp : f₁.channel.poll (l.token.limit l.deadline) net₁ = (some (.error failure), c, net'))
      (hf : Unreadable failure) (hs : f'.state = f₁.reading.state) :
      Leaves l f net (.error failure) f' net'

variable {f f' f₁ g : Feed} {net net' net₁ : Network} {deadline : Nat} {l : Look}
  {result : Except Failure Found} {failure : Failure} {c : Channel}

theorem connect_state {r : Outcome Unit} (h : f.connect deadline net = (r, f', net')) :
    f'.state = f.state := by
  cases connects_of_eq h <;> rfl

/-- A poll of an open socket fails only with what it does not pass over. -/
theorem unreadable_of_poll {s : Socket} (h : Stands f.channel net) (hs : f.channel.socket = some s)
    (hp : f.channel.poll deadline net = (some (.error failure), c, net')) : Unreadable failure := by
  have hreceives := Channel.poll_receives deadline net (h.held s hs) (by simp [hs])
  rw [hp] at hreceives
  dsimp only at hreceives
  generalize hr : (some (.error failure) : Outcome Envelope.Server) = r at hreceives
  cases hreceives with
  | unopened hn => simp [hs] at hn
  | frame ensured body =>
    obtain ⟨cause, rfl⟩ := Channel.envelope_of_outcome (Option.some.inj hr).symm
    exact .malformed cause
  | kept ensured new reads hspare =>
    subst hr
    rcases hspare with hn | hn <;> simp [Manner.polling] at hn
  | dropped ensured new reads hf =>
    rw [Manner.loss_polling] at hr
    split at hr
    · cases hr
    · rename_i hloss
      cases hr
      cases hf with
      | transport | closed => exact absurd rfl hloss
      | tooLarge => exact .tooLarge _ _

/-- What a feed is to show behind a look that has come to this. -/
def State.behind : Except Failure Found → State
  | .ok .stopped => .stopped
  | _ => .idle

/-- An envelope that ends a look leaves the feed at rest, whatever it brings. -/
theorem leaves_atRest (e : Envelope.Server) :
    Leaves l f net (Found.ofEnvelope e) f₁.atRest net' := by
  cases he : Found.ofEnvelope e with
  | error failure => exact .undecoded e he rfl
  | ok found =>
    refine .found found ?_ rfl
    rintro rfl
    exact ofEnvelope_ne_stopped e he

/-- A round that goes on has read an envelope, so that the next begins at rest. -/
theorem rounds_idle {token : Token} (h : Rounds token deadline f net f' net') :
    f' = f ∧ net' = net ∨ f'.state = .idle := by
  induction h with
  | nil => exact .inl ⟨rfl, rfl⟩
  | cons round _ ih =>
    right
    rcases ih with ⟨rfl, -⟩ | hi
    · cases round with
      | goesOn => rfl
    · exact hi

theorem round_leaves (hl : l.once = false) (hf : Stands f.channel net)
    (rounds : Rounds l.token l.deadline f net g net₁)
    (hround : Round l.token l.deadline g net₁ (some (some result)) f' net') :
    Leaves l f net result f' net' := by
  have begins : l.Begins f net g net₁ := .again hl rounds
  cases hround with
  | fired | firedMeanwhile | stopped | stoppedPausing => exact .stopped rfl
  | unconnected failure _ hc =>
    rcases rounds_idle rounds with ⟨rfl, rfl⟩ | hi
    · exact .unconnected hc (connect_state hc)
    · exact .disconnected hl rounds hi hc ((connect_state hc).trans hi)
  | failed failure hp =>
    obtain ⟨s, hs⟩ := connect_open hp.connect_eq
    have h₁ := connect_stands (begins.stands hf) hp.connect_eq
    exact .unread hl (.connected begins hp.unfired hp.connect_eq) hp.poll_eq
      (unreadable_of_poll h₁ hs hp.poll_eq) rfl
  | brought e => exact leaves_atRest e

theorem tries_leaves (hl : l.once = true)
    (htries : Tries l.token l.deadline f net (some result) f' net') :
    Leaves l f net result f' net' := by
  cases htries with
  | fired | stopped => exact .stopped rfl
  | unconnected failure _ hc => exact .unconnected hc (connect_state hc)
  | failed failure _ hc hr => exact .unreceived hl hc hr rfl
  | brought e => exact leaves_atRest e

/-- Behind a look that began at rest a feed shows what the look has come to, unless a wait for an
event has come upon a frame that cannot be read. -/
theorem Leaves.truthful (h : Leaves l f net result f' net') (hi : f.state = .idle)
    (hf : l.once = true ∨ ∀ failure, result = .error failure → ¬ Unreadable failure) :
    f'.state = State.behind result := by
  cases h with
  | stopped hs => exact hs
  | found found hne hs =>
    rw [hs]
    cases found with
    | event | nothing => rfl
    | stopped => exact absurd rfl hne
  | undecoded _ _ hs | unreceived _ _ _ hs | disconnected _ _ _ _ hs => exact hs
  | unconnected _ hs => exact hs.trans hi
  | unread hl _ _ hu =>
    rcases hf with honce | hread
    · simp [hl] at honce
    · exact absurd hu (hread _ rfl)

/-- Whatever a feed was used for, a look that has come to something leaves the state that its way
out calls for. From a feed at rest this is the state of the result, but for the frame that a wait
cannot read. -/
theorem look_leaves (endpoint : Endpoint) (username : String) (subscribe : Bool)
    (connectTimeout readTimeout pollInterval : Nat) (before : List Turn) (start : Network)
    (l : Look) :
    ∃ f net, performAll before
        (fresh endpoint username subscribe connectTimeout readTimeout pollInterval) start =
          (f, net) ∧
      ∀ result f' net', f.look l net = (some result, f', net') →
        Leaves l f net result f' net' ∧
        (f.state = .idle →
          (l.once = true ∨ ∀ failure, result = .error failure → ¬ Unreadable failure) →
          f'.state = State.behind result) := by
  have hstands := performAll_stands (stands_fresh endpoint username subscribe connectTimeout
    readTimeout pollInterval start) before
  generalize performAll before _ start = reached at hstands ⊢
  obtain ⟨f, net⟩ := reached
  refine ⟨f, net, rfl, ?_⟩
  intro result f' net' hl
  have hleaves : Leaves l f net result f' net' := by
    rw [look] at hl
    split at hl
    · rename_i honce
      have htries := tryNext_tries l.token l.deadline f net
      rw [hl] at htries
      exact tries_leaves honce htries
    · rename_i honce
      obtain ⟨g, net₁, rounds, round⟩ := waits_of_next hl
      exact round_leaves (Bool.eq_false_iff.mpr honce) hstands rounds round
  exact ⟨hleaves, hleaves.truthful⟩

/-- A network whose only server announces a frame that is too large. -/
def oversizedFrameNetwork : Network :=
  { servers := [{
      endpoint := ⟨"127.0.0.1", 9000⟩
      receptions := [.accept 0 [.send ⟨#[1, 0, 0, 1]⟩] []] }] }

/-- A feed that was stopped still shows that when the next look finds no server. And a wait for an
event that fails leaves a feed that reads, though it does not; a look for one envelope that fails
with the same leaves it at rest. -/
theorem look_shows_stale :
    let (stopped, net) := performAll [{ use := .next .fired, deadline := 50 }] unconnectedFeed
      slowRefusalNetwork
    let refused := stopped.look { once := false, token := .never, deadline := 50 } net
    let waited := unconnectedFeed.look { once := false, token := .never, deadline := 50 }
      oversizedFrameNetwork
    let tried := unconnectedFeed.look { once := true, token := .never, deadline := 50 }
      oversizedFrameNetwork
    (refused.1 = some (.error (.connect "127.0.0.1:9000" (.ofSystem .connectionRefused))) ∧
      refused.2.1.state = .stopped) ∧
    (waited.1 = some (.error (.protocol (.frame (.tooLarge 16777217 16777216)))) ∧
      waited.2.1.state = .awaitingHeader) ∧
    (tried.1 = some (.error (.protocol (.frame (.tooLarge 16777217 16777216)))) ∧
      tried.2.1.state = .idle) := by
  refine ⟨⟨?_, ?_⟩, ⟨?_, ?_⟩, ⟨?_, ?_⟩⟩
  all_goals cbv

end Gallows.Feed
