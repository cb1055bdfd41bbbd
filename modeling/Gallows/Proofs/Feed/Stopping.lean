import Gallows.Proofs.Channel.Resuming
import Gallows.Proofs.Feed.Attention
import Gallows.Proofs.Feed.Halting
import Gallows.Proofs.Feed.Patience

/-!
What a look at a feed does when its token fires. A look whose token has fired does nothing. One that
waits then is stopped, keeps its socket and loses no byte of a frame, and one that is not stopped
ends as it would without a token. But while it connects it does not heed the token, and when no
connection comes about it fails with that, though it was to stop.
-/
namespace Gallows

namespace Feed

open Channel (Stands Manner Receives Resumes)

variable {f f' f₁ g : Feed} {net net' net₁ : Network} {c : Channel} {token : Token}
  {deadline : Nat} {l : Look}

/-- How a feed is stopped: before it waits, within a wait for an envelope, or within a pause. -/
inductive Stops (token : Token) (deadline : Nat) (g : Feed) (net : Network) : Feed → Network → Prop
  | atOnce (h : token.isFired net.now) : Stops token deadline g net g.stopped net
  | polling {c : Channel} {net' : Network} (hs : g.channel.socket ≠ none)
      (h : g.channel.poll (token.limit deadline) net = (none, c, net')) (he : token.ends deadline) :
      Stops token deadline g net (g.behind c).stopped net'
  | receiving {c : Channel} {net' : Network} (hs : g.channel.socket ≠ none)
      (h : g.channel.receiveUnless token deadline net = (some (.ok .stopped), c, net')) :
      Stops token deadline g net (g.behind c).stopped net'
  | pausing {net' : Network} (h : g.pause token deadline net = (some false, net')) :
      Stops token deadline g net g.stopped net'

/-- What stays of a feed on the way from one network to the other: its socket, the bytes that it
holds of a frame, which become more by what is read and no fewer, and whatever it would receive. No
frame is completed. -/
structure Stays (g : Feed) (net : Network) (f' : Feed) (net' : Network) : Prop where
  resumes : Resumes g.channel net f'.channel net'
  count : net'.connections.length = net.connections.length
  held : ∀ s, g.channel.socket = some s → ∃ new, net'.received s = net.received s ++ new ∧
    f'.channel.assembler.Holds ((Frame.split (net.received s)).2 ++ new)
  heard : ∀ first, first ≤ net.connections.length → heardFrom first net' = heardFrom first net

theorem channel_stopped (f : Feed) : f.stopped.channel = f.channel := rfl

theorem stays_wait (hc : f'.channel = g.channel) (h : Stands g.channel net) (time : Nat) :
    Stays g net f' (net.waitUntil time) where
  resumes := hc ▸ Channel.resumes_wait h time
  count := rfl
  held := by
    intro s hs
    refine ⟨[], (List.append_nil _).symm, ?_⟩
    rw [hc, List.append_nil]
    exact h.held s hs
  heard := fun _ hfirst => heardFrom_same rfl (Nat.le_refl _) hfirst

/-- A wait for an envelope that ends without one takes no more than a part of it. -/
theorem stays_of_spare {α : Type} {m : Manner α} {r : Outcome α} (h : Stands g.channel net)
    (hs : g.channel.socket ≠ none) (hc : f'.channel = c) (hresumes : Resumes g.channel net c net')
    (hr : ∀ held, g.channel.assembler.Holds held → (g.channel.socket = none → held = []) →
      Receives m held g.channel net r c net')
    (hframe : ∀ body, r ≠ some (m.outcome body)) (hloss : ∀ failure, r ≠ m.loss failure) :
    Stays g net f' net' := by
  obtain ⟨s, hs⟩ := Option.ne_none_iff_exists'.mp hs
  have hreceives := hr _ (h.held s hs) (by simp [hs])
  cases hreceives with
  | unopened hn => simp [hs] at hn
  | frame _ body => exact absurd rfl (hframe body)
  | @dropped _ _ _ _ _ _ failure => exact absurd rfl (hloss failure)
  | kept ensured new reads _ ha =>
    obtain ⟨rfl, rfl, rfl⟩ := ensured.of_open hs
    refine ⟨hc ▸ hresumes, reads.length, ?_, ?_⟩
    · intro t ht
      obtain rfl := Option.some.inj (hs.symm.trans ht)
      refine ⟨new, ?_, ?_⟩
      · rw [reads.received, Function.update_self]
      · rw [hc]
        exact ha
    · intro first hfirst
      by_cases hlt : first < net.connections.length
      · have hnew := h.newest s hs
        have hle : first ≤ s := Nat.le_of_lt_succ (by rwa [← hnew] at hlt)
        rw [heardFrom_reads hnew hle reads, newsIn_pending ha.pending, List.append_nil]
      · have hnone : net.connections.length - first = 0 := by omega
        rw [heardFrom, heardFrom, reads.length, hnone]
        rfl

/-- Stopping closes no socket and loses no byte of a frame. -/
theorem Stops.stays (h : Stops token deadline g net f' net') (hg : Stands g.channel net) :
    Stays g net f' net' := by
  cases h with
  | atOnce =>
    have hnow : net.waitUntil net.now = net := by simp [Network.waitUntil]
    have hstays := stays_wait g.channel_stopped hg net.now
    rwa [hnow] at hstays
  | pausing hp =>
    obtain ⟨time, rfl⟩ := pause_waits hp
    exact stays_wait g.channel_stopped hg time
  | polling hs hp =>
    obtain ⟨s, hsocket⟩ := Option.ne_none_iff_exists'.mp hs
    have hresumes := Channel.resumes_of_read hg hsocket (Channel.read_of_poll_none hsocket hp)
    refine stays_of_spare (m := .polling) (r := none) hg hs rfl hresumes ?_ (by simp) ?_
    · intro held ha hidle
      have hreceives := Channel.poll_receives (token.limit deadline) net ha hidle
      rwa [hp] at hreceives
    · intro failure
      rw [Manner.loss_polling]
      split <;> simp
  | receiving hs hp =>
    obtain ⟨s, hsocket⟩ := Option.ne_none_iff_exists'.mp hs
    have hresumes := Channel.receiveUnless_resumes hg hsocket hp
    refine stays_of_spare (m := .stoppable) (r := some (.ok .stopped)) hg hs rfl hresumes ?_ ?_ ?_
    · intro held ha hidle
      have hreceives := Channel.receiveUnless_receives token deadline net ha hidle
      rwa [hp] at hreceives
    · intro body he
      simp only [Manner.outcome, Manner.stoppable] at he
      cases hd : (Frame.decodeBody (α := Envelope.Server) body).mapError Failure.protocol with
      | error e => simp [hd, Except.map] at he
      | ok e => simp [hd, Except.map] at he
    · intro failure
      simp [Manner.loss, Manner.stoppable]

/-- A feed is not stopped before its token fires. -/
theorem Stops.ends (h : Stops token deadline g net f' net') (hg : Stands g.channel net) :
    token.ends net'.now := by
  cases h with
  | atOnce hfired => exact Token.ends_of_isFired hfired
  | pausing hp =>
    rw [pause] at hp
    split at hp
    · rename_i hfired
      cases hp
      exact Token.ends_of_isFired hfired
    · split at hp
      · cases hp
      · split at hp
        · rename_i he
          cases hp
          exact Token.ends_of_limit_le he (Nat.le_max_right _ _)
        · cases hp
  | polling hs hp he =>
    obtain ⟨s, hs⟩ := Option.ne_none_iff_exists'.mp hs
    exact Token.ends_of_limit_le he
      (Channel.read_waits hg hs (Channel.read_of_poll_none hs hp))
  | receiving hs hp =>
    obtain ⟨s, hs⟩ := Option.ne_none_iff_exists'.mp hs
    exact Channel.receiveUnless_stopped hg hs hp

/-! A look comes by the beginnings of its rounds, and by what lies behind connecting and polling. -/

/-- The feeds and networks with which a look begins a round. A look for one envelope has one
round. -/
inductive Look.Begins (l : Look) (f : Feed) (net : Network) : Feed → Network → Prop
  | first : Begins l f net f net
  | again {g : Feed} {net₁ : Network} (ho : l.once = false)
      (rounds : Rounds l.token l.deadline f net g net₁) : Begins l f net g net₁

theorem Look.Begins.stands (h : l.Begins f net g net₁) (hf : Stands f.channel net) :
    Stands g.channel net₁ := by
  cases h with
  | first => exact hf
  | again _ rounds => exact rounds_stands hf rounds

/-- The feeds and networks with which a look can be stopped. -/
inductive Look.ComesBy (l : Look) (f : Feed) (net : Network) : Feed → Network → Prop
  | round {g : Feed} {net₁ : Network} (begins : l.Begins f net g net₁) : ComesBy l f net g net₁
  | connected {g g₁ : Feed} {net₁ net₂ : Network} (begins : l.Begins f net g net₁)
      (h : ¬ l.token.isFired net₁.now)
      (hc : g.connect l.deadline net₁ = (some (.ok ()), g₁, net₂)) : ComesBy l f net g₁ net₂
  /-- An envelope has brought nothing. -/
  | polled {g g₁ : Feed} {net₁ net₂ net₃ : Network} {c : Channel} {e : Envelope.Server}
      (ho : l.once = false) (begins : l.Begins f net g net₁)
      (h : Polled l.token l.deadline g net₁ g₁ net₂ (some (.ok e)) c net₃)
      (hb : Found.ofEnvelope e = .ok .nothing) : ComesBy l f net (g₁.behind c).atRest net₃

theorem Look.ComesBy.stands (h : l.ComesBy f net g net₁) (hf : Stands f.channel net) :
    Stands g.channel net₁ := by
  cases h with
  | round begins => exact begins.stands hf
  | connected begins _ hc => exact connect_stands (begins.stands hf) hc
  | polled _ begins hp => exact polled_stands (begins.stands hf) hp

/-- Whether a look was stopped as feeds are, from a feed and network that it came by. -/
def IsStopped (l : Look) (f : Feed) (net : Network) (f' : Feed) (net' : Network) : Prop :=
  ∃ g net₁, l.ComesBy f net g net₁ ∧ Stops l.token l.deadline g net₁ f' net' ∧
    Stays g net₁ f' net'

theorem isStopped_of_stops (hf : Stands f.channel net) (hcomes : l.ComesBy f net g net₁)
    (h : Stops l.token l.deadline g net₁ f' net') :
    l.token.ends net'.now ∧ IsStopped l f net f' net' := by
  have hg := hcomes.stands hf
  exact ⟨h.ends hg, g, net₁, hcomes, h, h.stays hg⟩

/-- A look that was connecting when its token fired has come to its end with that: it has failed as
connecting has, or is stopped behind it. -/
inductive Overruns (l : Look) (f : Feed) (net : Network) :
    Except Failure Found → Feed → Network → Prop
  | failed {g f' : Feed} {net₁ net' : Network} (begins : l.Begins f net g net₁) (failure : Failure)
      (h : ¬ l.token.isFired net₁.now)
      (hc : g.connect l.deadline net₁ = (some (.error failure), f', net')) :
      Overruns l f net (.error failure) f' net'
  | stopped {g g₁ : Feed} {net₁ net' : Network} (begins : l.Begins f net g net₁)
      (h : ¬ l.token.isFired net₁.now)
      (hc : g.connect l.deadline net₁ = (some (.ok ()), g₁, net')) :
      Overruns l f net (.ok .stopped) g₁.stopped net'

/-- A poll is over when its token fires. -/
theorem polled_unfired {r : Outcome Envelope.Server}
    (hp : Polled token deadline f net f₁ net₁ r c net') : ¬ token.isFired net'.now := by
  obtain ⟨s, hs⟩ := connect_open hp.connect_eq
  have hle := Channel.now_poll_le hs (token.limit deadline) net₁
  rw [hp.poll_eq] at hle
  exact Token.not_isFired_of_le hp.stillUnfired hle

/-- So is a pause. -/
theorem pause_unfired {r : Option Bool} (h : f.pause token deadline net = (r, net'))
    (hunfired : ¬ token.isFired net.now) : ¬ token.isFired net'.now := by
  rw [pause, if_neg hunfired] at h
  split at h
  · rename_i hle
    cases h
    have hends :
        (net.waitUntil (net.now + f.pauseTime)).now ≤ max net.now (token.limit deadline) := by
      simp only [Network.waitUntil]
      omega
    exact Token.not_isFired_of_le hunfired hends
  · cases h
    exact Token.not_isFired_of_le hunfired (Nat.le_refl _)

/-- A round that begins before its token fires and ends behind that was connecting then. -/
theorem round_overruns {result : Except Failure Found} (begins : l.Begins f net g net₁)
    (hround : Round l.token l.deadline g net₁ (some (some result)) f' net')
    (hunfired : ¬ l.token.isFired net₁.now) (hfired : l.token.isFired net'.now) :
    Overruns l f net result f' net' := by
  cases hround with
  | fired hf => exact absurd hf hunfired
  | unconnected failure h hc => exact .failed begins failure h hc
  | firedMeanwhile h hc =>
    have hstopped := Overruns.stopped begins h hc
    exact hstopped
  | stopped hp | failed _ hp | brought _ hp => exact absurd hfired (polled_unfired hp)
  | stoppedPausing _ hp _ hpause =>
    exact absurd hfired (pause_unfired hpause (polled_unfired hp))

theorem tries_overruns {result : Except Failure Found}
    (htries : Tries l.token l.deadline f net (some result) f' net')
    (hunfired : ¬ l.token.isFired net.now) (hfired : l.token.isFired net'.now) :
    Overruns l f net result f' net' := by
  -- Receiving is over when the token fires, unless it has fired while the look was connecting.
  have hreceived {r : Outcome Received} {f₁ : Feed} {net₁ net₂ : Network} {c : Channel}
      (hc : f.connect l.deadline net = (some (.ok ()), f₁, net₁))
      (hr : f₁.channel.receiveUnless l.token l.deadline net₁ = (r, c, net₂))
      (hfired : l.token.isFired net₂.now) :
      r = some (.ok .stopped) ∧ c = f₁.channel ∧ net₂ = net₁ := by
    by_cases hf : l.token.isFired net₁.now
    · rw [Channel.receiveUnless, if_pos hf] at hr
      cases hr
      exact ⟨rfl, rfl, rfl⟩
    · obtain ⟨s, hs⟩ := connect_open hc
      have hle := Channel.now_receiveUnless_le hs l.token l.deadline net₁
      rw [hr] at hle
      exact absurd hfired (Token.not_isFired_of_le hf hle)
  cases htries with
  | fired hf => exact absurd hf hunfired
  | unconnected failure h hc => exact .failed .first failure h hc
  | stopped h hc hr =>
    obtain ⟨-, rfl, rfl⟩ := hreceived hc hr hfired
    have hstopped := Overruns.stopped .first h hc
    exact hstopped
  | failed _ _ hc hr => cases (hreceived hc hr hfired).1
  | brought _ _ hc hr => cases (hreceived hc hr hfired).1

/-- A look that begins before its token fires and ends behind that was connecting then. -/
theorem look_overruns {result : Except Failure Found} (h : f.look l net = (some result, f', net'))
    (hunfired : ¬ l.token.isFired net.now) (hfired : l.token.isFired net'.now) :
    Overruns l f net result f' net' := by
  rw [look] at h
  split at h
  · have htries := tryNext_tries l.token l.deadline f net
    rw [h] at htries
    exact tries_overruns htries hunfired hfired
  · rename_i honce
    obtain ⟨g, net₁, rounds, round⟩ := waits_of_next h
    refine round_overruns (.again (by simpa using honce) rounds) round ?_ hfired
    intro hf
    obtain ⟨-, rfl⟩ := rounds_of_fired rounds hf
    exact hunfired hf

theorem round_isStopped (hf : Stands f.channel net) (ho : l.once = false)
    (begins : l.Begins f net g net₁)
    (hround : Round l.token l.deadline g net₁ (some (some (.ok .stopped))) f' net') :
    l.token.ends net'.now ∧ IsStopped l f net f' net' := by
  generalize hr : (some (some (.ok .stopped)) : Option (Outcome Found)) = r at hround
  cases hround with
  | fired hfired => exact isStopped_of_stops hf (.round begins) (.atOnce hfired)
  | firedMeanwhile h hc hfired =>
    exact isStopped_of_stops hf (.connected begins h hc) (.atOnce hfired)
  | stopped hp he =>
    obtain ⟨s, hs⟩ := connect_open hp.connect_eq
    exact isStopped_of_stops hf (.connected begins hp.unfired hp.connect_eq)
      (.polling (by simp [hs]) hp.poll_eq he)
  | brought e => exact absurd (Option.some.inj (Option.some.inj hr)).symm (ofEnvelope_ne_stopped e)
  | stoppedPausing _ hp hb hpause =>
    exact isStopped_of_stops hf (.polled ho begins hp hb) (.pausing hpause)
  | connecting | unconnected | polling | failed | pausing | goesOn => cases hr

theorem tries_isStopped (hf : Stands f.channel net)
    (htries : Tries l.token l.deadline f net (some (.ok .stopped)) f' net') :
    l.token.ends net'.now ∧ IsStopped l f net f' net' := by
  generalize hr : (some (.ok .stopped) : Outcome Found) = r at htries
  cases htries with
  | fired hfired => exact isStopped_of_stops hf (.round .first) (.atOnce hfired)
  | stopped h hc hreceive =>
    obtain ⟨s, hs⟩ := connect_open hc
    exact isStopped_of_stops hf (.connected .first h hc) (.receiving (by simp [hs]) hreceive)
  | brought e => exact absurd (Option.some.inj hr).symm (ofEnvelope_ne_stopped e)
  | connecting | unconnected | receiving | failed => cases hr

theorem look_isStopped (hf : Stands f.channel net)
    (h : f.look l net = (some (.ok .stopped), f', net')) :
    l.token.ends net'.now ∧ IsStopped l f net f' net' := by
  rw [look] at h
  split at h
  · have htries := tryNext_tries l.token l.deadline f net
    rw [h] at htries
    exact tries_isStopped hf htries
  · rename_i honce
    have ho : l.once = false := by simpa using honce
    obtain ⟨g, net₁, rounds, round⟩ := waits_of_next h
    exact round_isStopped hf ho (.again ho rounds) round

theorem tries_heard (h : Stands f.channel net)
    (htries : Tries token deadline f net (some (.ok .stopped)) f' net') :
    heardFrom (f.channel.firstSocket net) net' = heardFrom (f.channel.firstSocket net) net := by
  generalize hr : (some (.ok .stopped) : Outcome Found) = r at htries
  cases htries with
  | fired => rfl
  | brought e => exact absurd (Option.some.inj hr).symm (ofEnvelope_ne_stopped e)
  | stopped _ hc hreceive =>
    obtain ⟨-, hheard, hok⟩ := connect_attends h.attends hc
    obtain ⟨h₁, hopen⟩ := hok rfl
    have hstops := Stops.receiving hopen hreceive
    rw [(hstops.stays h₁.toStands).heard _ h₁.first_le, hheard]
  | connecting | unconnected | receiving | failed => cases hr

/-- A look that is stopped has taken no event. -/
theorem look_heard (hf : Stands f.channel net)
    (h : f.look l net = (some (.ok .stopped), f', net')) :
    heardFrom (f.channel.firstSocket net) net' = heardFrom (f.channel.firstSocket net) net := by
  rw [look] at h
  split at h
  · have htries := tryNext_tries l.token l.deadline f net
    rw [h] at htries
    exact tries_heard hf htries
  · rcases (next_takes hf.attends h).heard_eq with hheard | ⟨⟨_, he⟩, -⟩
    · simpa [itemOf] using hheard
    · cases he

theorem look_stands {r : Outcome Found} (hf : Stands f.channel net)
    (h : f.look l net = (r, f', net')) : Stands f'.channel net' := by
  rw [look] at h
  split at h
  · have htries := tryNext_tries l.token l.deadline f net
    rw [h] at htries
    exact tries_stands hf htries
  · exact waits_stands hf (waits_of_next h)

/-- A wait whose token has fired is stopped at once. -/
theorem next_of_fired (h : token.isFired net.now) (f : Feed) (deadline : Nat) :
    f.next token deadline net = (some (.ok .stopped), f.stopped, net) := by
  rw [next, nextWithin, if_pos h]

/-- A look whose token has fired does nothing. -/
theorem look_of_fired (h : l.token.isFired net.now) (f : Feed) :
    f.look l net = (some (.ok .stopped), f.stopped, net) := by
  rw [look]
  split
  · rw [tryNext, if_pos h]
  · exact next_of_fired h f l.deadline

/-- A look that is not stopped ends as it does without a token. -/
theorem look_unstopped {result : Except Failure Found}
    (h : f.look l net = (some result, f', net')) (hr : result ≠ .ok .stopped) :
    f.look { l with token := .never } net = (some result, f', net') := by
  rw [look] at h ⊢
  split at h
  · rename_i honce
    rw [if_pos honce]
    exact tryNext_unstopped h hr
  · rename_i honce
    rw [if_neg honce]
    exact next_unstopped h hr

/-- What a look does about its token, from a feed whose connections are given up after
`connectTimeout`. -/
structure Heeds (connectTimeout : Nat) (l : Look) (f : Feed) (net : Network) : Prop where
  /-- When the token has fired, the look does nothing. -/
  atOnce : l.token.isFired net.now → f.look l net = (some (.ok .stopped), f.stopped, net)
  /-- When it fires later, the look comes to an end, -/
  ends : ∀ time, l.token = .firing time → time + connectTimeout ≤ l.deadline →
    ∃ result f' net', f.look l net = (some result, f', net') ∧
      net'.now ≤ max net.now (time + connectTimeout)
  /-- by the time that the token fires, unless it is connecting then. -/
  inTime : ∀ result f' net', f.look l net = (some result, f', net') →
    ¬ l.token.isFired net.now → l.token.isFired net'.now → Overruns l f net result f' net'
  /-- When it is not stopped, it ends as it does without a token: no look fails, or finds anything,
  for its token. -/
  unstopped : ∀ result f' net', f.look l net = (some result, f', net') → result ≠ .ok .stopped →
    f.look { l with token := .never } net = (some result, f', net')
  /-- It is not stopped before, and when it is it has taken no event and no byte away from the next
  look, nor closed a socket. -/
  stopped : ∀ f' net', f.look l net = (some (.ok .stopped), f', net') →
    l.token.ends net'.now ∧ IsStopped l f net f' net' ∧ Stands f'.channel net' ∧
      heardFrom (f.channel.firstSocket net) net' = heardFrom (f.channel.firstSocket net) net

/-- Whatever a feed was used for, a look at it whose token fires before it or while it waits is
stopped then; but a look that is connecting fails all the same when no connection comes about,
though its token may have fired long before. -/
theorem look_heeds (endpoint : Endpoint) (username : String) (subscribe : Bool)
    (connectTimeout readTimeout pollInterval : Nat) (before : List Turn) (start : Network)
    (l : Look) :
    ∃ f net, performAll before
        (fresh endpoint username subscribe connectTimeout readTimeout pollInterval) start =
          (f, net) ∧
      Heeds connectTimeout l f net := by
  have hstands := performAll_stands (stands_fresh endpoint username subscribe connectTimeout
    readTimeout pollInterval start) before
  have hlimit := performAll_limit before
    (fresh endpoint username subscribe connectTimeout readTimeout pollInterval) start
  generalize performAll before _ start = reached at hstands hlimit ⊢
  obtain ⟨f, net⟩ := reached
  have hlimit : f.channel.connectTimeout = connectTimeout := hlimit
  refine ⟨f, net, rfl, fun hfired => look_of_fired hfired f, ?_, fun _ _ _ => look_overruns,
    fun _ _ _ => look_unstopped, ?_⟩
  · intro time ht hd
    rcases hl : f.look l net with ⟨r, f', net'⟩
    obtain ⟨hr, hnow⟩ := look_ends ht (hlimit ▸ hd) hl
    obtain ⟨result, rfl⟩ := Option.ne_none_iff_exists'.mp hr
    exact ⟨result, f', net', rfl, hlimit ▸ hnow⟩
  · intro f' net' hl
    obtain ⟨hends, hstopped⟩ := look_isStopped hstands hl
    exact ⟨hends, hstopped, look_stands hstands hl, look_heard hstands hl⟩

/-- A network whose only server takes 20 milliseconds to refuse. -/
def slowRefusalNetwork : Network :=
  { servers := [{ endpoint := ⟨"127.0.0.1", 9000⟩, receptions := [.refuse 20] }] }

/-- A feed that has no socket yet. -/
def unconnectedFeed : Feed := fresh ⟨"127.0.0.1", 9000⟩ "alice" true 5000 1000 100

/-- When the token fires 10 milliseconds after a look has begun to connect, the look waits for the
refusal and gives it as a failure; a wait of its channel for an envelope, in the same place, is
stopped. -/
theorem look_misses_stop :
    let waited := unconnectedFeed.look { once := false, token := .firing 10, deadline := 50 }
      slowRefusalNetwork
    let tried := unconnectedFeed.look { once := true, token := .firing 10, deadline := 50 }
      slowRefusalNetwork
    waited.1 = some (.error (.connect "127.0.0.1:9000" (.ofSystem .connectionRefused))) ∧
      tried.1 = some (.error (.connect "127.0.0.1:9000" (.ofSystem .connectionRefused))) ∧
      tried.2.2.now = 20 ∧
      (unconnectedFeed.channel.receiveUnless (.firing 10) 50 slowRefusalNetwork).1 =
        some (.ok .stopped) :=
  ⟨rfl, rfl, rfl, rfl⟩

end Feed
end Gallows
