import Gallows.Proofs.Channel.Stance
import Gallows.Proofs.Feed.Delivery
import Gallows.Proofs.Feed.Rounds

/-!
What a wait for an event takes from the network, whatever the servers do. It takes the next event
that the frames carry, or ends with a failure, or is stopped and has taken nothing; and only with a
failure does it leave a socket on which there is more to come.
-/
namespace Gallows.Feed

open Channel (Stands Attends HasRead Manner Receives)
open Network (Reads)

/-- What the complete frames tell that were read from the sockets from `first` on. -/
def heardFrom (first : Nat) (net : Network) : List (Except Failure Event) :=
  heard first (net.connections.length - first) net

/-- What a look tells that has come to this. -/
def itemOf : Except Failure Found → Option (Except Failure Event)
  | .ok (.event e) => some (.ok e)
  | .ok _ => none
  | .error f => some (.error f)

variable {f f' f₁ : Feed} {net net' net₁ : Network} {c c' : Channel} {s first deadline : Nat}
  {token : Token} {endpoint : Endpoint} {wire : Socket → List UInt8}
  {new : List UInt8}

theorem itemOf_ofEnvelope (e : Envelope.Server) :
    itemOf (Found.ofEnvelope e) = newsOf (.ok e) := by
  simp only [Found.ofEnvelope, newsOf]
  split
  · cases Event.decode e.message e.payload <;> rfl
  · rfl

/-- Sockets that nothing was read from tell nothing. -/
theorem heardFrom_same (hr : net'.received = net.received)
    (hlen : net.connections.length ≤ net'.connections.length)
    (hfirst : first ≤ net.connections.length) : heardFrom first net' = heardFrom first net := by
  have hmore (k : Nat) : heard first (net.connections.length - first + k) net' =
      heard first (net.connections.length - first) net := by
    induction k with
    | zero => exact heard_congr fun i _ => by rw [hr]
    | succ k ih =>
      have hnone : net.connections.length ≤ first + (net.connections.length - first + k) := by omega
      rw [← Nat.add_assoc, heard_succ, ih, hr, Network.received_of_le hnone,
        newsIn_pending Frame.pending_nil, List.append_nil]
  have hcount : net'.connections.length - first =
      net.connections.length - first + (net'.connections.length - net.connections.length) := by
    omega
  rw [heardFrom, hcount, hmore]
  rfl

/-- Reading from the newest socket tells what completes there. -/
theorem heardFrom_reads (hs : s + 1 = net.connections.length) (hfirst : first ≤ s)
    (reads : Reads s new net net') :
    heardFrom first net' =
      heardFrom first net ++ newsIn ((Frame.split (net.received s)).2 ++ new) := by
  obtain ⟨k, rfl⟩ : ∃ k, s = first + k := Nat.exists_eq_add_of_le hfirst
  have hcount : net.connections.length - first = k + 1 := by omega
  rw [heardFrom, heardFrom, reads.length, hcount, heard_reads reads.received]

/-- What the complete frames tell that `n` streams carry, the first being that of the socket
`first`. -/
def newsOn (first n : Nat) (wire : Socket → List UInt8) : List (Except Failure Event) :=
  (List.range n).flatMap fun i => newsIn (wire (first + i))

theorem newsIn_mono {s t : List UInt8} (h : s <+: t) : newsIn s <+: newsIn t := by
  obtain ⟨rest, rfl⟩ := h
  rw [newsIn_append]
  exact List.prefix_append _ _

/-- What was heard is the beginning of what the streams tell. -/
theorem heardFrom_begins (h : HasRead first wire net) :
    heardFrom first net <+: newsOn first (net.connections.length - first) wire := by
  rw [heardFrom]
  generalize hn : net.connections.length - first = n
  cases n with
  | zero => exact List.prefix_refl _
  | succ k =>
    have hbefore : heard first k net = newsOn first k wire := by
      rw [heard, newsOn]
      apply List.flatMap_congr
      intro i hi
      have hlt := List.mem_range.mp hi
      have hnewer : first + i + 1 < net.connections.length := by omega
      have hwhole : net.received (first + i) = wire (first + i) :=
        h.whole (first + i) (Nat.le_add_right _ _) hnewer
      rw [hwhole]
    have hnewest : first + k + 1 = net.connections.length := by omega
    have hlast : net.received (first + k) <+: wire (first + k) :=
      h.part (first + k) (Nat.le_add_right _ _) hnewest
    rw [heard_succ, hbefore, newsOn, newsOn, List.range_succ, List.flatMap_append,
      List.flatMap_singleton]
    exact (List.prefix_append_right_inj _).mpr (newsIn_mono hlast)

/-- Connecting tells nothing. -/
theorem connect_attends {r : Outcome Unit} (h : Attends endpoint first wire f.channel net)
    (hc : f.connect deadline net = (r, f', net')) :
    HasRead first wire net' ∧ heardFrom first net' = heardFrom first net ∧
      (r = some (.ok ()) →
        Attends endpoint first wire f'.channel net' ∧ f'.channel.socket ≠ none) := by
  have hsame {r : Outcome Socket} {c : Channel} {net₁ : Network}
      (ho : Channel.Opens f.channel net r c net₁) :
      heardFrom first net₁ = heardFrom first net :=
    heardFrom_same ho.quiet.received ho.quiet.length h.first_le
  -- What sending does behind a socket that is open, whether it was opened for it or not.
  have hsent {s : Socket} {c c' : Channel} {net₁ net₂ : Network} {r : Outcome Unit}
      (he : f.channel.ensure deadline net = (some (.ok s), c, net₁))
      (hsend : c.send (subscription f.username) deadline net₁ = (r, c', net₂)) :
      HasRead first wire net₂ ∧ heardFrom first net₂ = heardFrom first net ∧
        (r = some (.ok ()) → Attends endpoint first wire c' net₂ ∧ c'.socket ≠ none) := by
    have hopens := Channel.opens_of_ensure he
    have hattends := h.opens hopens
    have hs := hopens.socket_eq
    have hsends := Channel.send_sends (subscription f.username) c deadline net₁
    rw [hsend] at hsends
    dsimp only at hsends
    obtain ⟨hread, hok⟩ := hattends.sends hs hsends
    obtain ⟨hreceived, hcount⟩ := hsends.quiet hs
    refine ⟨hread, ?_, ?_⟩
    · rw [heardFrom_same hreceived (Nat.le_of_eq hcount.symm) hattends.first_le]
      exact hsame hopens
    · intro hr
      obtain ⟨hafter, hopen⟩ := hok hr
      exact ⟨hafter, by simp [hopen]⟩
  cases connects_of_eq hc with
  | opening he | unopened _ he =>
    have hopens := Channel.opens_of_ensure he
    exact ⟨h.hasRead_opens hopens, hsame hopens, by simp⟩
  | silent he =>
    have hopens := Channel.opens_of_ensure he
    have hattends := h.opens hopens
    exact ⟨hattends.hasRead, hsame hopens, fun _ => ⟨hattends, by simp [hopens.socket_eq]⟩⟩
  | greeted he _ hsend => exact hsent he hsend
  | ungreeted he _ hsend => exact hsent he hsend

/-- A poll takes the next frame, or no more than a part of it. -/
theorem poll_attends (h : Attends endpoint first wire c net) (hs : c.socket ≠ none)
    {r : Outcome Envelope.Server} (hp : c.poll deadline net = (r, c', net')) :
    HasRead first wire net' ∧
      (Attends endpoint first wire c' net' ∧
          heardFrom first net' = heardFrom first net ++ (r.bind newsOf).toList ∨
        (∃ f, r = some (.error f)) ∧ heardFrom first net' = heardFrom first net) := by
  obtain ⟨s, hs⟩ := Option.ne_none_iff_exists'.mp hs
  have hnew := h.newest s hs
  obtain ⟨hfirst, -⟩ := h.opened s hs
  have hr := Channel.poll_receives deadline net (h.held s hs) (by simp [hs])
  rw [hp] at hr
  dsimp only at hr
  have hstands := h.toStands.receives hs hr
  cases hr with
  | unopened hn => simp [hs] at hn
  | frame ensured body new reads hb hl =>
    obtain ⟨rfl, rfl, rfl⟩ := ensured.of_open hs
    have hmore := h.reads hs reads hstands
    refine ⟨hmore.hasRead, Or.inl ⟨hmore, ?_⟩⟩
    rw [heardFrom_reads hnew hfirst reads, hb, newsIn_frame hl, Manner.outcome_polling]
    rfl
  | kept ensured new reads hspares ha =>
    obtain ⟨rfl, rfl, rfl⟩ := ensured.of_open hs
    have hmore := h.reads hs reads hstands
    refine ⟨hmore.hasRead, Or.inl ⟨hmore, ?_⟩⟩
    rw [heardFrom_reads hnew hfirst reads, newsIn_pending ha.pending]
    rcases hspares with rfl | rfl <;> rfl
  | @dropped _ _ _ net₂ _ _ f ensured new reads hf still ends ha =>
    obtain ⟨rfl, rfl, rfl⟩ := ensured.of_open hs
    refine ⟨h.hasRead_reads hs reads still, ?_⟩
    have hheard : heardFrom first net' = heardFrom first net ++
        newsIn ((Frame.split (net.received s)).2 ++ new) := by
      have hfirst₂ : first ≤ net₂.connections.length := by
        rw [reads.length]
        exact h.first_le
      rw [heardFrom_same still.received (Nat.le_of_eq still.count.symm) hfirst₂]
      exact heardFrom_reads hnew hfirst reads
    have htidy := (reads.coming (h.tidy s hs)).1
    cases hf with
    | transport fault hpending =>
      refine Or.inl ⟨h.leaves hs reads (ends rfl htidy) still ha, ?_⟩
      rw [hheard, newsIn_pending hpending]
      rfl
    | closed expected got hpending =>
      refine Or.inl ⟨h.leaves hs reads (ends rfl htidy) still ha, ?_⟩
      rw [hheard, newsIn_pending hpending]
      rfl
    | tooLarge hlarge =>
      refine Or.inr ⟨⟨_, rfl⟩, ?_⟩
      rw [hheard]
      simp [newsIn, Frame.split_oversized hlarge]

/-- What a wait that has come to an end has taken. -/
structure Takes (endpoint : Endpoint) (first : Nat) (wire : Socket → List UInt8) (net : Network)
    (result : Except Failure Found) (f' : Feed) (net' : Network) : Prop where
  hasRead : HasRead first wire net'
  attends : (∀ failure, result ≠ .error failure) → Attends endpoint first wire f'.channel net'
  heard_eq : heardFrom first net' = heardFrom first net ++ (itemOf result).toList ∨
    (∃ failure, result = .error failure) ∧ heardFrom first net' = heardFrom first net

theorem Takes.of_heard {result : Except Failure Found}
    (h : Takes endpoint first wire net₁ result f' net')
    (he : heardFrom first net₁ = heardFrom first net) :
    Takes endpoint first wire net result f' net' :=
  ⟨h.hasRead, h.attends, he ▸ h.heard_eq⟩

/-- A wait that is stopped has taken nothing. -/
theorem takes_stopped (h : Attends endpoint first wire f'.channel net')
    (he : heardFrom first net' = heardFrom first net) :
    Takes endpoint first wire net (.ok .stopped) f' net' :=
  ⟨h.hasRead, fun _ => h, Or.inl (by simp [he, itemOf])⟩

theorem takes_failed {failure : Failure} (h : HasRead first wire net')
    (he : heardFrom first net' = heardFrom first net) :
    Takes endpoint first wire net (.error failure) f' net' :=
  ⟨h, fun hne => absurd rfl (hne failure), Or.inr ⟨⟨failure, rfl⟩, he⟩⟩

theorem polled_attends {r : Outcome Envelope.Server} (h : Attends endpoint first wire f.channel net)
    (hp : Polled token deadline f net f₁ net₁ r c net') :
    HasRead first wire net' ∧
      (Attends endpoint first wire c net' ∧
          heardFrom first net' = heardFrom first net ++ (r.bind newsOf).toList ∨
        (∃ f, r = some (.error f)) ∧ heardFrom first net' = heardFrom first net) := by
  obtain ⟨-, hheard, hok⟩ := connect_attends h hp.connect_eq
  obtain ⟨h₁, hopen⟩ := hok rfl
  rw [← hheard]
  exact poll_attends h₁ hopen hp.poll_eq

/-- Unless the poll of a round fails, the feed goes on from what it brought. -/
theorem polled_attends_of_ok {r : Outcome Envelope.Server}
    (h : Attends endpoint first wire f.channel net)
    (hp : Polled token deadline f net f₁ net₁ r c net')
    (hr : ∀ failure, r ≠ some (.error failure)) :
    Attends endpoint first wire c net' ∧
      heardFrom first net' = heardFrom first net ++ (r.bind newsOf).toList := by
  obtain ⟨-, hkept | ⟨⟨failure, he⟩, -⟩⟩ := polled_attends h hp
  · exact hkept
  · exact absurd he (hr failure)

/-- A round whose envelope brings nothing has taken nothing when its pause is over. -/
theorem paused_attends {e : Envelope.Server} {g : Feed} {r : Option Bool} {net₂ : Network}
    (h : Attends endpoint first wire f.channel net)
    (hp : Polled token deadline f net f₁ net₁ (some (.ok e)) c net₂)
    (hb : Found.ofEnvelope e = .ok .nothing) (hpause : g.pause token deadline net₂ = (r, net')) :
    Attends endpoint first wire c net' ∧ heardFrom first net' = heardFrom first net := by
  obtain ⟨h₂, hheard⟩ := polled_attends_of_ok h hp (by simp)
  obtain ⟨time, rfl⟩ := pause_waits hpause
  rw [Option.bind_some, ← itemOf_ofEnvelope, hb] at hheard
  have hsame : heardFrom first (net₂.waitUntil time) = heardFrom first net₂ := rfl
  exact ⟨h₂.wait time, hsame.trans (by simpa [itemOf] using hheard)⟩

/-- A round takes what it ends with, and nothing if the wait goes on. -/
theorem round_takes {r : Option (Outcome Found)} (h : Attends endpoint first wire f.channel net)
    (hround : Round token deadline f net r f' net') :
    (r = none → Attends endpoint first wire f'.channel net' ∧
      heardFrom first net' = heardFrom first net) ∧
    ∀ result, r = some (some result) → Takes endpoint first wire net result f' net' := by
  cases hround with
  | fired =>
    refine ⟨by simp, ?_⟩
    rintro _ ⟨⟩
    exact takes_stopped h rfl
  | connecting | polling | pausing => exact ⟨by simp, by simp⟩
  | unconnected failure _ hc =>
    obtain ⟨hread, hheard, -⟩ := connect_attends h hc
    refine ⟨by simp, ?_⟩
    rintro _ ⟨⟩
    exact takes_failed hread hheard
  | firedMeanwhile _ hc =>
    obtain ⟨-, hheard, hok⟩ := connect_attends h hc
    refine ⟨by simp, ?_⟩
    rintro _ ⟨⟩
    exact takes_stopped (hok rfl).1 hheard
  | stopped hp =>
    obtain ⟨h₂, hheard⟩ := polled_attends_of_ok h hp (by simp)
    refine ⟨by simp, ?_⟩
    rintro _ ⟨⟩
    exact takes_stopped h₂ (by simpa using hheard)
  | failed failure hp =>
    obtain ⟨hread, hheard⟩ := polled_attends h hp
    refine ⟨by simp, ?_⟩
    rintro _ ⟨⟩
    rcases hheard with ⟨-, hheard⟩ | ⟨-, hheard⟩
    · exact ⟨hread, fun hne => absurd rfl (hne failure), Or.inl hheard⟩
    · exact takes_failed hread hheard
  | brought e hp =>
    obtain ⟨h₂, hheard⟩ := polled_attends_of_ok h hp (by simp)
    refine ⟨by simp, ?_⟩
    rintro _ ⟨⟩
    rw [Option.bind_some, ← itemOf_ofEnvelope] at hheard
    exact ⟨h₂.hasRead, fun _ => h₂, Or.inl hheard⟩
  | stoppedPausing e hp hb hpause =>
    obtain ⟨h₃, hheard⟩ := paused_attends h hp hb hpause
    refine ⟨by simp, ?_⟩
    rintro _ ⟨⟩
    exact takes_stopped h₃ hheard
  | goesOn e hp hb hpause =>
    obtain ⟨h₃, hheard⟩ := paused_attends h hp hb hpause
    exact ⟨fun _ => ⟨h₃, hheard⟩, by simp⟩

/-- Rounds that go on take nothing. -/
theorem rounds_attends (h : Attends endpoint first wire f.channel net)
    (hrounds : Rounds token deadline f net f' net') :
    Attends endpoint first wire f'.channel net' ∧ heardFrom first net' = heardFrom first net := by
  induction hrounds with
  | nil => exact ⟨h, rfl⟩
  | cons round _ ih =>
    obtain ⟨h₁, hheard⟩ := (round_takes h round).1 rfl
    obtain ⟨h₂, hrest⟩ := ih h₁
    exact ⟨h₂, hrest.trans hheard⟩

/-- A wait takes what it ends with. -/
theorem waits_takes {result : Except Failure Found} (h : Attends endpoint first wire f.channel net)
    (hwaits : Waits token deadline f net (some result) f' net') :
    Takes endpoint first wire net result f' net' := by
  obtain ⟨g, net₁, rounds, round⟩ := hwaits
  obtain ⟨h₁, hheard⟩ := rounds_attends h rounds
  exact ((round_takes h₁ round).2 result rfl).of_heard hheard

theorem next_takes (h : Attends endpoint first wire f.channel net)
    {result : Except Failure Found} (hn : f.next token deadline net = (some result, f', net')) :
    Takes endpoint first wire net result f' net' :=
  waits_takes h (waits_of_next hn)

/-- A wait never ends with an envelope that brings nothing. -/
theorem waits_ne_nothing {r : Outcome Found} (hwaits : Waits token deadline f net r f' net') :
    r ≠ some (.ok .nothing) := by
  obtain ⟨g, net₁, -, round⟩ := hwaits
  cases round with
  | brought e _ hb =>
    intro he
    exact hb (Option.some.inj he)
  | _ => simp

/-! Whatever a feed was used for, it may be waited on from where it is. -/

theorem stands_fresh (endpoint : Endpoint) (username : String) (subscribe : Bool)
    (connectTimeout readTimeout pollInterval : Nat) (net : Network) :
    Stands (fresh endpoint username subscribe connectTimeout readTimeout pollInterval).channel net :=
  Channel.stands_of_closed rfl Frame.Assembler.holds_initial net

theorem connect_stands {r : Outcome Unit} (h : Stands f.channel net)
    (hc : f.connect deadline net = (r, f', net')) : Stands f'.channel net' := by
  have hsent {s : Socket} {c c' : Channel} {net₁ net₂ : Network} {r : Outcome Unit}
      (he : f.channel.ensure deadline net = (some (.ok s), c, net₁))
      (hsend : c.send (subscription f.username) deadline net₁ = (r, c', net₂)) :
      Stands c' net₂ := by
    have hstands := (h.opens (Channel.opens_of_ensure he)).send (subscription f.username) deadline
    rwa [hsend] at hstands
  cases connects_of_eq hc with
  | opening he | unopened _ he | silent he => exact h.opens (Channel.opens_of_ensure he)
  | greeted he _ hsend | ungreeted he _ hsend => exact hsent he hsend

theorem polled_stands {r : Outcome Envelope.Server} (h : Stands f.channel net)
    (hp : Polled token deadline f net f₁ net₁ r c net') : Stands c net' := by
  have hstands := (connect_stands h hp.connect_eq).poll (token.limit deadline)
  rwa [hp.poll_eq] at hstands

theorem pause_stands {g : Feed} {r : Option Bool} (h : Stands c net)
    (hp : g.pause token deadline net = (r, net')) : Stands c net' := by
  obtain ⟨time, rfl⟩ := pause_waits hp
  exact h.wait time

theorem round_stands {r : Option (Outcome Found)} (h : Stands f.channel net)
    (hround : Round token deadline f net r f' net') : Stands f'.channel net' := by
  cases hround with
  | fired => exact h
  | connecting _ hc | unconnected _ _ hc | firedMeanwhile _ hc =>
    have h₁ := connect_stands h hc
    exact h₁
  | stopped hp | polling hp | failed _ hp | brought _ hp => exact polled_stands h hp
  | pausing _ hp _ hpause | stoppedPausing _ hp _ hpause | goesOn _ hp _ hpause =>
    exact pause_stands (polled_stands h hp) hpause

theorem rounds_stands (h : Stands f.channel net) (hrounds : Rounds token deadline f net f' net') :
    Stands f'.channel net' := by
  induction hrounds with
  | nil => exact h
  | cons round _ ih => exact ih (round_stands h round)

theorem waits_stands {r : Outcome Found} (h : Stands f.channel net)
    (hwaits : Waits token deadline f net r f' net') : Stands f'.channel net' := by
  obtain ⟨g, net₁, rounds, round⟩ := hwaits
  exact round_stands (rounds_stands h rounds) round

theorem tries_stands {r : Outcome Found} (h : Stands f.channel net)
    (htries : Tries token deadline f net r f' net') : Stands f'.channel net' := by
  have hreceived {f₁ : Feed} {net₁ net₂ : Network} {r : Outcome Received} {c : Channel}
      (hc : f.connect deadline net = (some (.ok ()), f₁, net₁))
      (hr : f₁.channel.receiveUnless token deadline net₁ = (r, c, net₂)) : Stands c net₂ := by
    have hstands := (connect_stands h hc).receiveUnless token deadline
    rwa [hr] at hstands
  cases htries with
  | fired => exact h
  | connecting _ hc | unconnected _ _ hc => exact connect_stands h hc
  | receiving _ hc hr | failed _ _ hc hr | stopped _ hc hr | brought _ _ hc hr =>
    exact hreceived hc hr

theorem perform_stands (h : Stands f.channel net) (use : Use) (deadline : Nat) :
    Stands (f.perform use deadline net).1.channel (f.perform use deadline net).2 := by
  cases use with
  | connect => exact connect_stands h rfl
  | next token => exact waits_stands h (waits_of_next rfl)
  | tryNext token => exact tries_stands h (tryNext_tries token deadline f net)
  | close => exact h.close

theorem performAll_stands (h : Stands f.channel net) (turns : List Turn) :
    Stands (performAll turns f net).1.channel (performAll turns f net).2 := by
  induction turns generalizing f net with
  | nil => exact h
  | cons turn turns ih => exact ih (perform_stands (h.wait turn.start) turn.use turn.deadline)

end Gallows.Feed
