import Gallows.Proofs.Channel.Outbound
import Gallows.Proofs.Channel.Stance

/-!
The sockets of a channel, one after another. Every operation makes one attempt to connect at most;
the generation counts those that succeed, one that does not leaves the channel closed, and an open
socket is given up only where no frame can follow on it.
-/
namespace Gallows.Channel

variable {c c' : Channel} {net net' : Network} {s : Socket} {deadline : Nat}
  {operation : Operation}

/-- What an attempt to connect comes to; `none` if that was not waited for. -/
abbrev Attempt : Type := Option (Except Fault Socket)

/-- How many sockets an attempt opens, if one is made. -/
def Attempt.sockets : Option Attempt → Nat
  | some (some (.ok _)) => 1
  | _ => 0

/-- Whether an attempt is made, and opens no socket. -/
def Attempt.Fails (made : Option Attempt) : Prop :=
  ∃ attempt, made = some attempt ∧ ∀ s, attempt ≠ some (.ok s)

/-- The attempt to connect that a channel makes when it is asked for an open socket. -/
def attempt? (c : Channel) (deadline : Nat) (net : Network) : Option Attempt :=
  match c.socket with
  | some _ => none
  | none => some (net.connect c.endpoint (min (net.now + c.connectTimeout) deadline)).1

/-- With which channel, until when and on which network an operation asks for an open socket, if it
does. -/
def Operation.asks (deadline : Nat) (c : Channel) (net : Network) :
    Operation → Option (Channel × Nat × Network)
  | ensure | receive | poll => some (c, deadline, net)
  | reconnect => some ((c.close net).1, deadline, (c.close net).2)
  | connect endpoint =>
    some (({ c with endpoint }.close net).1, deadline, ({ c with endpoint }.close net).2)
  | close => none
  | send e => if (Frame.encode e).isOk then some (c, deadline, net) else none
  | receiveUnless token =>
    if token.isFired net.now then none else some (c, token.limit deadline, net)

/-- The attempt to connect that an operation makes. -/
def Operation.attempt? (operation : Operation) (deadline : Nat) (c : Channel) (net : Network) :
    Option Attempt :=
  (operation.asks deadline c net).bind fun (c, deadline, net) => c.attempt? deadline net

/-- Whether an operation opens a new socket in the place of the open one. -/
def Operation.isRenewal : Operation → Bool
  | reconnect | connect _ => true
  | _ => false

/-- The attempts to connect that a run makes, one operation after another. -/
def attempts : List Turn → Channel → Network → List (Option Attempt)
  | [], _, _ => []
  | turn :: turns, c, net =>
    let now := net.waitUntil turn.start
    let (_, c', net') := perform turn.operation turn.deadline c now
    turn.operation.attempt? turn.deadline c now :: attempts turns c' net'

theorem ensure_attempt (c : Channel) (deadline : Nat) (net : Network) :
    (c.ensure deadline net).2.1.generation =
        c.generation + Attempt.sockets (c.attempt? deadline net) ∧
      (Attempt.Fails (c.attempt? deadline net) ↔
        ∀ s, (c.ensure deadline net).1 ≠ some (.ok s)) ∧
      ∀ s, c.attempt? deadline net = some (some (.ok s)) → s = net.connections.length ∧
        (c.ensure deadline net).2.2.connections.length = net.connections.length + 1 := by
  cases hs : c.socket with
  | some s => simp [ensure, attempt?, hs, Attempt.sockets, Attempt.Fails]
  | none =>
    have hnew (limit : Nat) (s : Socket) (h : (net.connect c.endpoint limit).1 = some (.ok s)) :=
      net.connect_eq_some h
    simp only [ensure, attempt?, hs]
    specialize hnew (min (net.now + c.connectTimeout) deadline)
    generalize net.connect c.endpoint (min (net.now + c.connectTimeout) deadline) = result
      at hnew ⊢
    obtain ⟨_ | ⟨fault | s⟩, net'⟩ := result
    · simp only
      split <;> simp [Attempt.sockets, Attempt.Fails]
    · simp [Attempt.sockets, Attempt.Fails]
    · simpa [Attempt.sockets, Attempt.Fails] using hnew s rfl

/-- What is left of an operation once it has asked for an open socket: nothing, if there is none. -/
structure Follows (asked : Outcome Socket × Channel × Network) (c' : Channel) (net' : Network) :
    Prop where
  generation : c'.generation = asked.2.1.generation
  count : net'.connections.length = asked.2.2.connections.length
  unopened : (∀ s, asked.1 ≠ some (.ok s)) → c' = asked.2.1 ∧ net' = asked.2.2

theorem follows_self (asked : Outcome Socket × Channel × Network) :
    Follows asked asked.2.1 asked.2.2 := ⟨rfl, rfl, fun _ => ⟨rfl, rfl⟩⟩

theorem follows_of_open (hg : c'.generation = c.generation)
    (hn : net'.connections.length = net.connections.length) :
    Follows (some (.ok s), c, net) c' net' := ⟨hg, hn, fun h => absurd rfl (h s)⟩

theorem count_close (c : Channel) (net : Network) :
    (c.close net).2.connections.length = net.connections.length := (still_close c net).count

theorem fail_same {α : Type} (c : Channel) (f : Failure) (net : Network) :
    (fail (α := α) c f net).2.1.generation = c.generation ∧
      (fail (α := α) c f net).2.2.connections.length = net.connections.length := by
  simp only [fail]
  split
  · exact ⟨rfl, rfl⟩
  · exact ⟨rfl, count_close c net⟩

theorem readWithin_same (s : Socket) (deadline fuel : Nat) (c : Channel) (net : Network) :
    (readWithin s deadline fuel c net).2.1.socket = c.socket ∧
      (readWithin s deadline fuel c net).2.1.generation = c.generation ∧
      (readWithin s deadline fuel c net).2.2.connections.length = net.connections.length := by
  induction fuel generalizing c net with
  | zero => exact ⟨rfl, rfl, rfl⟩
  | succ fuel ih =>
    have hlength := Network.length_read net s c.assembler.unfilled deadline
    rcases hread : net.read s c.assembler.unfilled deadline with ⟨found, net₁⟩
    rw [hread] at hlength
    rcases hd : digest c.assembler found with ⟨r, a⟩ | a
    · rw [readWithin_over hread hd]
      exact ⟨rfl, rfl, hlength⟩
    · rw [readWithin_more hread hd]
      obtain ⟨hs, hg, hn⟩ := ih { c with assembler := a } net₁
      exact ⟨hs, hg, hn.trans hlength⟩

/-- Reading leaves the socket open, and opens none. -/
theorem read_same (s : Socket) (deadline : Nat) (c : Channel) (net : Network) :
    (c.read s deadline net).2.1.socket = c.socket ∧
      (c.read s deadline net).2.1.generation = c.generation ∧
      (c.read s deadline net).2.2.connections.length = net.connections.length :=
  readWithin_same s deadline (net.weightOf s + 1) c net

theorem send_follows {e : Envelope.Client} {frame : ByteArray} (h : Frame.encode e = .ok frame)
    (deadline : Nat) (c : Channel) (net : Network) :
    Follows (c.ensure deadline net) (c.send e deadline net).2.1 (c.send e deadline net).2.2 := by
  simp only [send, h]
  generalize c.ensure deadline net = asked
  obtain ⟨_ | ⟨f | s⟩, c₁, net₁⟩ := asked
  · exact follows_self _
  · exact follows_self _
  · have hlength := Network.length_write net₁ s frame
    dsimp only
    generalize net₁.write s frame = result at hlength ⊢
    obtain ⟨fault | _, net₂⟩ := result
    · exact follows_of_open rfl ((count_close c₁ net₂).trans hlength)
    · exact follows_of_open rfl hlength

theorem receive_follows (deadline : Nat) (c : Channel) (net : Network) :
    Follows (c.ensure deadline net) (c.receive deadline net).2.1 (c.receive deadline net).2.2 := by
  simp only [receive]
  generalize c.ensure deadline net = asked
  obtain ⟨_ | ⟨f | s⟩, c₁, net₁⟩ := asked
  · exact follows_self _
  · exact follows_self _
  · obtain ⟨-, hg, hn⟩ := read_same s deadline c₁ net₁
    dsimp only
    generalize c₁.read s deadline net₁ = result at hg hn ⊢
    obtain ⟨_ | ⟨f | e⟩, c₂, net₂⟩ := result
    · exact follows_of_open hg hn
    · obtain ⟨hg', hn'⟩ := fail_same (α := Envelope.Server) c₂ f net₂
      exact follows_of_open (hg'.trans hg) (hn'.trans hn)
    · exact follows_of_open hg hn

theorem poll_follows (deadline : Nat) (c : Channel) (net : Network) :
    Follows (c.ensure deadline net) (c.poll deadline net).2.1 (c.poll deadline net).2.2 := by
  simp only [poll]
  generalize c.ensure deadline net = asked
  obtain ⟨_ | ⟨f | s⟩, c₁, net₁⟩ := asked
  · exact follows_self _
  · exact follows_self _
  · obtain ⟨-, hg, hn⟩ := read_same s (min (net₁.now + c₁.readTimeout) deadline) c₁ net₁
    dsimp only
    generalize c₁.read s _ net₁ = result at hg hn ⊢
    obtain ⟨_ | ⟨f | e⟩, c₂, net₂⟩ := result
    · exact follows_of_open hg hn
    · obtain ⟨hg', hn'⟩ := fail_same (α := Envelope.Server) c₂ f net₂
      dsimp only
      split
      · exact follows_of_open hg ((count_close c₂ net₂).trans hn)
      · exact follows_of_open (hg'.trans hg) (hn'.trans hn)
    · exact follows_of_open hg hn

theorem receiveUnless_follows {token : Token} (h : token.isFired net.now = false) (deadline : Nat)
    (c : Channel) :
    Follows (c.ensure (token.limit deadline) net) (c.receiveUnless token deadline net).2.1
      (c.receiveUnless token deadline net).2.2 := by
  simp only [receiveUnless, h, Bool.false_eq_true, if_false]
  generalize c.ensure (token.limit deadline) net = asked
  obtain ⟨_ | ⟨f | s⟩, c₁, net₁⟩ := asked
  · exact follows_self _
  · exact follows_self _
  · obtain ⟨-, hg, hn⟩ := read_same s (token.limit deadline) c₁ net₁
    dsimp only
    generalize c₁.read s _ net₁ = result at hg hn ⊢
    obtain ⟨_ | ⟨f | e⟩, c₂, net₂⟩ := result
    · exact follows_of_open hg hn
    · obtain ⟨hg', hn'⟩ := fail_same (α := Received) c₂ f net₂
      exact follows_of_open (hg'.trans hg) (hn'.trans hn)
    · exact follows_of_open hg hn

/-- All that an operation does that asks for an open socket follows from the answer to that. -/
theorem perform_follows {c₀ : Channel} {net₀ : Network} {limit : Nat}
    (h : operation.asks deadline c net = some (c₀, limit, net₀)) :
    Follows (c₀.ensure limit net₀) (perform operation deadline c net).2.1
      (perform operation deadline c net).2.2 := by
  cases operation with
  | ensure =>
    cases h
    exact follows_self _
  | reconnect =>
    cases h
    exact follows_self _
  | connect endpoint =>
    cases h
    exact follows_self _
  | close => cases h
  | send e =>
    simp only [Operation.asks] at h
    cases hf : Frame.encode e with
    | error cause => simp [hf, Except.isOk, Except.toBool] at h
    | ok frame =>
      simp only [hf, Except.isOk, Except.toBool, if_true] at h
      cases h
      exact send_follows hf deadline c net
  | receive =>
    cases h
    exact receive_follows deadline c net
  | poll =>
    cases h
    exact poll_follows deadline c net
  | receiveUnless token =>
    simp only [Operation.asks] at h
    split at h
    · cases h
    · rename_i hfired
      cases h
      exact receiveUnless_follows (by simpa using hfired) deadline c

/-- Where an operation asks for an open socket: with the channel as it is, or behind closing it. -/
structure Approaches (operation : Operation) (c : Channel) (net : Network) (c₀ : Channel)
    (net₀ : Network) : Prop where
  generation : c₀.generation = c.generation
  count : net₀.connections.length = net.connections.length
  written : net₀.written = net.written
  direct : operation.isRenewal = false → c₀ = c ∧ net₀ = net

theorem asks_approaches {c₀ : Channel} {net₀ : Network} {limit : Nat}
    (h : operation.asks deadline c net = some (c₀, limit, net₀)) :
    Approaches operation c net c₀ net₀ := by
  have hclose (c : Channel) : (c.close net).2.written = net.written :=
    (still_close c net).written
  have hsame : Approaches operation c net c net := ⟨rfl, rfl, rfl, fun _ => ⟨rfl, rfl⟩⟩
  cases operation with
  | ensure | receive | poll =>
    cases h
    exact hsame
  | reconnect =>
    cases h
    exact ⟨rfl, count_close c net, hclose c, by simp [Operation.isRenewal]⟩
  | connect endpoint =>
    cases h
    exact ⟨rfl, count_close _ net, hclose _, by simp [Operation.isRenewal]⟩
  | close => cases h
  | send e =>
    simp only [Operation.asks] at h
    split at h
    · cases h
      exact hsame
    · cases h
  | receiveUnless token =>
    simp only [Operation.asks] at h
    split at h
    · cases h
    · cases h
      exact hsame

/-- An operation that asks for no socket opens none. -/
theorem perform_unasked (h : operation.asks deadline c net = none) :
    (perform operation deadline c net).2.1.generation = c.generation ∧
      (perform operation deadline c net).2.2.connections.length = net.connections.length := by
  cases operation with
  | ensure | reconnect | connect _ | receive | poll => cases h
  | close => exact ⟨rfl, count_close c net⟩
  | send e =>
    simp only [Operation.asks] at h
    cases hf : Frame.encode e with
    | error cause =>
      simp only [perform, send, hf]
      exact ⟨rfl, rfl⟩
    | ok frame => simp [hf, Except.isOk, Except.toBool] at h
  | receiveUnless token =>
    simp only [Operation.asks] at h
    split at h
    · rename_i hfired
      simp only [perform, receiveUnless, hfired, if_true]
      exact ⟨rfl, rfl⟩
    · cases h

theorem count_ensure_le (c : Channel) (deadline : Nat) (net : Network) :
    (c.ensure deadline net).2.2.connections.length ≤ net.connections.length + 1 := by
  have hopens := ensure_opens c deadline net
  generalize c.ensure deadline net = asked at hopens ⊢
  obtain ⟨r, c', net'⟩ := asked
  cases hopens with
  | kept => exact Nat.le_succ _
  | opened _ _ opened => exact Nat.le_of_eq opened.count
  | unopened _ _ _ _ count => exact count

/-- When an operation gives up that reads from its open socket. -/
def Operation.limit (deadline : Nat) (c : Channel) (net : Network) : Operation → Nat
  | poll => min (net.now + c.readTimeout) deadline
  | receiveUnless token => token.limit deadline
  | _ => deadline

/-- What an operation does to the sockets of a channel. -/
structure Lives (operation : Operation) (deadline : Nat) (c : Channel) (net : Network)
    (answer : Answer) (c' : Channel) (net' : Network) : Prop where
  generation : c'.generation = c.generation + Attempt.sockets (operation.attempt? deadline c net)
  count : net'.connections.length ≤ net.connections.length + 1
  succeeded : ∀ s, operation.attempt? deadline c net = some (some (.ok s)) →
    s = net.connections.length ∧ net'.connections.length = net.connections.length + 1
  spared : c.isConnected → operation.isRenewal = false →
    operation.attempt? deadline c net = none ∧
      net'.connections.length = net.connections.length
  failed : Attempt.Fails (operation.attempt? deadline c net) →
    c'.isConnected = false ∧ c'.generation = c.generation ∧ net'.written = net.written
  fired : ∀ token, operation = .receiveUnless token → token.isFired net.now →
    answer = some (.ok (some .stopped)) ∧ c' = c ∧ net' = net
  waiting : ∀ s, operation.isReceive → c.socket = some s →
    (c.read s (operation.limit deadline c net) net).1 = none → c'.socket = some s
  stopped : ∀ s, operation.isReceive → c.socket = some s →
    answer = none ∨ answer = some (.ok (some .stopped)) → c'.socket = some s
  refused : operation.isReceive → ∀ f, answer = some (.error f) →
    (c'.isConnected ↔ ∃ cause, f = .protocol (.envelope cause))

theorem perform_generation (operation : Operation) (deadline : Nat) (c : Channel)
    (net : Network) :
    (perform operation deadline c net).2.1.generation =
      c.generation + Attempt.sockets (operation.attempt? deadline c net) := by
  rw [Operation.attempt?]
  rcases h : operation.asks deadline c net with _ | ⟨c₀, limit, net₀⟩
  · exact (perform_unasked h).1
  · rw [(perform_follows h).generation, (ensure_attempt c₀ limit net₀).1,
      (asks_approaches h).generation]
    rfl

theorem perform_count (operation : Operation) (deadline : Nat) (c : Channel) (net : Network) :
    (perform operation deadline c net).2.2.connections.length ≤ net.connections.length + 1 := by
  rcases h : operation.asks deadline c net with _ | ⟨c₀, limit, net₀⟩
  · rw [(perform_unasked h).2]
    exact Nat.le_succ _
  · rw [(perform_follows h).count, ← (asks_approaches h).count]
    exact count_ensure_le c₀ limit net₀

/-- A socket that is opened is a new one. -/
theorem perform_succeeded (h : operation.attempt? deadline c net = some (some (.ok s))) :
    s = net.connections.length ∧ (perform operation deadline c net).2.2.connections.length =
      net.connections.length + 1 := by
  rw [Operation.attempt?] at h
  rcases hasks : operation.asks deadline c net with _ | ⟨c₀, limit, net₀⟩
  · simp [hasks] at h
  · rw [hasks] at h
    obtain ⟨hs, hcount⟩ := (ensure_attempt c₀ limit net₀).2.2 s h
    rw [(perform_follows hasks).count, hcount, ← (asks_approaches hasks).count]
    exact ⟨hs, rfl⟩

/-- On an open socket nothing else is opened, unless that is what is asked for. -/
theorem perform_spared (hc : c.isConnected) (hr : operation.isRenewal = false) (deadline : Nat)
    (net : Network) :
    operation.attempt? deadline c net = none ∧
      (perform operation deadline c net).2.2.connections.length = net.connections.length := by
  obtain ⟨s, hs⟩ := Option.isSome_iff_exists.mp hc
  rw [Operation.attempt?]
  rcases h : operation.asks deadline c net with _ | ⟨c₀, limit, net₀⟩
  · exact ⟨rfl, (perform_unasked h).2⟩
  · obtain ⟨rfl, rfl⟩ := (asks_approaches h).direct hr
    refine ⟨by simp [attempt?, hs], ?_⟩
    rw [(perform_follows h).count, ensure_of_open hs]

/-- An attempt that fails leaves a channel closed, and nothing is written. -/
theorem perform_failed (h : Attempt.Fails (operation.attempt? deadline c net)) :
    (perform operation deadline c net).2.1.isConnected = false ∧
      (perform operation deadline c net).2.1.generation = c.generation ∧
      (perform operation deadline c net).2.2.written = net.written := by
  rw [Operation.attempt?] at h
  rcases hasks : operation.asks deadline c net with _ | ⟨c₀, limit, net₀⟩
  · obtain ⟨attempt, hnone, -⟩ := h
    simp [hasks] at hnone
  · rw [hasks] at h
    have happroaches := asks_approaches hasks
    have hunopened := (ensure_attempt c₀ limit net₀).2.1.mp h
    obtain ⟨hc, hn⟩ := (perform_follows hasks).unopened hunopened
    have hopens := ensure_opens c₀ limit net₀
    rw [hc, hn]
    generalize c₀.ensure limit net₀ = asked at hopens hunopened ⊢
    obtain ⟨r, c₁, net₁⟩ := asked
    cases hopens with
    | kept s => exact absurd rfl (hunopened s)
    | opened => exact absurd rfl (hunopened _)
    | unopened hs _ _ quiet =>
      refine ⟨?_, happroaches.generation, quiet.written.trans happroaches.written⟩
      rw [isConnected, hs]
      rfl

/-- A wait that is given up leaves the socket open. -/
theorem perform_waiting (hop : operation.isReceive) (hs : c.socket = some s)
    (h : (c.read s (operation.limit deadline c net) net).1 = none) :
    (perform operation deadline c net).2.1.socket = some s := by
  obtain ⟨c₁, net₁, hread, hsocket⟩ : ∃ c₁ net₁,
      c.read s (operation.limit deadline c net) net = (none, c₁, net₁) ∧ c₁.socket = some s := by
    have hsame := (read_same s (operation.limit deadline c net) c net).1
    generalize c.read s _ net = result at h hsame ⊢
    obtain ⟨r, c₁, net₁⟩ := result
    obtain rfl : r = none := h
    exact ⟨c₁, net₁, rfl, hsame.trans hs⟩
  cases operation with
  | ensure | reconnect | connect _ | close | send _ => cases hop
  | receive | poll =>
    simp only [Operation.limit] at hread
    simp only [perform, receive, poll, ensure_of_open hs, hread]
    exact hsocket
  | receiveUnless token =>
    simp only [Operation.limit] at hread
    simp only [perform, receiveUnless, ensure_of_open hs, hread]
    split
    · exact hs
    · exact hsocket

section Receiving

variable {α : Type} {m : Manner α} {held : List UInt8} {r : Outcome α} {f : Failure}

theorem not_spares_error : ¬ m.Spares (some (.error f)) := by
  rintro (h | h)
  · cases h
  · cases hm : m.spare <;> simp [hm] at h

/-- A failure that is told of is the one for which the socket was given up. -/
theorem eq_of_loss {f' : Failure} (h : m.loss f' = some (.error f)) : f' = f := by
  rw [Manner.loss] at h
  split at h
  · cases hm : m.spare <;> simp [hm] at h
  · cases h
    rfl

/-- A failure leaves the socket open just if it is that of an envelope. -/
theorem Receives.connected_iff (h : Receives m held c net (some (.error f)) c' net') :
    c'.isConnected ↔ ∃ cause, f = .protocol (.envelope cause) := by
  generalize hr : some (Except.error f) = r at h
  cases h with
  | unopened hs _ hu =>
    rcases hu with hu | ⟨fault, rfl⟩
    · exact absurd (hr ▸ hu) not_spares_error
    · cases hr
      simp [isConnected, hs]
  | frame ensured body _ _ _ _ _ =>
    have hsocket := ensured.socket_eq
    have hcause := envelope_of_outcome (Option.some.inj hr).symm
    simp only [isConnected, hsocket, Option.isSome_some, true_iff]
    exact hcause
  | kept _ _ _ hspare _ => exact absurd (hr ▸ hspare) not_spares_error
  | dropped _ _ _ hf _ _ _ =>
    obtain rfl := eq_of_loss hr.symm
    have haligned := hf.isAligned
    simp only [isConnected, Option.isSome_none, Bool.false_eq_true, false_iff]
    rintro ⟨cause, rfl⟩
    cases haligned

/-- What is answered for a lost connection tells of it. -/
theorem loss_manner (hop : operation.isReceive) (f : Failure) :
    operation.manner.loss f ≠ none ∧ operation.manner.loss f ≠ some (.ok (some .stopped)) := by
  cases operation with
  | ensure | reconnect | connect _ | close | send _ => cases hop
  | receive | receiveUnless _ =>
    simp [Operation.manner, Manner.loss, Manner.map, Manner.plain, Manner.stoppable]
  | poll =>
    simp only [Operation.manner, Manner.loss, Manner.map, Manner.polling, Bool.true_and]
    split <;> simp [given]

theorem perform_stopped (h : Stands c net) (hop : operation.isReceive) (hs : c.socket = some s)
    (deadline : Nat)
    (hr : (perform operation deadline c net).1 = none ∨
      (perform operation deadline c net).1 = some (.ok (some .stopped))) :
    (perform operation deadline c net).2.1.socket = some s := by
  obtain ⟨held, ha⟩ := h.holds
  have hreceives := perform_receives deadline net hop ha (by simp [hs])
  generalize perform operation deadline c net = result at hr hreceives ⊢
  obtain ⟨answer, c', net'⟩ := result
  cases hreceives with
  | unopened hn => exact absurd (hn.symm.trans hs) (by simp)
  | frame ensured | kept ensured =>
    obtain ⟨rfl, rfl, rfl⟩ := ensured.of_open hs
    exact hs
  | dropped =>
    obtain ⟨hnone, hstopped⟩ := loss_manner hop _
    rcases hr with hr | hr
    · exact absurd hr hnone
    · exact absurd hr hstopped

end Receiving

theorem Stands.lives (h : Stands c net) (operation : Operation) (deadline : Nat) :
    Lives operation deadline c net (Channel.perform operation deadline c net).1
      (Channel.perform operation deadline c net).2.1
      (Channel.perform operation deadline c net).2.2 where
  generation := perform_generation operation deadline c net
  count := perform_count operation deadline c net
  succeeded _ := perform_succeeded
  spared hc hr := perform_spared hc hr deadline net
  failed := perform_failed
  fired token hop hfired := by
    subst hop
    simp only [Channel.perform, Channel.receiveUnless, hfired, if_true]
    exact ⟨rfl, rfl, rfl⟩
  waiting s hop hs := perform_waiting hop hs
  stopped s hop hs := perform_stopped h hop hs deadline
  refused hop f hf := by
    obtain ⟨held, ha, hidle⟩ : ∃ held, c.assembler.Holds held ∧ (c.socket = none → held = []) := by
      cases hs : c.socket with
      | none => exact ⟨[], h.idle hs, fun _ => rfl⟩
      | some s => exact ⟨_, h.held s hs, by simp⟩
    have hreceives := perform_receives deadline net hop ha hidle
    rw [hf] at hreceives
    exact hreceives.connected_iff

theorem run_generation (turns : List Turn) (c : Channel) (net : Network) :
    (run turns c net).2.1.generation =
      c.generation + ((attempts turns c net).map Attempt.sockets).sum := by
  induction turns generalizing c net with
  | nil => rfl
  | cons turn turns ih =>
    have hfirst := perform_generation turn.operation turn.deadline c (net.waitUntil turn.start)
    simp only [run, attempts, List.map_cons, List.sum_cons]
    rw [ih, hfirst, Nat.add_assoc]

/-- However a channel is used and its servers behave, its generation is the number of the sockets
that it has opened, a closed channel holds nothing of a frame, and the next operation, whichever it
is, opens and gives up sockets as it should. -/
theorem run_lives (turns : List Turn) (endpoint : Endpoint) (connectTimeout readTimeout : Nat)
    (start : Network) :
    let first : Channel := { endpoint, connectTimeout, readTimeout }
    let (_, c, net) := run turns first start
    c.generation = ((attempts turns first start).map Attempt.sockets).sum ∧
      (c.isConnected = false → c.phase = .awaitingHeader ∧ c.buffered = 0) ∧
      ∀ turn : Turn, let now := net.waitUntil turn.start
        let (answer, c', net') := perform turn.operation turn.deadline c now
        Lives turn.operation turn.deadline c now answer c' net' := by
  have hstart : Stands { endpoint, connectTimeout, readTimeout } start :=
    stands_of_closed rfl Frame.Assembler.holds_initial start
  have hstands := hstart.run turns
  have hgeneration := run_generation turns { endpoint, connectTimeout, readTimeout } start
  rw [Nat.zero_add] at hgeneration
  refine ⟨hgeneration, ?_, ?_⟩
  · intro hclosed
    obtain ⟨header, -, hnew⟩ := (hstands.idle (by simpa [isConnected] using hclosed)).as_new
    rw [phase, buffered, hnew]
    exact ⟨rfl, rfl⟩
  · intro turn
    exact (hstands.wait turn.start).lives turn.operation turn.deadline

end Gallows.Channel
