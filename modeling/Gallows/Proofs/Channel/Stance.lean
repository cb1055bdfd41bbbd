import Gallows.Proofs.Channel.Deeds
import Gallows.Proofs.Channel.Run
import Gallows.Proofs.Channel.Steps

/-!
Where a channel stands on the network, whatever the servers do. Its open socket is the newest
connection, and it holds what is left there of the frames. A channel that loses no time with failed
attempts has read all that there was on every socket that it left.
-/
namespace Gallows.Channel
open Network (Quiet Still Reads Opened)

variable {net net' : Network} {c c' : Channel} {s : Socket}

/-- Whether a channel may go on from where it is. -/
structure Stands (c : Channel) (net : Network) : Prop where
  idle : c.socket = none → c.assembler.Holds []
  newest : ∀ s, c.socket = some s → s + 1 = net.connections.length
  held : ∀ s, c.socket = some s → c.assembler.Holds (Frame.split (net.received s)).2
  tidy : ∀ s, c.socket = some s → net.Tidy s

theorem stands_of_closed (hs : c.socket = none) (ha : c.assembler.Holds []) (net : Network) :
    Stands c net :=
  ⟨fun _ => ha, by simp [hs], by simp [hs], by simp [hs]⟩

theorem Stands.holds (h : Stands c net) : ∃ held, c.assembler.Holds held := by
  cases hs : c.socket with
  | none => exact ⟨[], h.idle hs⟩
  | some s => exact ⟨_, h.held s hs⟩

theorem Stands.wait (h : Stands c net) (time : Nat) : Stands c (net.waitUntil time) :=
  ⟨h.idle, h.newest, h.held, h.tidy⟩

theorem Stands.close (h : Stands c net) : Stands (c.close net).1 (c.close net).2 := by
  obtain ⟨held, ha⟩ := h.holds
  exact stands_of_closed rfl ha.reset _

/-- A new socket is read from its beginning. -/
theorem Stands.opened (h : Stands c net) (hs : c.socket = none)
    (opened : Opened c.endpoint net net') :
    Stands { c with
      socket := some net.connections.length
      assembler := c.assembler.reset
      generation := c.generation + 1 } net' := by
  refine ⟨by simp, ?_, ?_, ?_⟩
  · intro s hnew
    rw [← Option.some.inj hnew, opened.count]
  · intro s hnew
    rw [← Option.some.inj hnew, opened.received, Network.received_of_le (Nat.le_refl _),
      Frame.split_pending Frame.pending_nil]
    exact (h.idle hs).reset
  · intro s hnew
    rw [← Option.some.inj hnew]
    exact opened.tidy

theorem Stands.opens {r : Outcome Socket} (h : Stands c net) (ho : Opens c net r c' net') :
    Stands c' net' := by
  cases ho with
  | kept => exact h
  | opened hs _ opened => exact h.opened hs opened
  | unopened hs => exact stands_of_closed hs (h.idle hs) net'

theorem Stands.writes {new : List UInt8} (h : Stands c net) (hs : c.socket = some s)
    (writes : Network.Writes s new net net') : Stands c net' := by
  refine ⟨h.idle, ?_, ?_, ?_⟩
  · intro t ht
    rw [h.newest t ht, writes.length]
  · intro t ht
    rw [writes.received]
    exact h.held t ht
  · intro t ht
    obtain rfl := Option.some.inj (hs.symm.trans ht)
    exact writes.tidy (h.tidy s hs)

theorem Stands.sends {e : Envelope.Client} {r : Outcome Unit} (h : Stands c net)
    (hs : c.socket = some s) (hsends : Sends e c net r c' net') : Stands c' net' := by
  cases hsends with
  | refused => exact h
  | failed _ _ _ hn | waiting _ _ hn => simp [hs] at hn
  | sent _ _ ensured writes =>
    obtain ⟨rfl, rfl, rfl⟩ := ensured.of_open hs
    exact h.writes hs writes
  | broken _ _ ensured _ _ writes =>
    obtain ⟨rfl, rfl, rfl⟩ := ensured.of_open hs
    exact (h.writes hs writes).close

theorem Sends.quiet {e : Envelope.Client} {r : Outcome Unit} (hs : c.socket = some s)
    (hsends : Sends e c net r c' net') :
    net'.received = net.received ∧ net'.connections.length = net.connections.length := by
  cases hsends with
  | refused => exact ⟨rfl, rfl⟩
  | failed _ _ _ hn | waiting _ _ hn => simp [hs] at hn
  | sent _ _ ensured writes =>
    obtain ⟨rfl, rfl, rfl⟩ := ensured.of_open hs
    exact ⟨writes.received, writes.length⟩
  | @broken _ _ _ net₂ _ _ ensured _ _ writes =>
    obtain ⟨rfl, rfl, rfl⟩ := ensured.of_open hs
    have hstill := still_close c net₂
    exact ⟨hstill.received.trans writes.received, hstill.count.trans writes.length⟩

/-- Reading on goes on from what is left of the frames. -/
theorem Stands.reads {new : List UInt8} {a : Frame.Assembler} (h : Stands c net)
    (hs : c.socket = some s) (reads : Reads s new net net')
    (ha : a.Holds (Frame.split ((Frame.split (net.received s)).2 ++ new)).2) :
    Stands { c with assembler := a } net' := by
  refine ⟨by simp [hs], ?_, ?_, ?_⟩
  · intro t ht
    rw [reads.length]
    exact h.newest t ht
  · intro t ht
    obtain rfl : s = t := Option.some.inj (hs.symm.trans ht)
    rw [reads.received, Function.update_self, Frame.split_append]
    exact ha
  · intro t ht
    obtain rfl : s = t := Option.some.inj (hs.symm.trans ht)
    exact (reads.coming (h.tidy s hs)).1

theorem Stands.receives {α : Type} {m : Manner α} {r : Outcome α} (h : Stands c net)
    (hs : c.socket = some s) (hr : Receives m (Frame.split (net.received s)).2 c net r c' net') :
    Stands c' net' := by
  cases hr with
  | unopened hn => simp [hs] at hn
  | frame ensured body new reads hb hl ha =>
    obtain ⟨rfl, rfl, rfl⟩ := ensured.of_open hs
    have hl' : body.data.toList.length ≤ Frame.sizeLimit := by simpa using hl
    refine h.reads hs reads ?_
    rwa [hb, Frame.split_frame hl']
  | kept ensured new reads _ ha =>
    obtain ⟨rfl, rfl, rfl⟩ := ensured.of_open hs
    refine h.reads hs reads ?_
    rwa [Frame.split_pending ha.pending]
  | dropped _ _ _ _ _ _ ha => exact stands_of_closed rfl ha net'

/-! Where the operations leave a channel that may go on. -/

theorem Stands.ensure (h : Stands c net) (deadline : Nat) :
    Stands (c.ensure deadline net).2.1 (c.ensure deadline net).2.2 :=
  h.opens (ensure_opens c deadline net)

theorem Stands.reconnect (h : Stands c net) (deadline : Nat) :
    Stands (c.reconnect deadline net).2.1 (c.reconnect deadline net).2.2 := h.close.ensure deadline

theorem Stands.connect (h : Stands c net) (endpoint : Endpoint) (deadline : Nat) :
    Stands (c.connect endpoint deadline net).2.1 (c.connect endpoint deadline net).2.2 := by
  have helsewhere : Stands { c with endpoint } net := ⟨h.idle, h.newest, h.held, h.tidy⟩
  exact helsewhere.reconnect deadline

theorem send_of_ensure {e : Envelope.Client} {frame : ByteArray} {deadline : Nat}
    (hf : Frame.encode e = .ok frame) (he : c.ensure deadline net = (some (.ok s), c', net')) :
    c.send e deadline net = c'.send e deadline net' := by
  simp only [send, hf, he, ensure_of_open (opens_of_ensure he).socket_eq]

theorem Stands.send (h : Stands c net) (e : Envelope.Client) (deadline : Nat) :
    Stands (c.send e deadline net).2.1 (c.send e deadline net).2.2 := by
  cases hf : Frame.encode e with
  | error cause =>
    simp only [Channel.send, hf]
    exact h
  | ok frame =>
    have hensured := h.ensure deadline
    rcases he : c.ensure deadline net with ⟨_ | ⟨f | s⟩, c₁, net₁⟩ <;> rw [he] at hensured
    · simp only [Channel.send, hf, he]
      exact hensured
    · simp only [Channel.send, hf, he]
      exact hensured
    · rw [send_of_ensure hf he]
      exact hensured.sends (opens_of_ensure he).socket_eq (send_sends e c₁ deadline net₁)

/-- A read that is given up, or that fails while the frames go on, leaves a channel from where it
may go on; and so does closing behind any other. -/
theorem Stands.read {r : Outcome Envelope.Server} {deadline : Nat} (h : Stands c net)
    (hs : c.socket = some s) (hr : c.read s deadline net = (r, c', net')) :
    (∃ held, c'.assembler.Holds held) ∧
      ((∀ f, r = some (.error f) → f.isAligned) → Stands c' net') := by
  obtain ⟨a, hc, hprogress⟩ := read_progress s deadline net (h.held s hs)
  rw [hr] at hc hprogress
  obtain rfl : c' = _ := hc
  cases hprogress with
  | waiting new reads ha =>
    refine ⟨⟨_, ha⟩, fun _ => h.reads hs reads ?_⟩
    rwa [Frame.split_pending ha.pending]
  | frame new reads body hb hl ha =>
    refine ⟨⟨_, ha⟩, fun _ => h.reads hs reads ?_⟩
    rwa [hb, Frame.split_frame (by simpa using hl)]
  | lost new reads hf ha =>
    refine ⟨⟨_, ha⟩, fun haligned => ?_⟩
    have hstill := haligned _ rfl
    rw [hf.isAligned] at hstill
    cases hstill

theorem Stands.fail {α : Type} {f : Failure} {held : List UInt8} (ha : c.assembler.Holds held)
    (h : f.isAligned → Stands c net) :
    Stands (fail (α := α) c f net).2.1 (fail (α := α) c f net).2.2 := by
  rw [Channel.fail]
  by_cases hf : f.isAligned
  · rw [if_pos hf]
    exact h hf
  · rw [if_neg hf]
    exact stands_of_closed rfl ha.reset _

theorem Stands.receive (h : Stands c net) (deadline : Nat) :
    Stands (c.receive deadline net).2.1 (c.receive deadline net).2.2 := by
  have hensured := h.ensure deadline
  rw [Channel.receive]
  rcases he : c.ensure deadline net with ⟨_ | ⟨f | s⟩, c₁, net₁⟩ <;> rw [he] at hensured
  · exact hensured
  · exact hensured
  · rcases hr : c₁.read s deadline net₁ with ⟨_ | ⟨f | e⟩, c₂, net₂⟩ <;>
      obtain ⟨⟨held, ha⟩, hstands⟩ := hensured.read (opens_of_ensure he).socket_eq hr
    · simp only [hr]
      exact hstands (by simp)
    · simp only [hr]
      exact .fail ha fun hf => hstands (by simpa using hf)
    · simp only [hr]
      exact hstands (by simp)

theorem Stands.poll (h : Stands c net) (deadline : Nat) :
    Stands (c.poll deadline net).2.1 (c.poll deadline net).2.2 := by
  have hensured := h.ensure deadline
  rw [Channel.poll]
  rcases he : c.ensure deadline net with ⟨_ | ⟨f | s⟩, c₁, net₁⟩ <;> rw [he] at hensured
  · exact hensured
  · exact hensured
  · rcases hr : c₁.read s (min (net₁.now + c₁.readTimeout) deadline) net₁ with
      ⟨_ | ⟨f | e⟩, c₂, net₂⟩ <;>
      obtain ⟨⟨held, ha⟩, hstands⟩ := hensured.read (opens_of_ensure he).socket_eq hr
    · simp only [hr]
      exact hstands (by simp)
    · simp only [hr]
      split
      · exact stands_of_closed rfl ha.reset _
      · exact .fail ha fun hf => hstands (by simpa using hf)
    · simp only [hr]
      exact hstands (by simp)

theorem Stands.receiveUnless (h : Stands c net) (token : Token) (deadline : Nat) :
    Stands (c.receiveUnless token deadline net).2.1 (c.receiveUnless token deadline net).2.2 := by
  have hensured := h.ensure (token.limit deadline)
  rw [Channel.receiveUnless]
  split
  · exact h
  · rcases he : c.ensure (token.limit deadline) net with ⟨_ | ⟨f | s⟩, c₁, net₁⟩ <;>
      rw [he] at hensured
    · exact hensured
    · exact hensured
    · rcases hr : c₁.read s (token.limit deadline) net₁ with ⟨_ | ⟨f | e⟩, c₂, net₂⟩ <;>
        obtain ⟨⟨held, ha⟩, hstands⟩ := hensured.read (opens_of_ensure he).socket_eq hr
      · simp only [hr]
        exact hstands (by simp)
      · simp only [hr]
        exact .fail ha fun hf => hstands (by simpa using hf)
      · simp only [hr]
        exact hstands (by simp)

theorem Stands.perform (h : Stands c net) (operation : Operation) (deadline : Nat) :
    Stands (perform operation deadline c net).2.1 (perform operation deadline c net).2.2 := by
  cases operation with
  | ensure => exact h.ensure deadline
  | reconnect => exact h.reconnect deadline
  | connect endpoint => exact h.connect endpoint deadline
  | close => exact h.close
  | send e => exact h.send e deadline
  | receive => exact h.receive deadline
  | poll => exact h.poll deadline
  | receiveUnless token => exact h.receiveUnless token deadline

/-- Whatever is done with a channel, it may go on from where it is. -/
theorem Stands.run (h : Stands c net) (turns : List Turn) :
    Stands (run turns c net).2.1 (run turns c net).2.2 := by
  induction turns generalizing c net with
  | nil => exact h
  | cons turn turns ih => exact ih ((h.wait turn.start).perform turn.operation turn.deadline)

/-! What a channel has read of the streams that it was offered. -/

variable {endpoint : Endpoint} {first : Socket} {wire : Socket → List UInt8}

/-- Whether a channel has read the streams of the sockets from `first` on, one behind the other:
from every socket but the newest it has read the whole stream. -/
structure HasRead (first : Socket) (wire : Socket → List UInt8) (net : Network) : Prop where
  whole : ∀ s, first ≤ s → s + 1 < net.connections.length → net.received s = wire s
  part : ∀ s, first ≤ s → s + 1 = net.connections.length → net.received s <+: wire s

/-- Whether a channel reads the streams of the sockets from `first` on, and has left none of them
before its end. -/
structure Attends (endpoint : Endpoint) (first : Socket) (wire : Socket → List UInt8) (c : Channel)
    (net : Network) : Prop extends Stands c net where
  endpoint_eq : c.endpoint = endpoint
  first_le : first ≤ net.connections.length
  ahead : ∀ k, net.offer endpoint k = wire (net.connections.length + k)
  opened : ∀ s, c.socket = some s → first ≤ s ∧ net.received s ++ net.coming s = wire s
  left : ∀ s, first ≤ s → s < net.connections.length → c.socket ≠ some s → net.received s = wire s

/-- The first socket that a channel reads from, and what is on the sockets from then on: what was
there is to come on the open one, and what the server offers on later ones. -/
def firstSocket (c : Channel) (net : Network) : Socket := c.socket.getD net.connections.length

/-- See `firstSocket`. -/
def wireOf (c : Channel) (net : Network) (s : Socket) : List UInt8 :=
  if s < net.connections.length then net.received s ++ net.coming s
  else net.offer c.endpoint (s - net.connections.length)

theorem Stands.attends (h : Stands c net) :
    Attends c.endpoint (c.firstSocket net) (c.wireOf net) c net := by
  refine ⟨h, rfl, ?_, ?_, ?_, ?_⟩
  · cases hs : c.socket with
    | none => simp [firstSocket, hs]
    | some s =>
      have hnew := h.newest s hs
      simp only [firstSocket, hs, Option.getD_some]
      exact Nat.le_of_lt (Nat.lt_of_succ_le (Nat.le_of_eq hnew))
  · intro k
    simp [wireOf]
  · intro s hs
    have hnew : s < net.connections.length := Nat.lt_of_succ_le (Nat.le_of_eq (h.newest s hs))
    simp [firstSocket, wireOf, hs, hnew]
  · intro s hfirst hlt hne
    exfalso
    cases hs : c.socket with
    | none =>
      simp only [firstSocket, hs, Option.getD_none] at hfirst
      exact Nat.not_lt.mpr hfirst hlt
    | some t =>
      have hnew := h.newest t hs
      simp only [firstSocket, hs, Option.getD_some] at hfirst
      apply hne
      rw [hs]
      congr 1
      exact Nat.le_antisymm hfirst (by rw [← hnew] at hlt; exact Nat.le_of_lt_succ hlt)

theorem Attends.wait (h : Attends endpoint first wire c net) (time : Nat) :
    Attends endpoint first wire c (net.waitUntil time) :=
  ⟨h.toStands.wait time, h.endpoint_eq, h.first_le, h.ahead, h.opened, h.left⟩

theorem Attends.received_prefix (h : Attends endpoint first wire c net) (hfirst : first ≤ s)
    (hlt : s < net.connections.length) : net.received s <+: wire s := by
  by_cases hs : c.socket = some s
  · exact ⟨net.coming s, (h.opened s hs).2⟩
  · rw [h.left s hfirst hlt hs]

theorem Attends.hasRead (h : Attends endpoint first wire c net) : HasRead first wire net := by
  constructor
  · intro s hfirst hlt
    apply h.left s hfirst (Nat.lt_of_succ_lt hlt)
    intro hs
    rw [h.newest s hs] at hlt
    exact Nat.lt_irrefl _ hlt
  · intro s hfirst hlast
    exact h.received_prefix hfirst (Nat.lt_of_succ_le (Nat.le_of_eq hlast))

/-- What was read is still the same when nothing was read meanwhile, and no socket was opened that
is read from. -/
theorem HasRead.of_quiet (h : Attends endpoint first wire c net) (hs : c.socket = none)
    (quiet : Quiet net net') (count : net'.connections.length ≤ net.connections.length + 1) :
    HasRead first wire net' := by
  have hleft (s : Socket) (hfirst : first ≤ s) (hlt : s < net.connections.length) :
      net'.received s = wire s := by
    rw [quiet.received]
    exact h.left s hfirst hlt (by simp [hs])
  constructor
  · intro s hfirst hlt
    exact hleft s hfirst (Nat.lt_of_succ_lt_succ (Nat.lt_of_lt_of_le hlt count))
  · intro s hfirst hlast
    by_cases hlt : s < net.connections.length
    · rw [hleft s hfirst hlt]
    · rw [quiet.received, Network.received_of_le (Nat.le_of_not_lt hlt)]
      exact List.nil_prefix

theorem Attends.opens (h : Attends endpoint first wire c net)
    (ho : Opens c net (some (.ok s)) c' net') : Attends endpoint first wire c' net' := by
  have hstands := h.toStands.opens ho
  cases ho with
  | kept => exact h
  | opened hs _ opened =>
    have hsame : net'.received = net.received := opened.received
    refine ⟨hstands, h.endpoint_eq, ?_, ?_, ?_, ?_⟩
    · rw [opened.count]
      exact Nat.le_succ_of_le h.first_le
    · intro k
      have hoffer := opened.offer k
      rw [h.endpoint_eq] at hoffer
      rw [hoffer, h.ahead, opened.count, Nat.add_right_comm]
      rfl
    · intro t ht
      obtain rfl := Option.some.inj ht
      have hcoming := opened.coming
      rw [h.endpoint_eq, h.ahead] at hcoming
      rw [hsame, Network.received_of_le (Nat.le_refl _), hcoming]
      exact ⟨h.first_le, rfl⟩
    · intro t hfirst hlt hne
      have hold : t ≠ net.connections.length := fun he => hne (by rw [he])
      rw [opened.count] at hlt
      rw [hsame]
      exact h.left t hfirst (Nat.lt_of_le_of_ne (Nat.le_of_lt_succ hlt) hold) (by simp [hs])
  | unopened _ hr => exact absurd rfl (hr s)

theorem Attends.hasRead_opens {r : Outcome Socket} (h : Attends endpoint first wire c net)
    (ho : Opens c net r c' net') : HasRead first wire net' := by
  have hstands := h.toStands.opens ho
  cases ho with
  | kept => exact h.hasRead
  | opened hs course opened => exact (h.opens (.opened hs course opened)).hasRead
  | unopened hs _ _ quiet count => exact .of_quiet h hs quiet count

theorem Attends.writes {new : List UInt8} (h : Attends endpoint first wire c net)
    (hs : c.socket = some s) (writes : Network.Writes s new net net') :
    Attends endpoint first wire c net' := by
  have hoffer : net'.offer = net.offer := Network.offer_of_world writes.world
  refine ⟨h.toStands.writes hs writes, h.endpoint_eq, ?_, ?_, ?_, ?_⟩
  · rw [writes.length]
    exact h.first_le
  · rw [hoffer, writes.length]
    exact h.ahead
  · rw [writes.received, writes.coming]
    exact h.opened
  · rw [writes.received, writes.length]
    exact h.left

theorem HasRead.close (h : HasRead first wire net) (c : Channel) :
    HasRead first wire (c.close net).2 := by
  have hstill := still_close c net
  constructor
  · rw [hstill.received, hstill.count]
    exact h.whole
  · rw [hstill.received, hstill.count]
    exact h.part

/-- An envelope that was sent leaves a channel where it was; one that was not costs it at most the
socket. -/
theorem Attends.sends {e : Envelope.Client} {r : Outcome Unit}
    (h : Attends endpoint first wire c net) (hs : c.socket = some s)
    (hsends : Sends e c net r c' net') :
    HasRead first wire net' ∧
      (r = some (.ok ()) → Attends endpoint first wire c' net' ∧ c'.socket = some s) := by
  cases hsends with
  | refused => exact ⟨h.hasRead, by simp⟩
  | failed _ _ _ hn | waiting _ _ hn => simp [hs] at hn
  | sent _ _ ensured writes =>
    obtain ⟨rfl, rfl, rfl⟩ := ensured.of_open hs
    exact ⟨(h.writes hs writes).hasRead, fun _ => ⟨h.writes hs writes, hs⟩⟩
  | broken _ _ ensured _ _ writes =>
    obtain ⟨rfl, rfl, rfl⟩ := ensured.of_open hs
    exact ⟨(h.writes hs writes).hasRead.close c, by simp⟩

theorem Attends.reads {new : List UInt8} {a : Frame.Assembler}
    (h : Attends endpoint first wire c net) (hs : c.socket = some s)
    (reads : Reads s new net net') (hstands : Stands { c with assembler := a } net') :
    Attends endpoint first wire { c with assembler := a } net' := by
  have hoffer : net'.offer = net.offer := Network.offer_of_world reads.world
  obtain ⟨hfirst, hwire⟩ := h.opened s hs
  refine ⟨hstands, h.endpoint_eq, ?_, ?_, ?_, ?_⟩
  · rw [reads.length]
    exact h.first_le
  · rw [hoffer, reads.length]
    exact h.ahead
  · intro t ht
    obtain rfl : s = t := Option.some.inj (hs.symm.trans ht)
    have hcoming := (reads.coming (h.tidy s hs)).2
    rw [reads.received, Function.update_self, List.append_assoc, ← hcoming]
    exact ⟨hfirst, hwire⟩
  · intro t ht hlt hne
    have hts : t ≠ s := fun he => hne (by rw [he]; exact hs)
    rw [reads.length] at hlt
    rw [reads.received, Function.update_of_ne hts]
    exact h.left t ht hlt hne

/-- A socket is left when there is nothing more to come on it. -/
theorem Attends.leaves {new : List UInt8} {a : Frame.Assembler} {net₂ : Network}
    (h : Attends endpoint first wire c net) (hs : c.socket = some s)
    (reads : Reads s new net net₂) (hend : net₂.coming s = []) (still : Still net₂ net')
    (ha : a.Holds []) :
    Attends endpoint first wire { c with socket := none, assembler := a } net' := by
  have hoffer : net'.offer = net.offer :=
    Network.offer_of_world (still.world.trans reads.world)
  have hlen : net'.connections.length = net.connections.length := still.count.trans reads.length
  obtain ⟨hfirst, hwire⟩ := h.opened s hs
  have hcoming := (reads.coming (h.tidy s hs)).2
  rw [hend, List.append_nil] at hcoming
  refine ⟨stands_of_closed rfl ha net', h.endpoint_eq, ?_, ?_, by simp, ?_⟩
  · rw [hlen]
    exact h.first_le
  · rw [hoffer, hlen]
    exact h.ahead
  · intro t ht hlt _
    rw [hlen] at hlt
    rw [still.received, reads.received]
    by_cases hts : t = s
    · rw [hts, Function.update_self, ← hcoming]
      exact hwire
    · rw [Function.update_of_ne hts]
      apply h.left t ht hlt
      rw [hs]
      exact fun he => hts (Option.some.inj he).symm

theorem Attends.hasRead_reads {new : List UInt8} {net₂ : Network}
    (h : Attends endpoint first wire c net) (hs : c.socket = some s)
    (reads : Reads s new net net₂) (still : Still net₂ net') : HasRead first wire net' := by
  have hlen : net'.connections.length = net.connections.length := still.count.trans reads.length
  obtain ⟨hfirst, hwire⟩ := h.opened s hs
  have hcoming := (reads.coming (h.tidy s hs)).2
  have hnew := h.newest s hs
  constructor
  · intro t ht hlt
    rw [hlen] at hlt
    have hts : t ≠ s := by
      rintro rfl
      rw [hnew] at hlt
      exact Nat.lt_irrefl _ hlt
    rw [still.received, reads.received, Function.update_of_ne hts]
    exact h.hasRead.whole t ht hlt
  · intro t ht hlast
    have hts : t = s := Nat.succ_inj.mp (hlast.trans (hlen.trans hnew.symm))
    rw [hts, still.received, reads.received, Function.update_self, ← hwire, hcoming,
      ← List.append_assoc]
    exact List.prefix_append _ _

end Gallows.Channel
