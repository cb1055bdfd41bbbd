import Gallows.Proofs.Channel.Alignment
import Gallows.Proofs.Frame.Streams

/-!
What a channel writes to its sockets. It is the frames of the envelopes that it has sent, whole and
one behind the other. A part of a frame may stand behind them; then the socket has been left, and
nothing is written to it any more.
-/
namespace Gallows.Channel

open Network (Quiet Writes)

/-- An envelope that a channel was asked to send. -/
structure Post where
  envelope : Envelope.Client
  /-- The socket that was open then, or else the next to be opened. -/
  socket : Socket
  answer : Answer
  /-- The socket that was open afterwards. -/
  left : Option Socket

/-- The socket that a channel writes to: the open one, or else the next to be opened. -/
def target (c : Channel) (net : Network) : Socket := c.socket.getD net.connections.length

/-- What an operation was to send, and what came of it. -/
def post? (operation : Operation) (c : Channel) (net : Network) (answer : Answer) (c' : Channel) :
    Option Post :=
  match operation with
  | .send e => some ⟨e, c.target net, answer, c'.socket⟩
  | _ => none

/-- What the operations of a run were to send. -/
def posts : List Turn → Channel → Network → List Post
  | [], _, _ => []
  | turn :: turns, c, net =>
    let now := net.waitUntil turn.start
    let (answer, c', net') := perform turn.operation turn.deadline c now
    (post? turn.operation c now answer c').toList ++ posts turns c' net'

/-- The bytes of an envelope's frame, and none if the envelope is too large for one. -/
def frameOf (e : Envelope.Client) : List UInt8 :=
  match Frame.encode e with
  | .ok frame => frame.data.toList
  | .error _ => []

namespace Post

/-- Whether a write was begun: it succeeded, or it is the write that failed. -/
def isBegun (p : Post) : Bool :=
  match p.answer with
  | some (.ok _) | some (.error (.transport _)) => true
  | _ => false

/-- The writes that were begun on a socket. -/
def begunOn (s : Socket) (posts : List Post) : List Post :=
  posts.filter fun p => p.socket = s && p.isBegun

/-- Whether an envelope has been sent, on a socket that stays open. -/
structure Sent (p : Post) : Prop where
  answer : p.answer = some (.ok none)
  left : p.left = some p.socket
  fits : ∃ frame, Frame.encode p.envelope = .ok frame

/-- Whether the write of an envelope has failed, and no socket is open any more. -/
structure Broken (p : Post) : Prop where
  answer : ∃ fault, p.answer = some (.error (.transport fault))
  left : p.left = none
  fits : ∃ frame, Frame.encode p.envelope = .ok frame

variable {p : Post} {posts : List Post} {s : Socket}

theorem Sent.isBegun (h : p.Sent) : p.isBegun = true := by
  rw [Post.isBegun, h.answer]

theorem Broken.isBegun (h : p.Broken) : p.isBegun = true := by
  obtain ⟨fault, ha⟩ := h.answer
  rw [Post.isBegun, ha]

theorem begunOn_append_same (hs : p.socket = s) (hp : p.isBegun = true) :
    begunOn s (posts ++ [p]) = begunOn s posts ++ [p] := by
  simp [begunOn, hs, hp]

theorem begunOn_append_other (h : p.socket = s → p.isBegun = false) :
    begunOn s (posts ++ [p]) = begunOn s posts := by
  by_cases hs : p.socket = s
  · simp [begunOn, hs, h hs]
  · simp [begunOn, hs]

end Post

open Post (begunOn)

variable {start net net' : Network} {c c' : Channel} {prior : List Post} {s socket : Socket}
  {log : Log}

/-- What was written to a socket since `start`. -/
inductive Outbound (start net : Network) (posts : List Post) (c : Channel) (s : Socket) : Prop
  /-- Everything that was written was sent. -/
  | whole (sent : ∀ p ∈ begunOn s posts, p.Sent)
      (written : net.written s =
        start.written s ++ (begunOn s posts).flatMap fun p => frameOf p.envelope)
  /-- The last write failed after a part of its frame. The socket was left then, and it is not to be
  opened again. -/
  | cut (before : List Post) (last : Post) (begun : begunOn s posts = before ++ [last])
      (sent : ∀ p ∈ before, p.Sent) (broken : last.Broken) (part : List UInt8)
      (begins : part <+: frameOf last.envelope)
      (written : net.written s =
        start.written s ++ before.flatMap (fun p => frameOf p.envelope) ++ part)
      (closed : c.socket ≠ some s) (old : s < net.connections.length)

/-- Whether a channel's socket is one of those on the network. -/
def IsThere (c : Channel) (net : Network) : Prop :=
  ∀ s, c.socket = some s → s < net.connections.length

/-- On the way from one state to the other no socket comes to be open but one that is opened
then. -/
structure Moves (c : Channel) (net : Network) (c' : Channel) (net' : Network) : Prop where
  length : net.connections.length ≤ net'.connections.length
  socket : ∀ s, c'.socket = some s →
    c.socket = some s ∨ net.connections.length ≤ s ∧ s < net'.connections.length

/-- And nothing is written. -/
structure Spares (c : Channel) (net : Network) (c' : Channel) (net' : Network) : Prop
    extends Moves c net c' net' where
  written : net'.written = net.written

theorem Moves.isThere (h : Moves c net c' net') (hc : c.IsThere net) : c'.IsThere net' := by
  intro s ho
  rcases h.socket s ho with ho | ⟨-, hlt⟩
  · exact Nat.lt_of_lt_of_le (hc s ho) h.length
  · exact hlt

theorem Moves.trans {c'' : Channel} {net'' : Network} (h : Moves c net c' net')
    (h' : Moves c' net' c'' net'') : Moves c net c'' net'' := by
  refine ⟨Nat.le_trans h.length h'.length, ?_⟩
  intro s ho
  rcases h'.socket s ho with ho | ⟨hle, hlt⟩
  · exact (h.socket s ho).imp_right fun ⟨hle, hlt⟩ => ⟨hle, Nat.lt_of_lt_of_le hlt h'.length⟩
  · exact Or.inr ⟨Nat.le_trans h.length hle, hlt⟩

theorem moves_of_same (hl : net'.connections.length = net.connections.length)
    (hs : c'.socket = c.socket) : Moves c net c' net' :=
  ⟨Nat.le_of_eq hl.symm, fun _ ho => Or.inl (hs ▸ ho)⟩

theorem Spares.trans {c'' : Channel} {net'' : Network} (h : Spares c net c' net')
    (h' : Spares c' net' c'' net'') : Spares c net c'' net'' :=
  ⟨h.toMoves.trans h'.toMoves, h'.written.trans h.written⟩

theorem spares_of_quiet (h : Quiet net net') : Spares c net c net' :=
  ⟨⟨h.length, fun _ => Or.inl⟩, h.written⟩

theorem Ensured.spares {r : Outcome Socket} (h : Ensured c net r c' net') :
    Spares c net c' net' := by
  cases h with
  | kept => exact spares_of_quiet (Network.quiet_refl net)
  | failed _ _ _ quiet | waiting _ _ quiet => exact spares_of_quiet quiet
  | opened _ _ quiet length =>
    refine ⟨⟨quiet.length, ?_⟩, quiet.written⟩
    intro s ho
    obtain rfl := Option.some.inj ho
    exact Or.inr ⟨Nat.le_refl _, Nat.lt_of_lt_of_eq (Nat.lt_succ_self _) length.symm⟩

theorem spares_close (c : Channel) (net : Network) :
    Spares c net (c.close net).1 (c.close net).2 := by
  have hquiet := (still_close c net).toQuiet
  refine ⟨⟨hquiet.length, ?_⟩, hquiet.written⟩
  intro s ho
  cases ho

/-- Receiving writes nothing. -/
theorem Receives.spares {α : Type} {m : Manner α} {held : List UInt8} {r : Outcome α}
    (h : Receives m held c net r c' net') : Spares c net c' net' := by
  cases h with
  | unopened _ quiet _ => exact spares_of_quiet quiet
  | frame ensured _ _ reads _ _ _ | kept ensured _ reads _ _ =>
    exact ensured.spares.trans ⟨moves_of_same reads.length rfl, reads.written⟩
  | dropped ensured _ reads _ still _ _ =>
    refine ensured.spares.trans ⟨⟨?_, ?_⟩, still.written.trans reads.written⟩
    · exact Nat.le_of_eq (still.count.trans reads.length).symm
    · intro s ho
      cases ho

theorem Sends.moves {e : Envelope.Client} {r : Outcome Unit} (h : Sends e c net r c' net') :
    Moves c net c' net' := by
  cases h with
  | refused => exact moves_of_same rfl rfl
  | failed _ _ _ _ quiet | waiting _ _ _ quiet => exact (spares_of_quiet quiet).toMoves
  | sent _ _ ensured writes => exact ensured.spares.toMoves.trans (moves_of_same writes.length rfl)
  | broken _ _ ensured _ _ writes _ _ =>
    exact (ensured.spares.toMoves.trans (moves_of_same writes.length rfl)).trans
      (spares_close _ _).toMoves

/-- Every operation but sending writes nothing. -/
theorem perform_spares (h : Aligned start net log c) {operation : Operation}
    (hop : ∀ e, operation ≠ .send e) (deadline : Nat) :
    Spares c net (perform operation deadline c net).2.1 (perform operation deadline c net).2.2 := by
  by_cases hr : operation.isReceive
  · obtain ⟨held, ha, hidle⟩ := h.holds
    exact (perform_receives deadline net hr ha hidle).spares
  · cases operation with
    | ensure => exact (ensured c deadline net).spares
    | reconnect =>
      exact (spares_close c net).trans (ensured (c.close net).1 deadline (c.close net).2).spares
    | connect endpoint =>
      have hmoved : Spares c net { c with endpoint } net := ⟨moves_of_same rfl rfl, rfl⟩
      exact (hmoved.trans (spares_close { c with endpoint } net)).trans
        (ensured ({ c with endpoint }.close net).1 deadline ({ c with endpoint }.close net).2).spares
    | close => exact spares_close c net
    | send e => exact absurd rfl (hop e)
    | receive | poll | receiveUnless _ => exact absurd rfl hr

theorem Outbound.spares (h : Outbound start net prior c s) (hs : Spares c net c' net') :
    Outbound start net' prior c' s := by
  cases h with
  | whole sent written => exact .whole sent (by rw [hs.written, written])
  | cut before last begun sent broken part begins written closed old =>
    refine .cut before last begun sent broken part begins (by rw [hs.written, written]) ?_
      (Nat.lt_of_lt_of_le old hs.length)
    intro ho
    rcases hs.socket s ho with ho | ⟨hle, -⟩
    · exact closed ho
    · exact absurd old (Nat.not_lt.mpr hle)

/-- An envelope that was not begun to be written adds nothing. -/
theorem Outbound.unbegun (h : Outbound start net prior c s) {p : Post}
    (hp : p.socket = s → p.isBegun = false) : Outbound start net (prior ++ [p]) c s := by
  have hsame : Post.begunOn s (prior ++ [p]) = Post.begunOn s prior :=
    Post.begunOn_append_other hp
  cases h with
  | whole sent written => exact .whole (hsame ▸ sent) (hsame ▸ written)
  | cut before last begun sent broken part begins written closed old =>
    exact .cut before last (hsame ▸ begun) sent broken part begins written closed old

/-- What is written to another socket does not count. -/
theorem Outbound.other {part : List UInt8} (h : Outbound start net prior c s)
    (writes : Writes socket part net net') (hs : s ≠ socket) : Outbound start net' prior c s := by
  have hsame : net'.written s = net.written s := by
    rw [writes.written, Function.update_of_ne hs]
  cases h with
  | whole sent written => exact .whole sent (hsame.trans written)
  | cut before last begun sent broken part begins written closed old =>
    exact .cut before last begun sent broken part begins (hsame.trans written) closed
      (Nat.lt_of_lt_of_eq old writes.length.symm)

/-- To a socket that is open, or not there yet, only whole frames have been written. -/
theorem Outbound.whole_of_target (h : Outbound start net prior c (c.target net)) :
    (∀ p ∈ begunOn (c.target net) prior, p.Sent) ∧ net.written (c.target net) =
      start.written (c.target net) ++
        (begunOn (c.target net) prior).flatMap fun p => frameOf p.envelope := by
  cases h with
  | whole sent written => exact ⟨sent, written⟩
  | cut _ _ _ _ _ _ _ _ closed old =>
    cases hs : c.socket with
    | some socket => simp [target, hs] at closed
    | none => simp [target, hs] at old

theorem Ensured.target_eq (h : Ensured c net (some (.ok socket)) c' net') :
    c.target net = socket := by
  cases h with
  | kept _ hs => simp [target, hs]
  | opened _ hs _ _ => simp [target, hs]

theorem frameOf_eq {e : Envelope.Client} {frame : ByteArray} (h : Frame.encode e = .ok frame) :
    frameOf e = frame.data.toList := by
  rw [frameOf, h]

/-- Sending writes a whole frame to the socket that it keeps, or a part of one to a socket that it
leaves. -/
theorem Outbound.sends {e : Envelope.Client} {r : Outcome Unit}
    (h : Outbound start net prior c s) (hsends : Sends e c net r c' net') (hc : c.IsThere net) :
    Outbound start net' (prior ++ [⟨e, c.target net, .ofUnit r, c'.socket⟩]) c' s := by
  cases hsends with
  | refused cause he => exact h.unbegun fun _ => rfl
  | failed fault frame he hs quiet =>
    exact (h.spares (spares_of_quiet quiet)).unbegun fun _ => rfl
  | waiting frame he hs quiet =>
    exact (h.spares (spares_of_quiet quiet)).unbegun fun _ => rfl
  | @sent socket _ net₁ _ frame he ensured writes =>
    have htarget := ensured.target_eq
    by_cases hs : s = socket
    · obtain rfl : c.target net = s := htarget.trans hs.symm
      obtain ⟨hall, hwritten⟩ := h.whole_of_target
      have hsent : Post.Sent ⟨e, c.target net, .ofUnit (some (.ok ())), c'.socket⟩ :=
        ⟨rfl, by rw [ensured.socket_eq, htarget], frame, he⟩
      have hbegun : Post.begunOn (c.target net) (prior ++ [_]) =
          Post.begunOn (c.target net) prior ++ [_] :=
        Post.begunOn_append_same rfl hsent.isBegun
      refine .whole ?_ ?_
      · rw [hbegun, List.forall_mem_append]
        exact ⟨hall, List.forall_mem_singleton.mpr hsent⟩
      · rw [hbegun, writes.written, ← hs, Function.update_self, ensured.spares.written, hwritten]
        simp [frameOf_eq he]
    · refine ((h.spares ensured.spares).other writes hs).unbegun fun hmine => ?_
      exact absurd (hmine.symm.trans htarget) hs
  | @broken socket c₁ net₁ net₂ frame he ensured part hpart writes fault hw =>
    have htarget := ensured.target_eq
    have hclose := spares_close c₁ net₂
    by_cases hs : s = socket
    · obtain rfl : c.target net = s := htarget.trans hs.symm
      obtain ⟨hall, hwritten⟩ := h.whole_of_target
      have hbroken : Post.Broken ⟨e, c.target net,
          .ofUnit (α := Unit) (some (.error (.transport fault))), (c₁.close net₂).1.socket⟩ :=
        ⟨⟨fault, rfl⟩, rfl, frame, he⟩
      refine .cut _ _ (Post.begunOn_append_same rfl hbroken.isBegun) hall hbroken part
        (by rwa [frameOf_eq he]) ?_ (by simp [close]) ?_
      · rw [hclose.written, writes.written, ← hs, Function.update_self, ensured.spares.written,
          hwritten]
      · have hlt := ensured.spares.isThere hc socket ensured.socket_eq
        rw [← writes.length, ← hs] at hlt
        exact Nat.lt_of_lt_of_le hlt hclose.length
    · refine (((h.spares ensured.spares).other writes hs).spares hclose).unbegun fun hmine => ?_
      exact absurd (hmine.symm.trans htarget) hs

/-- What is to hold of every socket while a run goes on. -/
structure Tracked (start net : Network) (posts : List Post) (c : Channel) : Prop where
  isThere : c.IsThere net
  outbound : ∀ s, Outbound start net posts c s

theorem Tracked.perform (h : Tracked start net prior c) (ha : Aligned start net log c)
    (operation : Operation) (deadline : Nat) :
    let (answer, c', net') := perform operation deadline c net
    Tracked start net' (prior ++ (post? operation c net answer c').toList) c' := by
  by_cases hop : ∃ e, operation = .send e
  · obtain ⟨e, rfl⟩ := hop
    have hs := send_sends e c deadline net
    exact ⟨hs.moves.isThere h.isThere, fun s => (h.outbound s).sends hs h.isThere⟩
  · have hs := perform_spares ha (fun e he => hop ⟨e, he⟩) deadline
    have hnone (answer : Answer) (c' : Channel) : post? operation c net answer c' = none := by
      cases operation <;> first | rfl | exact absurd ⟨_, rfl⟩ hop
    simp only [hnone, Option.toList_none, List.append_nil]
    exact ⟨hs.isThere h.isThere, fun s => (h.outbound s).spares hs⟩

theorem Tracked.run (h : Tracked start net prior c) (ha : Aligned start net log c)
    (turns : List Turn) :
    let (_, c', net') := run turns c net
    Tracked start net' (prior ++ posts turns c net) c' := by
  induction turns generalizing prior log c net with
  | nil =>
    rw [posts, List.append_nil]
    exact h
  | cons turn turns ih =>
    have hwait := Network.still_waitUntil net turn.start
    have h₁ : Tracked start (net.waitUntil turn.start) prior c :=
      ⟨h.isThere, fun s => (h.outbound s).spares (spares_of_quiet hwait.toQuiet)⟩
    have ha₁ := ha.quiet hwait.toQuiet
    have h₂ := h₁.perform ha₁ turn.operation turn.deadline
    obtain ⟨entry, -, ha₂⟩ := ha₁.perform turn.operation turn.deadline
    have h₃ := ih h₂ ha₂
    rw [List.append_assoc] at h₃
    exact h₃

theorem tracked_start (endpoint : Endpoint) (connectTimeout readTimeout : Nat) (start : Network) :
    Tracked start start [] { endpoint, connectTimeout, readTimeout } where
  isThere s ho := by cases ho
  outbound s := .whole (List.forall_mem_nil _) (List.append_nil _).symm

/-- However a channel is used and its servers behave, what was written to a socket is the frames of
the envelopes that were sent on it, in order and each whole, and maybe a part of the frame of one
more, behind which the socket is left for good. An envelope that is too large for a frame is
refused, and changes nothing. -/
theorem run_writes_whole_frames (turns : List Turn) (endpoint : Endpoint)
    (connectTimeout readTimeout : Nat) (net : Network) :
    (∀ s, Outbound net (run turns { endpoint, connectTimeout, readTimeout } net).2.2
      (posts turns { endpoint, connectTimeout, readTimeout } net)
      (run turns { endpoint, connectTimeout, readTimeout } net).2.1 s) ∧
    ∀ (e : Envelope.Client) (deadline : Nat) (c : Channel) (net : Network),
      Frame.sizeLimit < (Wire.Message.encode e).size →
        c.send e deadline net =
          (some (.error (.protocol (.frame
            (.tooLarge (min (Wire.Message.encode e).size 0xffffffff) Frame.sizeLimit)))), c, net) := by
  constructor
  · exact ((tracked_start endpoint connectTimeout readTimeout net).run
      (aligned_start endpoint connectTimeout readTimeout net) turns).outbound
  · intro e deadline c net h
    rw [send, Frame.encode_of_large h]

end Gallows.Channel
