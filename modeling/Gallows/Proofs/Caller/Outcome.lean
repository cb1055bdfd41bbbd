import Gallows.Proofs.Caller.Pairing
import Gallows.Proofs.Channel.Hearing
import Gallows.Proofs.Channel.Stance
import Gallows.Proofs.Document.Replies

/-!
What a call comes to once its request has been sent. The bytes that are there in time decide it: a
frame is the reply and leaves the socket as it was; anything else is a failure of a kind of its own,
and the socket is given up.
-/
namespace Gallows

namespace Channel

variable {c c' : Channel} {net net' : Network} {s : Socket}

/-- Whether a channel has given up a socket that it had as `c`: nothing is left of a frame, and
whatever is sent next goes onto another socket. -/
structure Dropped (s : Socket) (c c' : Channel) (net' : Network) : Prop where
  socket : c'.socket = none
  phase : c'.phase = .awaitingHeader
  buffered : c'.buffered = 0
  generation : c'.generation = c.generation
  closed : net'.IsClosed s
  renewed : ∀ (e : Envelope.Client) (time deadline : Nat) (next : Channel) (net : Network),
    c'.send e deadline (net'.waitUntil time) = (some (.ok ()), next, net) →
      next.socket = some net'.connections.length ∧ next.generation = c.generation + 1

theorem dropped_close {a : Frame.Assembler} (ha : a.Holds [])
    (hlt : s < net.connections.length) :
    Dropped s c { c with socket := none, assembler := a } (net.close s) := by
  obtain ⟨header, -, rfl⟩ := ha.as_new
  refine ⟨rfl, rfl, rfl, rfl, Network.isClosed_close hlt, ?_⟩
  intro e time deadline next net' hsend
  have hsends := send_sends e { c with socket := none, assembler := { header } } deadline
    ((net.close s).waitUntil time)
  rw [hsend] at hsends
  cases hsends with
  | sent _ _ ensured _ =>
    cases ensured with
    | kept _ hopen => cases hopen
    | opened => exact ⟨rfl, rfl⟩

/-- A socket on which something has just been sent. -/
theorem Stands.sent (h : Stands c net) {e : Envelope.Client} {deadline : Nat}
    (hsend : c.send e deadline net = (some (.ok ()), c', net')) :
    ∃ s, c'.socket = some s ∧ c'.assembler.Holds (Frame.split (net'.received s)).2 ∧
      net'.Live s ∧ s < net'.connections.length := by
  have hstands := h.send e deadline
  have hensured := h.ensure deadline
  rw [hsend] at hstands
  simp only [Channel.send] at hsend
  split at hsend
  · cases hsend
  · rename_i frame _
    rcases he : c.ensure deadline net with ⟨_ | ⟨f | s⟩, c₁, net₁⟩
    · simp [he] at hsend
    · simp [he] at hsend
    · rw [he] at hensured
      simp only [he] at hsend
      rcases hw : net₁.write s frame with ⟨fault | _, net₂⟩
      · simp [hw] at hsend
      · simp only [hw] at hsend
        cases hsend
        have hs := (opens_of_ensure he).socket_eq
        have hlive := Network.live_of_write (hensured.tidy s hs) (congrArg Prod.fst hw)
        rw [hw] at hlive
        exact ⟨s, hs, hstands.held s hs, hlive,
          Nat.lt_of_lt_of_eq (Nat.lt_succ_self s) (hstands.newest s hs)⟩

end Channel

namespace Caller
open Channel (Dropped heard)

variable {call : Call} {c c' : Caller} {sent : Channel} {net net₁ net₂ : Network} {s : Socket}
  {held : List UInt8}

/-- Whether a caller still has the channel that it sent its request on, and holds nothing of a
frame. Bytes in the header's buffer do not count then. -/
def Keeps (sent : Channel) (c c' : Caller) : Prop :=
  ∃ header : ByteArray, header.size = Frame.headerSize ∧
    c' = { c with channel := { sent with assembler := { header } } }

/-- Whether a call fails with `f`, which is a failure of this kind. -/
def Fails {α : Type} (result : Outcome α) (f : Failure) (kind : Failure.Kind) : Prop :=
  result = some (.error f) ∧ f.kind = kind

/-- Whether a call comes to what the body of a frame means. -/
structure Answered (call : Call) (body : List UInt8) (result : Outcome call.reply.El) : Prop where
  malformed : ∀ cause, Wire.decode (α := Envelope.Server) body.toByteArray = .error cause →
    Fails result (.protocol (.envelope cause)) .protocol
  rejected : ∀ e : Envelope.Server, Wire.decode body.toByteArray = .ok e → e.status ≠ 2000 →
    Fails result (.rejected (.ofCode e.status) e.message) .server ∧
      (Status.ofCode e.status).code = e.status
  accepted : ∀ e : Envelope.Server, Wire.decode body.toByteArray = .ok e → e.status = 2000 →
    (∀ v, call.reply.ofPayload e.payload = .ok v → result = some (.ok v)) ∧
      ∀ cause, call.reply.ofPayload e.payload = .error cause →
        Fails result (.reply call.command (.document cause)) .deserialization
  blank : ∀ e : Envelope.Server, Wire.decode body.toByteArray = .ok e → e.status = 2000 →
    call.reply ∈ Reply.all → e.payload.data.toList.all Document.isBlankByte →
      result = some (.ok call.reply.default)

theorem answered_outcome (call : Call) (body : List UInt8) :
    Answered call body (some (call.outcome body)) := by
  have hsuccess : Envelope.Server.successCode = 2000 := rfl
  have houtcome {e : Envelope.Server} (hd : Wire.decode body.toByteArray = .ok e) :
      call.outcome body = e.answer call.command call.reply := by
    simp only [Call.outcome, Frame.decodeBody, hd]
    rfl
  refine ⟨?_, ?_, ?_, ?_⟩
  · intro cause hd
    refine ⟨?_, rfl⟩
    simp only [Call.outcome, Frame.decodeBody, hd]
    rfl
  · intro e hd hstatus
    refine ⟨⟨?_, rfl⟩, Status.code_ofCode e.status⟩
    simp only [houtcome hd, Envelope.Server.answer, Envelope.Server.isSuccess, hsuccess, hstatus,
      decide_false, Bool.false_eq_true, if_false]
  · intro e hd hstatus
    simp only [houtcome hd, Envelope.Server.answer, Envelope.Server.isSuccess, hsuccess, hstatus,
      decide_true, if_true, Except.mapError]
    refine ⟨fun v hv => by rw [hv], fun cause hc => ⟨?_, rfl⟩⟩
    rw [hc]
  · intro e hd hstatus hreply hblank
    simp only [houtcome hd, Envelope.Server.answer, Envelope.Server.isSuccess, hsuccess, hstatus,
      decide_true, if_true, Except.mapError, Reply.ofPayload_of_blank hreply hblank]

/-- How a call ends whose request was sent, by what is heard on the channel then. -/
inductive Finishes (call : Call) (c : Caller) (sent : Channel) (s : Socket) (limit : Nat) :
    Outcome Envelope.Server → Outcome call.reply.El → Caller → Network → Prop
  | answered {r : Except Failure Envelope.Server} {c' : Caller} {net' : Network}
      (hr : ∀ f, r = .error f → f.isAligned) (keeps : Keeps sent c c') :
      Finishes call c sent s limit (some r)
        (some (r.bind fun e => e.answer call.command call.reply)) c' net'
  | failed {f : Failure} {c' : Caller} {net' : Network} (hf : f.isAligned = false)
      (dropped : Dropped s sent c'.channel net') :
      Finishes call c sent s limit (some (.error f)) (some (.error f)) c' net'
  | late {c' : Caller} {net' : Network} (dropped : Dropped s sent c'.channel net') :
      Finishes call c sent s limit none (some (.error (c.noReply call.command))) c' net'
  | abandoned {c' : Caller} {net' : Network} (h : call.deadline < limit) :
      Finishes call c sent s limit none none c' net'

theorem call_finishes
    (hsend : c.channel.send call.envelope call.deadline net = (some (.ok ()), sent, net₁))
    (hs : sent.socket = some s) (ha : sent.assembler.Holds held) (hlive : net₁.Live s)
    (hlt : s < net₁.connections.length) :
    let limit := net₁.now + c.requestTimeout
    let (result, c', net') := c.call call.command call.payload call.reply call.deadline net
    Finishes call c sent s limit (heard held (net₁.arriving s (min limit call.deadline))) result c'
      net' := by
  intro limit
  have hheard : (sent.receive (min limit call.deadline) net₁).1 =
      heard held (net₁.arriving s (min limit call.deadline)) := Channel.receive_heard hs ha hlive
  have hleaves := Channel.receive_leaves hs ha (min limit call.deadline) net₁
  rcases hreceive : sent.receive (min limit call.deadline) net₁ with ⟨r, channel, net'⟩
  rw [hreceive] at hheard hleaves
  rw [← hheard]
  simp only [limit] at hreceive ⊢
  simp only [Caller.call, Call.envelope_eq, hsend, hreceive]
  cases hleaves with
  | waiting ha' count =>
    by_cases hlimit : net₁.now + c.requestTimeout ≤ call.deadline
    · simp only [hlimit, if_true, Channel.close, hs]
      exact .late (Channel.dropped_close ha'.reset (by rwa [count]))
    · simp only [hlimit, if_false]
      exact .abandoned (Nat.lt_of_not_le hlimit)
  | @kept r a _ hr ha' =>
    obtain ⟨header, hsize, rfl⟩ := ha'.as_new
    have hkeeps : Keeps sent c { c with channel := { sent with assembler := { header } } } :=
      ⟨header, hsize, rfl⟩
    rcases r with f | e
    · exact .answered hr hkeeps
    · exact .answered hr hkeeps
  | dropped hf ha' count => exact .failed hf (Channel.dropped_close ha' (by rwa [count]))

/-- What a call on the channel `sent` comes to that gives up at `limit`, by the stream that it has
of its socket until then. -/
structure Concludes (call : Call) (c : Caller) (sent : Channel) (s : Socket) (limit : Nat)
    (stream : List UInt8) (ending : Option (Except Fault Unit)) (result : Outcome call.reply.El)
    (c' : Caller) (net' : Network) : Prop where
  socket : sent.socket = some s
  replied : ∀ body rest, stream = Frame.frame body ++ rest → body.length ≤ Frame.sizeLimit →
    Answered call body result ∧ Keeps sent c c'
  tooLarge : ∀ header rest, stream = header ++ rest → Frame.Oversized header →
    Fails result (.protocol (.frame (.tooLarge (Frame.spelled header) Frame.sizeLimit)))
      .protocol ∧ Dropped s sent c'.channel net'
  ended : Frame.Pending stream → ending = some (.ok ()) →
    (∃ expected received,
      Fails result (.protocol (.frame (.closed expected received))) .connection) ∧
        Dropped s sent c'.channel net'
  broken : ∀ fault, Frame.Pending stream → ending = some (.error fault) →
    Fails result (.transport fault) .io ∧ Dropped s sent c'.channel net'
  late : Frame.Pending stream → ending = none → limit ≤ call.deadline →
    Fails result (c.noReply call.command) .timeout ∧ Dropped s sent c'.channel net'
  settled : limit ≤ call.deadline → result ≠ none

theorem Finishes.dropped {limit : Nat} {f : Failure} {result : Outcome call.reply.El}
    (h : Finishes call c sent s limit (some (.error f)) result c' net) (hf : f.isAligned = false) :
    result = some (.error f) ∧ Dropped s sent c'.channel net := by
  cases h with
  | answered hr _ => simp [hf] at hr
  | failed _ dropped => exact ⟨rfl, dropped⟩

theorem Finishes.concludes {limit : Nat} {source : Source} {result : Outcome call.reply.El}
    (h : Finishes call c sent s limit (heard held source) result c' net₂)
    (hs : sent.socket = some s) :
    Concludes call c sent s limit (held ++ source.bytes) source.ending result c' net₂ where
  socket := hs
  replied body rest hb hl := by
    rw [Channel.heard_frame hl hb] at h
    generalize hr : Except.mapError _ _ = r at h
    cases h with
    | answered _ keeps =>
      have hresult : r.bind (fun e => e.answer call.command call.reply) = call.outcome body := by
        rw [← hr]
        rfl
      rw [hresult]
      exact ⟨answered_outcome call body, keeps⟩
    | failed hf _ =>
      rw [← Channel.Manner.outcome_plain] at hr
      rw [(Channel.isAligned_of_outcome hr).1] at hf
      cases hf
  tooLarge header rest hb ho := by
    rw [Channel.heard_oversized ho hb] at h
    obtain ⟨hr, hdropped⟩ := h.dropped rfl
    exact ⟨⟨hr, rfl⟩, hdropped⟩
  ended hp he := by
    rw [Channel.heard_pending hp, he] at h
    obtain ⟨hr, hdropped⟩ := h.dropped rfl
    exact ⟨⟨_, _, hr, rfl⟩, hdropped⟩
  broken fault hp he := by
    rw [Channel.heard_pending hp, he] at h
    obtain ⟨hr, hdropped⟩ := h.dropped rfl
    exact ⟨⟨hr, rfl⟩, hdropped⟩
  late hp he hlimit := by
    rw [Channel.heard_pending hp, he] at h
    generalize hnone : Option.map _ _ = r at h
    obtain rfl : r = none := hnone.symm
    cases h with
    | late dropped => exact ⟨⟨rfl, rfl⟩, dropped⟩
    | abandoned hlt => omega
  settled hlimit := by
    generalize heard held source = r at h
    cases h with
    | abandoned hlt => omega
    | _ => simp

/-- Whatever was done with a channel before, and whatever the server does, a call whose request was
sent comes to what the bytes mean that are there by its time limit. -/
theorem call_concludes {endpoint : Endpoint} {connectTimeout readTimeout requestTimeout : Nat}
    {turns : List Channel.Turn} {start : Network} {records : List Channel.Record}
    {channel : Channel} {result : Outcome call.reply.El}
    (hrun : Channel.run turns { endpoint, connectTimeout, readTimeout } start =
      (records, channel, net))
    (hsend : channel.send call.envelope call.deadline net = (some (.ok ()), sent, net₁))
    (hcall : ({ channel, requestTimeout } : Caller).call call.command call.payload call.reply
      call.deadline net = (result, c', net₂)) :
    ∃ s, let limit := net₁.now + requestTimeout
      let source := net₁.arriving s (min limit call.deadline)
      let stream := (Frame.split (net₁.received s)).2 ++ source.bytes
      Concludes call { channel, requestTimeout } sent s limit stream source.ending result c'
        net₂ := by
  have hstart : Channel.Stands { endpoint, connectTimeout, readTimeout } start :=
    Channel.stands_of_closed rfl Frame.Assembler.holds_initial start
  have hstands := hstart.run turns
  rw [hrun] at hstands
  obtain ⟨s, hs, ha, hlive, hlt⟩ := hstands.sent hsend
  have hfinishes := call_finishes (c := { channel, requestTimeout }) hsend hs ha hlive hlt
  rw [hcall] at hfinishes
  exact ⟨s, hfinishes.concludes hs⟩

/-- A reply that turns the request down, of which half a header was read before the request. -/
theorem call_concludes_rejected :
    let start : Network := {
      servers := [{
        endpoint := ⟨"h", 1⟩
        receptions := [.accept 0 [.send ⟨#[0, 0]⟩, .await 1, .pause 20,
          .send ⟨#[0, 7, 8, 0x85, 0x20, 18, 2, 110, 111, 9]⟩] []] }] }
    let call : Call := ⟨.joinRoom, Request.noDocument, Reply.joinRoom, 0, 1000⟩
    let (_, channel, net) := Channel.run [⟨.receive, 0, 5⟩] { endpoint := ⟨"h", 1⟩ } start
    let (r, sent, _) := channel.send call.envelope call.deadline net
    let c : Caller := { channel, requestTimeout := 50 }
    let (result, c', _) := c.call call.command call.payload call.reply call.deadline net
    r = some (.ok ()) ∧ result = some (.error (.rejected .roomNotFound "no")) ∧
      Keeps sent c c' := by
  intro start call
  rcases hrun : Channel.run [⟨.receive, 0, 5⟩] { endpoint := ⟨"h", 1⟩ } start with
    ⟨records, channel, net⟩
  rcases hsend : channel.send call.envelope call.deadline net with ⟨r, sent, net₁⟩
  rcases hcall : ({ channel, requestTimeout := 50 } : Caller).call call.command call.payload
    call.reply call.deadline net with ⟨result, c', net₂⟩
  simp only [hsend, hcall]
  have hvalues : let (_, channel, net) :=
        Channel.run [⟨.receive, 0, 5⟩] { endpoint := ⟨"h", 1⟩ } start
      let (r, sent, net) := channel.send call.envelope call.deadline net
      r = some (.ok ()) ∧ sent.socket = some 0 ∧
        (Frame.split (net.received 0)).2 ++ (net.arriving 0 (min (net.now + 50) 1000)).bytes =
          Frame.frame [8, 0x85, 0x20, 18, 2, 110, 111] ++ [9] := by
    simp only [start, call]
    cbv
  simp only [hrun, hsend] at hvalues
  obtain ⟨rfl, hsocket, hstream⟩ := hvalues
  obtain ⟨s, hconcludes⟩ := call_concludes hrun hsend hcall
  obtain rfl : 0 = s := Option.some.inj (hsocket.symm.trans hconcludes.socket)
  obtain ⟨hanswered, hkeeps⟩ := hconcludes.replied _ _ hstream (by decide)
  have hd : Wire.decode (α := Envelope.Server)
      [8, 0x85, 0x20, 18, 2, 110, 111].toByteArray = .ok ⟨4101, "no", .empty⟩ := by
    cbv
  exact ⟨rfl, (hanswered.rejected _ hd (by decide)).1.1, hkeeps⟩

end Caller
end Gallows
