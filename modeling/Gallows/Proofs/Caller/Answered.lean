import Gallows.Proofs.Caller.Outcome
import Gallows.Proofs.Channel.Facing
import Gallows.Proofs.Channel.Resuming
import Gallows.Proofs.Network.Answering

/-!
Calls to a server that answers. A caller that waits for a second gets its reply; a caller that does
not wait at all never does, and gives up one socket after another.
-/
namespace Gallows

/-- Whether a server accepts within a second, takes whatever is written to it, and answers requests
with these bodies. -/
inductive Reception.Serves (bodies : List (List UInt8)) : Reception → Prop
  | accept {time : Nat} {script : List Act} {writes : List Sink.Step} (ht : time < 1000)
      (hw : ∀ step ∈ writes, step.Advances fun _ => false) (answers : Act.Answers 0 bodies script) :
      Serves bodies (.accept time script writes)

/-- Whether a server takes time to accept. -/
def Reception.Hesitates : Reception → Prop
  | .accept time _ _ => 0 < time
  | .refuse _ | .ignore => False

namespace Network

variable {net net' : Network} {s : Socket} {c : Connection} {a : Answer} {n start deadline : Nat}
  {script : List Act} {body next : List UInt8} {bodies : List (List UInt8)}

/-- Whether a request was just written to a socket, the answer to which is this body, with these
answers to come behind it. -/
structure Asked (net : Network) (s : Socket) (n : Nat) (body : List UInt8)
    (bodies : List (List UInt8)) : Prop where
  connection : ∃ c a script, net.connections[s]? = some c ∧ a.Carries body ∧
    Act.Answers (n + 1) bodies script ∧ c.Answers n a script net.now

theorem Asked.live (h : net.Asked s n body bodies) : net.Live s := by
  obtain ⟨c, a, script, hc, -, -, hanswers⟩ := h.connection
  refine ⟨c, hc, ?_, Nat.le_of_eq hanswers.touched⟩
  intro item hitem
  rw [hanswers.inbound] at hitem
  cases hitem

theorem tidy_of_getElem? (hc : net.connections[s]? = some c) (h : c.Tidy) : net.Tidy s := by
  intro d hd
  obtain rfl : c = d := Option.some.inj (hc.symm.trans hd)
  exact h

theorem Live.tidy (h : net.Live s) : net.Tidy s := by
  obtain ⟨c, hc, htidy, -⟩ := h
  exact tidy_of_getElem? hc htidy

/-- A server never answers at once. -/
theorem Asked.early (h : net.Asked s n body bodies) (hd : deadline ≤ net.now) :
    net.arriving s deadline = [] := by
  obtain ⟨c, a, script, hc, carries, -, hanswers⟩ := h.connection
  have hnow : max net.now (deadline - 1) = net.now := by omega
  rw [arriving_of_getElem? hc, hnow, hanswers.play_eq carries]
  exact hanswers.inbound

/-- A server answers within a second. -/
theorem Asked.late (h : net.Asked s n body bodies) (hd : net.now + 1000 ≤ deadline) :
    body.length ≤ Frame.sizeLimit ∧
      ∃ rest, (net.arriving s deadline).bytes = Frame.frame body ++ rest := by
  obtain ⟨c, a, script, hc, carries, -, hanswers⟩ := h.connection
  rw [arriving_of_getElem? hc]
  exact ⟨carries.size, hanswers.late carries (by omega)⟩

/-- What arrives in time is the front of all that is to come. -/
theorem coming_arriving (h : net.Live s) (deadline : Nat) :
    ∃ rest, net.coming s = (net.arriving s deadline).bytes ++ rest := by
  obtain ⟨c, hc, -, -⟩ := h
  have hplay : (c.play (max net.now (deadline - 1))).coming = c.coming := Connection.coming_play
  rw [coming_of_getElem? hc, arriving_of_getElem? hc, ← hplay, Connection.coming]
  exact ⟨_, rfl⟩

/-- Whether the server of a socket has answered `n` requests and is to answer more with these
bodies. -/
def Awaits (net : Network) (s : Socket) (n : Nat) (bodies : List (List UInt8)) : Prop :=
  ∃ c, net.connections[s]? = some c ∧ c.Awaits n bodies net.now

theorem Awaits.wait (h : net.Awaits s n bodies) (time : Nat) :
    (net.waitUntil time).Awaits s n bodies := by
  obtain ⟨c, hc, hawaits⟩ := h
  exact ⟨c, hc, hawaits.wait (Nat.le_max_left _ _)⟩

theorem Awaits.write (h : net.Awaits s n (body :: bodies)) {frame : ByteArray}
    {request : List UInt8} (hl : request.length ≤ Frame.sizeLimit)
    (hframe : frame.data.toList = Frame.frame request) :
    (net.write s frame).1 = .ok () ∧ (net.write s frame).2.Asked s n body bodies := by
  obtain ⟨c, hc, hawaits⟩ := h
  obtain ⟨hok, a, script, carries, more, hanswers⟩ := hawaits.write hl hframe
  simp only [Network.write, hc]
  exact ⟨hok, _, a, script, getElem?_modify_same hc _, carries, more, hanswers⟩

end Network

namespace Channel

variable {c : Channel} {net : Network} {s : Socket} {connection : Connection} {held : List UInt8}
  {n start deadline : Nat} {body next : List UInt8} {bodies : List (List UInt8)}

theorem readWithin_trails (ha : c.assembler.Holds held) (h : net.Trails s connection start)
    (ho : ∀ time, start ≤ time → (connection.play time).inbound.isOpen) (deadline fuel : Nat) :
    (readWithin s deadline fuel c net).2.2.Trails s connection start := by
  induction fuel generalizing c net held with
  | zero => exact h
  | succ fuel ih =>
    rcases hread : net.read s c.assembler.unfilled deadline with ⟨found, net₁⟩
    have htrails := h.read ho ha.unfilled hread
    rcases hd : digest c.assembler found with ⟨r, a⟩ | a
    · rw [readWithin_over hread hd]
      exact htrails
    · obtain ⟨d, _, hconnection, -, -, hdtrails⟩ := h
      have hlength := (List.getElem?_eq_some_iff.mp hconnection).1
      have htidy := Network.tidy_of_getElem? hconnection hdtrails.tidy
      obtain ⟨⟨held', ha'⟩, -⟩ := reading_on ha hlength htidy hread hd
      rw [readWithin_more hread hd]
      exact ih ha' htrails

/-- What receiving comes to when a whole frame arrives in time. -/
theorem receive_framed (hs : c.socket = some s) (ha : c.assembler.Holds []) (hlive : net.Live s)
    (hl : body.length ≤ Frame.sizeLimit) {rest : List UInt8}
    (hb : (net.arriving s deadline).bytes = Frame.frame body ++ rest) :
    ∃ a, c.receive deadline net =
        (some ((Frame.decodeBody body.toByteArray).mapError .protocol), { c with assembler := a },
          (c.read s deadline net).2.2) ∧ a.Holds [] ∧
      Network.Reads s (Frame.frame body) net (c.read s deadline net).2.2 := by
  have hheard : (c.read s deadline net).1 =
      some ((Frame.decodeBody body.toByteArray).mapError .protocol) := by
    have hread : (c.read s deadline net).1 = heard [] (net.arriving s deadline) :=
      readWithin_heard ha hlive (Nat.lt_succ_self _)
    rwa [heard_frame hl (by rwa [List.nil_append])] at hread
  obtain ⟨a, hc, hp⟩ := read_progress s deadline net ha
  simp only [receive, ensure_of_open hs]
  generalize c.read s deadline net = result at hc hp hheard ⊢
  obtain ⟨r, c', net'⟩ := result
  obtain rfl : c' = _ := hc
  dsimp only at hp hheard ⊢
  cases hp with
  | waiting => cases hheard
  | lost new reads hf =>
    -- A frame that cannot be read is no loss of the connection.
    have houtcome : Manner.plain.outcome body.toByteArray = .error _ :=
      (Manner.outcome_plain _).trans (Option.some.inj hheard).symm
    have haligned := (isAligned_of_outcome houtcome).1
    rw [hf.isAligned] at haligned
    cases haligned
  | frame new reads body' hb' hl' ha' =>
    rw [List.nil_append] at hb'
    obtain ⟨more, hmore⟩ := Network.coming_arriving hlive deadline
    obtain ⟨-, hcoming⟩ := reads.coming hlive.tidy
    rw [hmore, hb, hb', List.append_assoc] at hcoming
    have hsize : body.toByteArray.size ≤ Frame.sizeLimit := by simpa using hl
    obtain ⟨rfl, -⟩ := Frame.frame_append_inj hsize hl' (by simpa using hcoming)
    refine ⟨a, ?_, ha', by simpa [hb'] using reads⟩
    cases hd : Frame.decodeBody (α := Envelope.Server) body.toByteArray with
    | ok e => rfl
    | error cause =>
      have houtcome : Manner.plain.outcome body.toByteArray = .error (.protocol cause) := by
        rw [Manner.outcome_plain, hd]
        rfl
      simp [Except.mapError, fail, (isAligned_of_outcome houtcome).1]

/-- What receiving comes to when nothing arrives in time. -/
theorem receive_silent (hs : c.socket = some s) (ha : c.assembler.Holds []) (hlive : net.Live s)
    (h : net.arriving s deadline = []) :
    ∃ a net', c.receive deadline net = (none, { c with assembler := a }, net') ∧
      (∃ held, a.Holds held) ∧ net'.world = net.world ∧ net'.now ≤ max net.now deadline := by
  have hheard : (c.read s deadline net).1 = none := by
    have hread : (c.read s deadline net).1 = heard [] (net.arriving s deadline) :=
      readWithin_heard ha hlive (Nat.lt_succ_self _)
    rwa [h, heard_pending Frame.pending_nil] at hread
  have hnow : (c.read s deadline net).2.2.now ≤ max net.now deadline :=
    now_readWithin_le s deadline _ c net
  obtain ⟨a, hc, hp⟩ := read_progress s deadline net ha
  simp only [receive, ensure_of_open hs]
  generalize c.read s deadline net = result at hc hp hheard hnow ⊢
  obtain ⟨r, c', net'⟩ := result
  obtain rfl : c' = _ := hc
  dsimp only at hp hheard hnow ⊢
  cases hp with
  | waiting new reads ha' => exact ⟨a, net', rfl, ⟨_, ha'⟩, reads.world, hnow⟩
  | frame => cases hheard
  | lost => cases hheard

/-- Whether a channel is open to a server that has answered `n` requests, and is to answer more with
these bodies. -/
structure Expects (c : Channel) (net : Network) (s : Socket) (n : Nat)
    (bodies : List (List UInt8)) : Prop where
  socket : c.socket = some s
  holds : c.assembler.Holds []
  awaits : net.Awaits s n bodies

theorem Expects.wait (h : c.Expects net s n bodies) (time : Nat) :
    c.Expects (net.waitUntil time) s n bodies :=
  ⟨h.socket, h.holds, h.awaits.wait time⟩

/-- A request that fits into a frame is sent. -/
theorem Expects.send (h : c.Expects net s n (body :: bodies)) {e : Envelope.Client}
    (he : (Wire.Message.encode e).size ≤ Frame.sizeLimit) (deadline : Nat) :
    ∃ net', c.send e deadline net = (some (.ok ()), c, net') ∧ net'.Asked s n body bodies ∧
      net'.now = net.now ∧ net'.world = net.world := by
  obtain ⟨frame, hencode, hframe⟩ := Frame.encode_eq_ok he
  have hl : (Wire.Message.encode e).data.toList.length ≤ Frame.sizeLimit := by simpa using he
  obtain ⟨hok, hasked⟩ := h.awaits.write hl hframe
  exact ⟨_, send_of_written h.socket hencode hok deadline, hasked, net.now_write s frame,
    Network.world_write net s frame⟩

/-- The answer to a request is received, and the channel is where it was before the request. -/
theorem receive_answered (hs : c.socket = some s) (ha : c.assembler.Holds [])
    (h : net.Asked s n body bodies) (hd : net.now + 1000 ≤ deadline) :
    ∃ a net', c.receive deadline net =
        (some ((Frame.decodeBody body.toByteArray).mapError .protocol), { c with assembler := a },
          net') ∧
      net'.now ≤ deadline ∧
      (bodies ≠ [] → Expects { c with assembler := a } net' s (n + 1) bodies) := by
  obtain ⟨hl, rest, hb⟩ := h.late hd
  obtain ⟨a, hreceive, ha', reads⟩ := receive_framed hs ha h.live hl hb
  have hnow : (c.read s deadline net).2.2.now ≤ max net.now deadline :=
    now_readWithin_le s deadline _ c net
  refine ⟨a, _, hreceive, by omega, ?_⟩
  intro hbodies
  obtain ⟨next, bodies, rfl⟩ := List.exists_cons_of_ne_nil hbodies
  obtain ⟨connection, answer, script, hc, carries, more, hanswers⟩ := h.connection
  have hplay := hanswers.play_eq carries
  have hopen (time : Nat) (hle : net.now ≤ time) : (connection.play time).inbound.isOpen :=
    hanswers.isOpen_play carries more hle
  have htidy : connection.Tidy := h.live.tidy connection hc
  have hstart : connection.Trails connection net.now := by
    have htrails := Connection.trails_refl htidy (hopen net.now (Nat.le_refl _))
    rwa [hplay] at htrails
  obtain ⟨d, time, hd, hle, hlast, htrails⟩ := readWithin_trails ha
    ⟨connection, net.now, hc, Nat.le_refl _, Nat.le_refl _, hstart⟩ hopen deadline
    (net.weightOf s + 1)
  have hreceived := congrFun reads.received s
  rw [Function.update_self] at hreceived
  simp only [Network.received, Network.view, Channel.read, hd, hc] at hreceived
  exact ⟨hs, ha', d, hd, (hanswers.awaits carries more hle htrails hreceived).wait hlast⟩

variable {server : Server} {k : Nat}

/-- A server that accepts within a second, and answers, is connected to. -/
theorem ensure_serves (hs : c.socket = none) (ha : c.assembler.Holds [])
    (he : c.endpoint = server.endpoint) (hreach : net.Reaches (server.after k))
    (hserves : (server.reception k).Serves (body :: bodies)) (ht : 1000 ≤ c.connectTimeout)
    (hd : net.now + c.connectTimeout ≤ deadline) :
    ∃ s net', c.ensure deadline net = (some (.ok s), c.opened s, net') ∧
      (c.opened s).Expects net' s 0 (body :: bodies) ∧ net'.Reaches (server.after (k + 1)) ∧
      net'.now ≤ net.now + c.connectTimeout := by
  generalize hr : server.reception k = reception at hserves
  cases hserves with
  | accept htime hw answers =>
    obtain ⟨s, net', hensure, hreach', hc⟩ := ensure_of_accepted hs he hreach hr
      (Nat.lt_of_lt_of_le htime ht) hd
    have hawaits := Connection.awaits_accepted server.endpoint answers hw net'.now
    exact ⟨s, net', hensure, ⟨rfl, ha.reset, _, hc, hawaits⟩, hreach', (ensure_ends hd hensure).2⟩

/-- Whether a channel may be used for a call to a server: it is closed, or the server waits for a
request. -/
structure Faces (server : Server) (c : Channel) (net : Network) : Prop where
  endpoint : c.endpoint = server.endpoint
  reaches : ∃ k, net.Reaches (server.after k)
  ready : (c.socket = none ∧ c.assembler.Holds []) ∨
    ∃ s n body bodies, c.Expects net s n (body :: bodies)

theorem Faces.wait (h : c.Faces server net) (time : Nat) : c.Faces server (net.waitUntil time) where
  endpoint := h.endpoint
  reaches := h.reaches.imp fun _ hreach => hreach.of_world rfl
  ready := by
    refine h.ready.imp_right ?_
    rintro ⟨s, n, body, bodies, hexpects⟩
    exact ⟨s, n, body, bodies, hexpects.wait time⟩

end Channel

namespace Caller

open Channel (Expects Faces)

variable {call : Call} {calls : List Call} {c c' : Caller} {net net' : Network} {s : Socket}
  {n time : Nat} {body : List UInt8} {bodies : List (List UInt8)} {server : Server}

/-- Whether the request of a call fits into a frame. -/
def Call.Fits (call : Call) : Prop := (Wire.Message.encode call.envelope).size ≤ Frame.sizeLimit

/-- What a call fails with whose request does not fit. -/
def Call.tooLarge (call : Call) : Failure :=
  .protocol (.frame (.tooLarge (min (Wire.Message.encode call.envelope).size 0xffffffff)
    Frame.sizeLimit))

theorem call_refused (h : ¬ call.Fits) (c : Caller) (net : Network) :
    c.call call.command call.payload call.reply call.deadline net =
      (some (.error call.tooLarge), c, net) := by
  have hencode : Frame.encode call.envelope = .error _ := Frame.encode_of_large (Nat.lt_of_not_le h)
  simp only [Caller.call, Call.envelope_eq, Channel.send, hencode]
  rfl

/-- A caller that waits for a second gets the reply, and may go on. -/
theorem call_answered (h : c.channel.Expects net s n (body :: bodies)) (hfits : call.Fits)
    (ht : 1000 ≤ c.requestTimeout) (hd : net.now + c.requestTimeout ≤ call.deadline) :
    ∃ channel net', c.call call.command call.payload call.reply call.deadline net =
        (some (call.outcome body), { c with channel }, net') ∧
      net'.now ≤ net.now + c.requestTimeout ∧
      (bodies ≠ [] → channel.Expects net' s (n + 1) bodies) := by
  obtain ⟨net₁, hsend, hasked, hnow, -⟩ := h.send hfits call.deadline
  have hmin : min (net.now + c.requestTimeout) call.deadline = net.now + c.requestTimeout :=
    Nat.min_eq_left hd
  have hwait : net₁.now + 1000 ≤ net.now + c.requestTimeout := by omega
  obtain ⟨a, net', hreceive, hlater, hexpects⟩ :=
    Channel.receive_answered h.socket h.holds hasked hwait
  refine ⟨_, net', ?_, hlater, hexpects⟩
  simp only [Caller.call, Call.envelope_eq, hsend, hnow, hmin, hreceive, Call.outcome]
  cases (Frame.decodeBody (α := Envelope.Server) body.toByteArray).mapError Failure.protocol <;> rfl

/-- A caller that does not wait at all gets no reply, and gives up the socket. -/
theorem call_late (h : c.channel.Expects net s n (body :: bodies)) (hfits : call.Fits)
    (ht : c.requestTimeout = 0) (hd : net.now ≤ call.deadline) :
    ∃ a net', c.call call.command call.payload call.reply call.deadline net =
        (some (.error (c.noReply call.command)),
          { c with channel := { c.channel with socket := none, assembler := a } }, net') ∧
      a.Holds [] ∧ net'.world = net.world ∧ net'.now ≤ net.now := by
  obtain ⟨net₁, hsend, hasked, hnow, hworld⟩ := h.send hfits call.deadline
  obtain ⟨a, net₂, hreceive, ⟨held, ha⟩, hworld', hlater⟩ := Channel.receive_silent h.socket h.holds
    hasked.live (hasked.early (Nat.le_of_eq hnow.symm))
  refine ⟨a.reset, ({ c.channel with assembler := a }.close net₂).2, ?_, ha.reset, ?_, ?_⟩
  · simp only [Caller.call, Call.envelope_eq, hsend, hnow, ht, Nat.add_zero, Nat.min_eq_left hd,
      hreceive, if_pos hd]
    rfl
  · rw [(Channel.still_close _ _).world, hworld', hworld]
  · rw [Channel.now_close]
    omega

/-- A call on a closed channel opens a socket first. -/
theorem call_of_ensure {channel : Channel} (hfits : call.Fits)
    (h : c.channel.ensure call.deadline net = (some (.ok s), channel, net')) :
    c.call call.command call.payload call.reply call.deadline net =
      { c with channel }.call call.command call.payload call.reply call.deadline net' := by
  obtain ⟨frame, hencode, -⟩ := Frame.encode_eq_ok hfits
  simp only [Caller.call, Call.envelope_eq, Channel.send_of_ensure hencode h]
  rfl

/-- Whether the calls whose requests fit into a frame got replies with these bodies, each its own,
and the others were refused. -/
inductive Replied : List Exchange → List (List UInt8) → Prop
  | nil (bodies : List (List UInt8)) : Replied [] bodies
  | answered {x : Exchange} {xs : List Exchange} {body : List UInt8} {bodies : List (List UInt8)}
      (hfits : x.call.Fits) (answer : Answered x.call body x.result) (rest : Replied xs bodies) :
      Replied (x :: xs) (body :: bodies)
  | refused {x : Exchange} {xs : List Exchange} {bodies : List (List UInt8)}
      (hlarge : ¬ x.call.Fits) (failure : Fails x.result x.call.tooLarge .protocol)
      (rest : Replied xs bodies) : Replied (x :: xs) bodies

/-- Whether a call failed for want of a reply that it would have got, or was refused. -/
structure Abandoned (x : Exchange) : Prop where
  late : x.call.Fits →
    Fails x.result (.timeout s!"waiting 0s for {x.call.command.wireName} reply") .timeout
  refused : ¬ x.call.Fits → Fails x.result x.call.tooLarge .protocol

/-- Whether calls begin by a time and none of them is given up by its user, though all those before
it take as long as the limit. -/
def Unhurried (calls : List Call) (time limit : Nat) : Prop :=
  ∀ call ∈ calls, call.start ≤ time ∧ time + calls.length * limit ≤ call.deadline

theorem Unhurried.first {limit : Nat} (h : Unhurried (call :: calls) time limit) :
    call.start ≤ time ∧ time + limit ≤ call.deadline := by
  obtain ⟨hstart, hdeadline⟩ := h call List.mem_cons_self
  rw [List.length_cons, Nat.succ_mul] at hdeadline
  omega

theorem Unhurried.rest {limit last : Nat} (h : Unhurried (call :: calls) time limit)
    (hle : time ≤ last) (hlast : last ≤ time + limit) : Unhurried calls last limit := by
  intro next hmem
  obtain ⟨hstart, hdeadline⟩ := h next (List.mem_cons_of_mem _ hmem)
  rw [List.length_cons, Nat.succ_mul] at hdeadline
  omega

theorem Unhurried.mono {limit limit' : Nat} (h : Unhurried calls time limit)
    (hle : limit' ≤ limit) : Unhurried calls time limit' := by
  intro call hmem
  obtain ⟨hstart, hdeadline⟩ := h call hmem
  have hlimit := Nat.mul_le_mul_left calls.length hle
  omega

/-- A user who is patient enough gives up none of the calls. -/
theorem exists_unhurried (calls : List Call) (now limit : Nat) :
    ∃ time, now ≤ time ∧ ∀ deadline, time + calls.length * limit ≤ deadline →
      Unhurried (calls.map fun call => { call with deadline }) time limit := by
  obtain ⟨last, hlast⟩ : ∃ last, ∀ call ∈ calls, call.start ≤ last := by
    induction calls with
    | nil => exact ⟨0, List.forall_mem_nil _⟩
    | cons call calls ih =>
      obtain ⟨last, hlast⟩ := ih
      refine ⟨max call.start last, List.forall_mem_cons.mpr ⟨Nat.le_max_left _ _, ?_⟩⟩
      exact fun next hmem => Nat.le_trans (hlast next hmem) (Nat.le_max_right _ _)
  refine ⟨max now last, Nat.le_max_left _ _, fun deadline hd => ?_⟩
  intro patient hmem
  obtain ⟨call, hcall, rfl⟩ := List.mem_map.mp hmem
  rw [List.length_map]
  exact ⟨Nat.le_trans (hlast call hcall) (Nat.le_max_right _ _), hd⟩

/-- A caller that waits for a second gets all its replies. -/
theorem run_replied (h : bodies ≠ [] → c.channel.Expects net s n bodies)
    (hmany : calls.length ≤ bodies.length) (ht : 1000 ≤ c.requestTimeout) (hnow : net.now ≤ time)
    (hcalls : Unhurried calls time c.requestTimeout) : Replied (run calls c net).1 bodies := by
  induction calls generalizing c net n bodies time with
  | nil => exact .nil bodies
  | cons call calls ih =>
    obtain ⟨hstart, hdeadline⟩ := hcalls.first
    obtain ⟨body, bodies, rfl⟩ : ∃ body rest, bodies = body :: rest :=
      List.exists_cons_of_length_pos (Nat.lt_of_lt_of_le (Nat.succ_pos _) hmany)
    have hwait := (h (by simp)).wait call.start
    have hbegin : (net.waitUntil call.start).now ≤ time := Nat.max_le.mpr ⟨hnow, hstart⟩
    by_cases hfits : call.Fits
    · obtain ⟨channel, net', hcall, hend, hexpects⟩ := call_answered hwait hfits ht (by omega)
      have hreplied := ih (c := { c with channel }) hexpects (Nat.le_of_succ_le_succ hmany) ht
        (Nat.le_trans hend (Nat.add_le_add_right hbegin _))
        (hcalls.rest (Nat.le_add_right _ _) (Nat.le_refl _))
      simp only [run, exchange, hcall]
      exact .answered hfits (answered_outcome call body) hreplied
    · have hreplied := ih (fun _ => hwait) (Nat.le_of_succ_le hmany) ht hbegin
        (hcalls.rest (Nat.le_refl _) (Nat.le_add_right _ _))
      simp only [run, exchange, call_refused hfits]
      exact .refused hfits ⟨rfl, rfl⟩ hreplied

/-- A call of a caller that does not wait fails, and the next one opens a new socket. -/
theorem call_abandoned (h : c.channel.Faces server net)
    (hserves : ∀ k, ∃ body bodies, (server.reception k).Serves (body :: bodies))
    (hconnect : 1000 ≤ c.channel.connectTimeout) (ht : c.requestTimeout = 0) (hfits : call.Fits)
    (hd : net.now + c.channel.connectTimeout ≤ call.deadline) :
    ∃ channel net', c.call call.command call.payload call.reply call.deadline net =
        (some (.error (c.noReply call.command)), { c with channel }, net') ∧
      channel.Faces server net' ∧ channel.connectTimeout = c.channel.connectTimeout ∧
      net'.now ≤ net.now + c.channel.connectTimeout := by
  obtain ⟨k, hreach⟩ := h.reaches
  -- The call before may have left the channel closed, and only the first one finds it open.
  rcases h.ready with ⟨hclosed, ha⟩ | ⟨s, n, body, bodies, hexpects⟩
  · obtain ⟨body, bodies, hserves⟩ := hserves k
    obtain ⟨s, net₁, hensure, hexpects, hreach', hnow⟩ :=
      Channel.ensure_serves hclosed ha h.endpoint hreach hserves hconnect hd
    obtain ⟨a, net', hcall, ha', hworld, hlater⟩ := call_late
      (c := { c with channel := c.channel.opened s }) hexpects hfits ht (by omega)
    refine ⟨_, net', (call_of_ensure hfits hensure).trans hcall, ⟨h.endpoint, ?_, ?_⟩, rfl, ?_⟩
    · exact ⟨k + 1, hreach'.of_world hworld⟩
    · exact Or.inl ⟨rfl, ha'⟩
    · omega
  · obtain ⟨a, net', hcall, ha', hworld, hlater⟩ := call_late hexpects hfits ht (by omega)
    refine ⟨_, net', hcall, ⟨h.endpoint, ?_, ?_⟩, rfl, ?_⟩
    · exact ⟨k, hreach.of_world hworld⟩
    · exact Or.inl ⟨rfl, ha'⟩
    · omega

/-- A caller that does not wait gets no reply at all. -/
theorem run_abandoned (h : c.channel.Faces server net)
    (hserves : ∀ k, ∃ body bodies, (server.reception k).Serves (body :: bodies))
    (hconnect : 1000 ≤ c.channel.connectTimeout) (ht : c.requestTimeout = 0) (hnow : net.now ≤ time)
    (hcalls : Unhurried calls time c.channel.connectTimeout) :
    ∀ x ∈ (run calls c net).1, Abandoned x := by
  induction calls generalizing c net time with
  | nil => exact List.forall_mem_nil _
  | cons call calls ih =>
    obtain ⟨hstart, hdeadline⟩ := hcalls.first
    have hwait := h.wait call.start
    have hbegin : (net.waitUntil call.start).now ≤ time := Nat.max_le.mpr ⟨hnow, hstart⟩
    by_cases hfits : call.Fits
    · obtain ⟨channel, net', hcall, hfaces, htime, hend⟩ :=
        call_abandoned hwait hserves hconnect ht hfits (by omega)
      have hrest := hcalls.rest (Nat.le_add_right _ _) (Nat.le_refl _)
      rw [← htime] at hconnect hrest
      have habandoned := ih (c := { c with channel }) hfaces hconnect ht (by omega) hrest
      simp only [run, exchange, hcall, List.forall_mem_cons]
      refine ⟨⟨fun _ => ?_, fun hlarge => absurd hfits hlarge⟩, habandoned⟩
      rw [noReply, ht]
      exact ⟨rfl, rfl⟩
    · have habandoned := ih hwait hconnect ht hbegin
        (hcalls.rest (Nat.le_refl _) (Nat.le_add_right _ _))
      simp only [run, exchange, call_refused hfits, List.forall_mem_cons]
      exact ⟨⟨fun hsmall => absurd hsmall hfits, fun _ => ⟨rfl, rfl⟩⟩, habandoned⟩

end Caller
end Gallows
