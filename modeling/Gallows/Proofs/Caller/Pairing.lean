import Gallows.Caller
import Gallows.Proofs.Channel.Steps

/-!
Requests and replies come in pairs. What a call returns is what the frame means that stands at the
request's own place on its own socket; where there is no such frame, no request follows on the
socket.
-/
namespace Gallows

/-- Whether a failure is that of a call which got no reply. -/
def Failure.isUnanswered : Failure → Bool
  | connect .. | transport _ | timeout _ | protocol (.frame _) => true
  | _ => false

namespace Caller

open Channel (Ensured Sends Receives)
open Network (Quiet Reads Writes)

/-- A call of a run, which begins at `start` or later and is given up at the deadline. -/
structure Call where
  command : Command
  payload : ByteArray
  reply : Document.Shape
  start : Nat := 0
  deadline : Nat

/-- The envelope of a request. -/
def Call.envelope (call : Call) : Envelope.Client where
  command := call.command.wireName
  payload := call.payload

theorem Call.envelope_eq (call : Call) :
    { command := call.command.wireName, payload := call.payload } = call.envelope :=
  rfl

/-- What a body means when it is that of the reply. -/
def Call.outcome (call : Call) (body : List UInt8) : Except Failure call.reply.El :=
  ((Frame.decodeBody body.toByteArray).mapError .protocol).bind fun e : Envelope.Server =>
    e.answer call.command call.reply

/-- What is known of a call when it is over. -/
structure Exchange where
  call : Call
  result : Outcome call.reply.El
  /-- The socket that the request went onto. -/
  socket : Option Socket

/-- The body of the request's frame. -/
def Exchange.request (x : Exchange) : List UInt8 :=
  (Wire.Message.encode x.call.envelope).data.toList

/-- Whether a call returned what a body means. -/
def Exchange.Answers (x : Exchange) (body : List UInt8) : Prop :=
  body.length ≤ Frame.sizeLimit ∧ x.result = some (x.call.outcome body)

/-- Whether a call failed without a reply. -/
def Exchange.Unanswered (x : Exchange) : Prop :=
  ∃ f, x.result = some (.error f) ∧ f.isUnanswered

/-- The socket that the request of a call goes onto. -/
def route (call : Call) (c : Caller) (net : Network) : Option Socket :=
  match c.channel.send call.envelope call.deadline net with
  | (some (.ok ()), channel, _) => channel.socket
  | _ => none

/-- Makes a call. -/
def exchange (call : Call) (c : Caller) (net : Network) : Exchange × Caller × Network :=
  let (result, last) := c.call call.command call.payload call.reply call.deadline net
  (⟨call, result, c.route call net⟩, last)

/-- Makes one call after another. -/
def run : List Call → Caller → Network → List Exchange × Caller × Network
  | [], c, net => ([], c, net)
  | call :: calls, c, net =>
    let (x, c, net) := exchange call c (net.waitUntil call.start)
    let (xs, last) := run calls c net
    (x :: xs, last)

variable {start net net' : Network} {c c' : Caller} {call : Call} {x : Exchange}
  {xs : List Exchange} {s : Socket}

/-- What comes of a call on a channel that holds nothing of a frame. -/
inductive Exchanged (c : Caller) (net : Network) : Exchange → Caller → Network → Prop
  /-- The request was not written. -/
  | unsent {x : Exchange} {net' : Network} (hx : x.socket = none) (hu : x.Unanswered)
      (quiet : Quiet net net') : Exchanged c net x c net'
  /-- The request was written in part, and the socket closed. -/
  | broken {x : Exchange} {s : Socket} {c₁ : Channel} {a : Frame.Assembler}
      {net₁ net₂ net' : Network} (hx : x.socket = none) (hu : x.Unanswered)
      (ensured : Ensured c.channel net (some (.ok s)) c₁ net₁) (part : List UInt8)
      (writes : Writes s part net₁ net₂) (quiet : Quiet net₂ net') (ha : a.Holds []) :
      Exchanged c net x { c with channel := { c₁ with socket := none, assembler := a } } net'
  /-- No reply came to the request, and the socket was closed. -/
  | unanswered {x : Exchange} {s : Socket} {c₁ : Channel} {a : Frame.Assembler}
      {net₁ net₂ net₃ net' : Network} (hx : x.socket = some s) (hu : x.Unanswered)
      (hl : x.request.length ≤ Frame.sizeLimit)
      (ensured : Ensured c.channel net (some (.ok s)) c₁ net₁)
      (writes : Writes s (Frame.frame x.request) net₁ net₂) (rest : List UInt8)
      (reads : Reads s rest net₂ net₃) (quiet : Quiet net₃ net') (ha : a.Holds []) :
      Exchanged c net x { c with channel := { c₁ with socket := none, assembler := a } } net'
  /-- The next frame was the reply. -/
  | answered {x : Exchange} {s : Socket} {c₁ : Channel} {a : Frame.Assembler}
      {net₁ net₂ net' : Network} (hx : x.socket = some s) (body : List UInt8)
      (hb : x.Answers body) (hl : x.request.length ≤ Frame.sizeLimit)
      (ensured : Ensured c.channel net (some (.ok s)) c₁ net₁)
      (writes : Writes s (Frame.frame x.request) net₁ net₂)
      (reads : Reads s (Frame.frame body) net₂ net') (ha : a.Holds []) :
      Exchanged c net x { c with channel := { c₁ with assembler := a } } net'

theorem isUnanswered_of_lost {held : List UInt8} {f : Failure} (h : Channel.Lost held f) :
    f.isUnanswered := by
  cases h <;> rfl

theorem Call.outcome_toList (call : Call) (body : ByteArray) : call.outcome body.data.toList =
    ((Frame.decodeBody body).mapError .protocol).bind fun e : Envelope.Server =>
      e.answer call.command call.reply := by
  rw [Call.outcome, Frame.toByteArray_toList]

/-- What a call does that returns. -/
theorem exchange_exchanged (h : c.channel.assembler.Holds [])
    (hr : (exchange call c net).1.result ≠ none) :
    Exchanged c net (exchange call c net).1 (exchange call c net).2.1
      (exchange call c net).2.2 := by
  have hs := Channel.send_sends call.envelope c.channel call.deadline net
  simp only [exchange, Caller.call, route, Call.envelope_eq] at hs hr ⊢
  generalize c.channel.send call.envelope call.deadline net = result at hs hr ⊢
  obtain ⟨r, c₁, net₂⟩ := result
  dsimp only at hs
  cases hs with
  | refused cause _ => exact .unsent rfl ⟨_, rfl, rfl⟩ (Network.quiet_refl _)
  | failed fault _ _ _ quiet => exact .unsent rfl ⟨_, rfl, rfl⟩ quiet
  | waiting _ _ _ _ => exact absurd rfl hr
  | broken _ _ ensured part _ writes fault _ =>
    have ha := (ensured.holds h fun _ => rfl).reset
    exact .broken rfl ⟨_, rfl, rfl⟩ ensured part writes (Channel.still_close _ _).toQuiet ha
  | @sent s _ net₁ _ frame hf ensured writes =>
    obtain ⟨hsize, hframe⟩ := Frame.ofBody_eq_ok hf
    have hl : (Wire.Message.encode call.envelope).data.toList.length ≤ Frame.sizeLimit := by
      simpa using hsize
    rw [hframe] at writes
    have hs : c₁.socket = some s := ensured.socket_eq
    have ha : c₁.assembler.Holds [] := ensured.holds h fun _ => rfl
    dsimp only at hr ⊢
    generalize net₂.now + c.requestTimeout = limit at hr ⊢
    have hrec := Channel.receive_receives (min limit call.deadline) net₂ ha fun _ => rfl
    generalize c₁.receive (min limit call.deadline) net₂ = result at hrec hr ⊢
    obtain ⟨r, c₂, net₃⟩ := result
    dsimp only at hrec hr ⊢
    cases hrec with
    | unopened hn _ _ => simp [hs] at hn
    | @kept _ _ _ _ a _ he rest reads hspare ha' =>
      obtain ⟨rfl, rfl, rfl⟩ := he.of_open hs
      obtain rfl : r = none := by
        rcases hspare with hn | hn
        · exact hn
        · exact hn
      by_cases hd : limit ≤ call.deadline
      · simp only [hd, if_true]
        have hx : Exchanged c net ⟨call, some (.error (c.noReply call.command)), c₁.socket⟩
            { c with channel := { c₁ with socket := none, assembler := a.reset } }
            ({ c₁ with assembler := a }.close net₃).2 :=
          .unanswered hs ⟨_, rfl, rfl⟩ hl ensured writes rest reads
            (Channel.still_close _ net₃).toQuiet ha'.reset
        exact hx
      · simp [hd] at hr
    | dropped he rest reads hlost still _ ha' =>
      obtain ⟨rfl, rfl, rfl⟩ := he.of_open hs
      exact .unanswered hs ⟨_, rfl, isUnanswered_of_lost hlost⟩ hl ensured writes rest reads
        still.toQuiet ha'
    | frame he body new reads hb hlb ha' =>
      obtain ⟨rfl, rfl, rfl⟩ := he.of_open hs
      rw [List.nil_append] at hb
      rw [hb] at reads
      have hlength : body.data.toList.length ≤ Frame.sizeLimit := by simpa using hlb
      have hout := call.outcome_toList body
      rw [Channel.Manner.outcome_plain] at hr ⊢
      cases hd : (Frame.decodeBody (α := Envelope.Server) body).mapError Failure.protocol with
      | error f =>
        rw [hd] at hout
        exact .answered hs _ ⟨hlength, by rw [hout]; rfl⟩ hl ensured writes reads ha'
      | ok e =>
        rw [hd] at hout
        exact .answered hs _ ⟨hlength, by rw [hout]; rfl⟩ hl ensured writes reads ha'

/-- The calls whose requests went onto a socket. -/
def sentOn (xs : List Exchange) (s : Socket) : List Exchange := xs.filter (·.socket = some s)

/-- What has gone over a socket: the requests of all calls and a part of one more, and the replies
to the calls that were answered and a part of one more. -/
structure Ledger (net : Network) (s : Socket) (replied last : List Exchange)
    (bodies : List (List UInt8)) (part rest : List UInt8) : Prop where
  written : net.written s = ((replied ++ last).map fun x => Frame.frame x.request).flatten ++ part
  received : net.received s = (bodies.map Frame.frame).flatten ++ rest
  fits : ∀ x ∈ replied ++ last, x.request.length ≤ Frame.sizeLimit
  pairs : List.Forall₂ Exchange.Answers replied bodies
  unanswered : ∀ x ∈ last, x.Unanswered

/-- Whether a socket has a ledger of these calls, of which at most the last has no reply. -/
def Accounted (net : Network) (s : Socket) (sent : List Exchange) : Prop :=
  ∃ replied last bodies part rest, Ledger net s replied last bodies part rest ∧
    sent = replied ++ last ∧ last.length ≤ 1

/-- Whether a socket has a ledger of these calls, all of which have their replies. -/
def Even (net : Network) (s : Socket) (sent : List Exchange) : Prop :=
  ∃ bodies, Ledger net s sent [] bodies [] []

/-- Every socket since `start` has its ledger, and that of the open one is even. -/
structure Paired (start net : Network) (xs : List Exchange) (c : Channel) : Prop where
  holds : c.assembler.Holds []
  length : start.connections.length ≤ net.connections.length
  opened : ∀ s, c.socket = some s → start.connections.length ≤ s
  sockets : ∀ x ∈ xs, ∀ s, x.socket = some s → start.connections.length ≤ s
  unsent : ∀ x ∈ xs, x.socket = none → x.Unanswered
  accounts : ∀ s, start.connections.length ≤ s → Accounted net s (sentOn xs s)
  even : ∀ s, c.socket = some s → Even net s (sentOn xs s)

variable {replied last sent : List Exchange} {bodies : List (List UInt8)} {part rest : List UInt8}
  {d d' : Channel}

theorem sentOn_append_same (h : x.socket = some s) (xs : List Exchange) :
    sentOn (xs ++ [x]) s = sentOn xs s ++ [x] := by
  simp [sentOn, h]

theorem sentOn_append_other (h : x.socket ≠ some s) (xs : List Exchange) :
    sentOn (xs ++ [x]) s = sentOn xs s := by
  simp [sentOn, h]

theorem Ledger.same (h : Ledger net s replied last bodies part rest)
    (hr : net'.received s = net.received s) (hw : net'.written s = net.written s) :
    Ledger net' s replied last bodies part rest :=
  ⟨hw.trans h.written, hr.trans h.received, h.fits, h.pairs, h.unanswered⟩

theorem Accounted.same (h : Accounted net s sent) (hr : net'.received s = net.received s)
    (hw : net'.written s = net.written s) : Accounted net' s sent := by
  obtain ⟨replied, last, bodies, part, rest, hl, hsent, hlast⟩ := h
  exact ⟨replied, last, bodies, part, rest, hl.same hr hw, hsent, hlast⟩

theorem Even.same (h : Even net s sent) (hr : net'.received s = net.received s)
    (hw : net'.written s = net.written s) : Even net' s sent :=
  h.imp fun _ hl => hl.same hr hw

theorem Even.accounted (h : Even net s sent) : Accounted net s sent := by
  obtain ⟨bodies, hl⟩ := h
  exact ⟨sent, [], bodies, [], [], hl, by simp, by simp⟩

/-- Over a socket that is not there nothing has gone. -/
theorem Accounted.nil_of_le (h : Accounted net s sent) (hs : net.connections.length ≤ s) :
    sent = [] := by
  obtain ⟨replied, last, bodies, part, rest, hl, rfl, -⟩ := h
  have hw := hl.written
  rw [Network.written_of_le hs] at hw
  have hall := List.flatten_eq_nil_iff.mp (List.append_eq_nil_iff.mp hw.symm).1
  apply List.eq_nil_iff_forall_not_mem.mpr
  intro x hx
  have hlen := congrArg List.length (hall _ (List.mem_map_of_mem hx))
  rw [Frame.length_frame] at hlen
  simp [Frame.headerSize] at hlen

theorem even_nil (hr : net.received s = []) (hw : net.written s = []) : Even net s [] :=
  ⟨[], by simp [hw], by simp [hr], by simp, .nil, by simp⟩

/-- On the way from one network to the other `out` is written to a socket and `new` is read from
it, and no other socket is touched. -/
structure Trades (s : Socket) (out new : List UInt8) (net net' : Network) : Prop where
  written : net'.written = Function.update net.written s (net.written s ++ out)
  received : net'.received = Function.update net.received s (net.received s ++ new)
  length : net.connections.length ≤ net'.connections.length

variable {out new : List UInt8}

theorem trades_of_writes {net₁ net₂ : Network} (writes : Writes s out net net₁)
    (reads : Reads s new net₁ net₂) (quiet : Quiet net₂ net') : Trades s out new net net' where
  written := by rw [quiet.written, reads.written, writes.written]
  received := by rw [quiet.received, reads.received, writes.received]
  length := by
    rw [← writes.length, ← reads.length]
    exact quiet.length

theorem Trades.written_same (h : Trades s out new net net') :
    net'.written s = net.written s ++ out := by
  rw [h.written, Function.update_self]

theorem Trades.received_same (h : Trades s out new net net') :
    net'.received s = net.received s ++ new := by
  rw [h.received, Function.update_self]

theorem Trades.accounted_other {t : Socket} (h : Trades s out new net net') (ht : t ≠ s)
    (ha : Accounted net t sent) : Accounted net' t sent := by
  apply ha.same
  · rw [h.received, Function.update_of_ne ht]
  · rw [h.written, Function.update_of_ne ht]

theorem Even.broken (h : Even net s sent) (trades : Trades s part [] net net') :
    Accounted net' s sent := by
  obtain ⟨bodies, hl⟩ := h
  refine ⟨sent, [], bodies, part, [], ⟨?_, ?_, hl.fits, hl.pairs, by simp⟩, by simp, by simp⟩
  · rw [trades.written_same, hl.written, List.append_nil]
  · rw [trades.received_same, hl.received, List.append_nil]

theorem Even.fits_append (h : Even net s sent) (hl : x.request.length ≤ Frame.sizeLimit) :
    ∀ y ∈ sent ++ [x], y.request.length ≤ Frame.sizeLimit := by
  obtain ⟨bodies, he⟩ := h
  intro y hy
  rcases List.mem_append.mp hy with hy | hy
  · exact he.fits y (by simpa using hy)
  · rwa [List.mem_singleton.mp hy]

theorem Even.unanswered (h : Even net s sent) (hl : x.request.length ≤ Frame.sizeLimit)
    (hu : x.Unanswered) (trades : Trades s (Frame.frame x.request) rest net net') :
    Accounted net' s (sent ++ [x]) := by
  have hfits := h.fits_append hl
  obtain ⟨bodies, he⟩ := h
  refine ⟨sent, [x], bodies, [], rest, ⟨?_, ?_, hfits, he.pairs, by simpa using hu⟩, rfl, by simp⟩
  · rw [trades.written_same, he.written]
    simp
  · rw [trades.received_same, he.received, List.append_nil]

theorem Even.answered {body : List UInt8} (h : Even net s sent)
    (hl : x.request.length ≤ Frame.sizeLimit) (hb : x.Answers body)
    (trades : Trades s (Frame.frame x.request) (Frame.frame body) net net') :
    Even net' s (sent ++ [x]) := by
  have hfits := h.fits_append hl
  obtain ⟨bodies, he⟩ := h
  refine ⟨bodies ++ [body], ?_, ?_, by simpa using hfits, ?_, by simp⟩
  · rw [trades.written_same, he.written]
    simp
  · rw [trades.received_same, he.received]
    simp
  · exact List.rel_append he.pairs (.cons hb .nil)

theorem paired_start (endpoint : Endpoint) (connectTimeout readTimeout : Nat) (start : Network) :
    Paired start start [] { endpoint, connectTimeout, readTimeout } where
  holds := Frame.Assembler.holds_initial
  length := Nat.le_refl _
  opened s h := by simp at h
  sockets := by simp
  unsent := by simp
  accounts s hs :=
    (even_nil (Network.received_of_le hs) (Network.written_of_le hs)).accounted
  even s h := by simp at h

theorem Paired.quiet (h : Paired start net xs d) (hq : Quiet net net') :
    Paired start net' xs d where
  holds := h.holds
  length := Nat.le_trans h.length hq.length
  opened := h.opened
  sockets := h.sockets
  unsent := h.unsent
  accounts s hs := (h.accounts s hs).same (by rw [hq.received]) (by rw [hq.written])
  even s hs := (h.even s hs).same (by rw [hq.received]) (by rw [hq.written])

theorem Paired.unsent_step (h : Paired start net xs d) (hx : x.socket = none)
    (hu : x.Unanswered) : Paired start net (xs ++ [x]) d := by
  have hsent (s : Socket) : sentOn (xs ++ [x]) s = sentOn xs s :=
    sentOn_append_other (by simp [hx]) xs
  refine ⟨h.holds, h.length, h.opened, ?_, ?_, ?_, ?_⟩
  · intro y hy s hs
    rcases List.mem_append.mp hy with hy | hy
    · exact h.sockets y hy s hs
    · rw [List.mem_singleton.mp hy, hx] at hs
      cases hs
  · intro y hy hs
    rcases List.mem_append.mp hy with hy | hy
    · exact h.unsent y hy hs
    · rwa [List.mem_singleton.mp hy]
  · intro s hs
    rw [hsent]
    exact h.accounts s hs
  · intro s hs
    rw [hsent]
    exact h.even s hs

theorem Paired.ensured (h : Paired start net xs d) (he : Ensured d net (some (.ok s)) d' net') :
    Paired start net' xs d' := by
  cases he with
  | kept _ _ => exact h
  | opened _ hs quiet _ =>
    have hq := h.quiet quiet
    refine ⟨h.holds.reset, hq.length, ?_, h.sockets, h.unsent, hq.accounts, ?_⟩
    · intro s hs
      cases hs
      exact h.length
    · intro s hs
      cases hs
      have hnil := (h.accounts _ h.length).nil_of_le (Nat.le_refl _)
      rw [hnil]
      apply even_nil
      · rw [quiet.received, Network.received_of_le (Nat.le_refl _)]
      · rw [quiet.written, Network.written_of_le (Nat.le_refl _)]

/-- A call that leaves a ledger of its socket behind, which is even if the socket stays open. -/
theorem Paired.sent_step (h : Paired start net xs d) (hd : d.socket = some s)
    (hx : x.socket = none → x.Unanswered) (hxs : ∀ t, x.socket = some t → s = t)
    (trades : Trades s out new net net') (hholds : d'.assembler.Holds [])
    (hacc : Accounted net' s (sentOn (xs ++ [x]) s))
    (hopen : ∀ t, d'.socket = some t → s = t ∧ Even net' s (sentOn (xs ++ [x]) s)) :
    Paired start net' (xs ++ [x]) d' := by
  refine ⟨hholds, Nat.le_trans h.length trades.length, ?_, ?_, ?_, ?_, ?_⟩
  · intro t ht
    rw [← (hopen t ht).1]
    exact h.opened s hd
  · intro y hy t ht
    rcases List.mem_append.mp hy with hy | hy
    · exact h.sockets y hy t ht
    · rw [List.mem_singleton.mp hy] at ht
      rw [← hxs t ht]
      exact h.opened s hd
  · intro y hy ht
    rcases List.mem_append.mp hy with hy | hy
    · exact h.unsent y hy ht
    · rw [List.mem_singleton.mp hy] at ht ⊢
      exact hx ht
  · intro t ht
    by_cases hts : t = s
    · rwa [hts]
    · rw [sentOn_append_other fun he => hts (hxs t he).symm]
      exact trades.accounted_other hts (h.accounts t ht)
  · intro t ht
    obtain ⟨rfl, he⟩ := hopen t ht
    exact he

theorem Paired.exchanged (h : Paired start net xs c.channel) (hx : Exchanged c net x c' net') :
    Paired start net' (xs ++ [x]) c'.channel := by
  cases hx with
  | unsent hx hu quiet => exact (h.quiet quiet).unsent_step hx hu
  | broken hx hu ensured part writes quiet ha =>
    have h₁ := h.ensured ensured
    have hs := ensured.socket_eq
    have trades := trades_of_writes writes (Network.reads_nil _ _) quiet
    refine h₁.sent_step hs (fun _ => hu) (by simp [hx]) trades ha ?_ (by simp)
    rw [sentOn_append_other (by simp [hx])]
    exact (h₁.even _ hs).broken trades
  | unanswered hx hu hl ensured writes rest reads quiet ha =>
    have h₁ := h.ensured ensured
    have hs := ensured.socket_eq
    have trades := trades_of_writes writes reads quiet
    refine h₁.sent_step hs (by simp [hx]) (by simp [hx]) trades ha ?_ (by simp)
    rw [sentOn_append_same hx]
    exact (h₁.even _ hs).unanswered hl hu trades
  | answered hx body hb hl ensured writes reads ha =>
    have h₁ := h.ensured ensured
    have hs := ensured.socket_eq
    have trades := trades_of_writes writes reads (Network.quiet_refl _)
    have heven := (h₁.even _ hs).answered hl hb trades
    rw [← sentOn_append_same hx] at heven
    exact h₁.sent_step hs (by simp [hx]) (by simp [hx]) trades ha heven.accounted
      (by simp [hs, heven])

theorem Paired.run (h : Paired start net xs c.channel) (calls : List Call)
    (hr : ∀ x ∈ (run calls c net).1, x.result ≠ none) :
    Paired start (run calls c net).2.2 (xs ++ (run calls c net).1)
      (run calls c net).2.1.channel := by
  induction calls generalizing c net xs with
  | nil => simpa [Caller.run] using h
  | cons call calls ih =>
    simp only [Caller.run, List.mem_cons, forall_eq_or_imp] at hr ⊢
    have h' := h.quiet (Network.still_waitUntil net call.start).toQuiet
    have hx := h'.exchanged (exchange_exchanged h.holds hr.1)
    simpa using ih hx hr.2

theorem run_take (n : Nat) (calls : List Call) (c : Caller) (net : Network) :
    (run (calls.take n) c net).1 = (run calls c net).1.take n := by
  induction calls generalizing n c net with
  | nil => simp [run]
  | cons call calls ih =>
    cases n with
    | zero => rfl
    | succ n => simp [run, ih]

theorem Ledger.split_written (h : Ledger net s replied last bodies part rest) :
    (Frame.split (net.written s)).1 =
      ((replied ++ last).map fun x => .ok x.request) ++ (Frame.split part).1 := by
  have hb : ∀ body ∈ (replied ++ last).map Exchange.request, body.length ≤ Frame.sizeLimit := by
    intro body hb
    obtain ⟨x, hx, rfl⟩ := List.mem_map.mp hb
    exact h.fits x hx
  have hs := Frame.split_frames hb part
  rw [List.map_map, List.map_map] at hs
  rw [h.written]
  exact congrArg Prod.fst hs

theorem Ledger.split_received (h : Ledger net s replied last bodies part rest) :
    (Frame.split (net.received s)).1 = bodies.map .ok ++ (Frame.split rest).1 := by
  have hb : ∀ body ∈ bodies, body.length ≤ Frame.sizeLimit := by
    intro body hb
    obtain ⟨i, hi, rfl⟩ := List.getElem_of_mem hb
    exact (h.pairs.get (by rwa [h.pairs.length_eq]) hi).1
  rw [h.received]
  exact congrArg Prod.fst (Frame.split_frames hb rest)

/-- The frames at the place of a call on its socket. -/
theorem Ledger.at_place {i : Nat} (h : Ledger net s replied last bodies part rest)
    (hlast : last.length ≤ 1) (hx : (replied ++ last)[i]? = some x) :
    (Frame.split (net.written s)).1[i]? = some (.ok x.request) ∧
      ((∃ body, (Frame.split (net.received s)).1[i]? = some (.ok body) ∧
          x.result = some (x.call.outcome body)) ∨
        x.Unanswered ∧ (replied ++ last).length = i + 1 ∧ last ≠ []) := by
  constructor
  · obtain ⟨hi, -⟩ := List.getElem?_eq_some_iff.mp hx
    rw [h.split_written, List.getElem?_append_left (by rwa [List.length_map]), List.getElem?_map,
      hx]
    rfl
  · by_cases hi : i < replied.length
    · have hib : i < bodies.length := by rwa [← h.pairs.length_eq]
      rw [List.getElem?_append_left hi, List.getElem?_eq_getElem hi] at hx
      have hanswer := h.pairs.get hi hib
      rw [List.get_eq_getElem, Option.some.inj hx] at hanswer
      refine Or.inl ⟨bodies[i], ?_, hanswer.2⟩
      rw [h.split_received, List.getElem?_append_left (by rwa [List.length_map])]
      simp [hib]
    · rw [List.getElem?_append_right (Nat.le_of_not_lt hi)] at hx
      obtain ⟨hlt, -⟩ := List.getElem?_eq_some_iff.mp hx
      refine Or.inr ⟨h.unanswered x (List.mem_of_getElem? hx), ?_, ?_⟩
      · rw [List.length_append]
        omega
      · intro hnil
        simp [hnil] at hx

/-- Whether a channel is closed, or holds nothing of a frame and has read as many frames from its
socket as it has written to it. -/
def Settled (c : Channel) (net : Network) : Prop :=
  c.socket = none ∨ ∃ s, c.socket = some s ∧ c.assembler.isIdle ∧
    (Frame.split (net.written s)).1.length = (Frame.split (net.received s)).1.length

theorem Paired.settled (h : Paired start net xs d) : Settled d net := by
  cases hs : d.socket with
  | none => exact Or.inl hs
  | some s =>
    obtain ⟨bodies, hl⟩ := h.even s hs
    refine Or.inr ⟨s, hs, h.holds.isIdle.mpr rfl, ?_⟩
    rw [hl.split_written, hl.split_received]
    simp [Frame.split_pending Frame.pending_nil, hl.pairs.length_eq]

/-- A caller that has not connected yet. -/
def fresh (endpoint : Endpoint) (connectTimeout readTimeout requestTimeout : Nat) : Caller where
  channel := { endpoint, connectTimeout, readTimeout }
  requestTimeout

/-- Before and after every call the channel is settled. A call whose request went onto a socket
returns what the frame means that stands at the request's own place on this socket, or it fails
without a reply and no later request goes onto the socket; every other call fails without a
reply. -/
theorem run_paired (calls : List Call) (endpoint : Endpoint)
    (connectTimeout readTimeout requestTimeout : Nat) (net : Network)
    (hr : ∀ x ∈ (run calls (fresh endpoint connectTimeout readTimeout requestTimeout) net).1,
      x.result ≠ none) :
    let first := fresh endpoint connectTimeout readTimeout requestTimeout
    let (xs, last, net') := run calls first net
    (∀ n, let (_, c, net) := run (calls.take n) first net
      Settled c.channel net) ∧
    (∀ x ∈ xs, x.socket = none → x.Unanswered) ∧
    ∀ s i x, (sentOn xs s)[i]? = some x →
      (Frame.split (net'.written s)).1[i]? = some (.ok x.request) ∧
      ((∃ body, (Frame.split (net'.received s)).1[i]? = some (.ok body) ∧
          x.result = some (x.call.outcome body)) ∨
        x.Unanswered ∧ (sentOn xs s).length = i + 1 ∧ last.channel.socket ≠ some s) := by
  have hstart : Paired net net []
      (fresh endpoint connectTimeout readTimeout requestTimeout).channel :=
    paired_start endpoint connectTimeout readTimeout net
  have hrun := hstart.run calls hr
  rw [List.nil_append] at hrun
  refine ⟨?_, hrun.unsent, ?_⟩
  · intro n
    refine (hstart.run (calls.take n) ?_).settled
    intro x hx
    rw [run_take] at hx
    exact hr x (List.mem_of_mem_take hx)
  · intro s i x hx
    have hmem := List.mem_filter.mp (List.mem_of_getElem? hx)
    have hs := hrun.sockets x hmem.1 s (by simpa using hmem.2)
    by_cases hopen : (run calls (fresh endpoint connectTimeout readTimeout requestTimeout)
        net).2.1.channel.socket = some s
    · obtain ⟨bodies, hl⟩ := hrun.even s hopen
      rw [← List.append_nil (sentOn _ s)] at hx
      rcases hl.at_place (by simp) hx with ⟨hw, hreply | ⟨-, -, hn⟩⟩
      · exact ⟨hw, Or.inl hreply⟩
      · exact absurd rfl hn
    · obtain ⟨replied, late, bodies, part, rest, hl, hsent, hlate⟩ := hrun.accounts s hs
      rw [hsent] at hx
      rcases hl.at_place hlate hx with ⟨hw, hreply | ⟨hu, hlast, -⟩⟩
      · exact ⟨hw, Or.inl hreply⟩
      · exact ⟨hw, Or.inr ⟨hu, by rw [hsent, hlast], hopen⟩⟩

/-- The reply to the second call comes too late. The third call goes onto a new socket, and what it
returns is the reply there. -/
theorem run_paired_late_reply :
    let net : Network := {
      servers := [{
        endpoint := ⟨"h", 1⟩
        receptions := [
          .accept 0 [.await 1, .send ⟨#[0, 0, 0, 0]⟩, .await 2, .pause 60,
            .send ⟨#[0, 0, 0, 0]⟩] [],
          .accept 0 [.await 1, .send ⟨#[0, 0, 0, 0]⟩] []] }] }
    let call : Call := ⟨.checkUsername, Request.noDocument, Reply.checkUsername, 0, 1000⟩
    let (xs, _, net') := run [call, call, call] (fresh ⟨"h", 1⟩ 5 5 50) net
    (∀ x ∈ xs, x.result ≠ none) ∧ xs.map (·.socket) = [some 0, some 0, some 1] ∧
      ∀ x, (sentOn xs 1)[0]? = some x →
        ∃ body, (Frame.split (net'.received 1)).1[0]? = some (.ok body) ∧
          x.result = some (x.call.outcome body) := by
  intro net call
  have hr : ∀ x ∈ (run [call, call, call] (fresh ⟨"h", 1⟩ 5 5 50) net).1, x.result ≠ none := by
    have hall : ((run [call, call, call] (fresh ⟨"h", 1⟩ 5 5 50) net).1.all
        fun x => x.result.isSome) = true := by
      simp only [net, call]
      cbv
    intro x hx
    exact Option.isSome_iff_ne_none.mp (List.all_eq_true.mp hall x hx)
  have hopen : (run [call, call, call] (fresh ⟨"h", 1⟩ 5 5 50) net).2.1.channel.socket =
      some 1 := by
    simp only [net, call]
    cbv
  refine ⟨hr, ?_, ?_⟩
  · simp only [net, call]
    cbv
  · intro x hx
    obtain ⟨-, -, hpairs⟩ := run_paired [call, call, call] ⟨"h", 1⟩ 5 5 50 net hr
    rcases hpairs 1 0 x hx with ⟨-, hreply | ⟨-, -, hclosed⟩⟩
    · exact hreply
    · exact absurd hopen hclosed

end Caller
end Gallows
