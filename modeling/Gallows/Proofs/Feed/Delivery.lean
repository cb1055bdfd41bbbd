import Gallows.Feed
import Gallows.Proofs.Channel.Steps
import Gallows.Proofs.Envelope.Layout
import Gallows.Proofs.Event.Agreement
import Gallows.Proofs.Network.Reception

/-!
A feed delivers every event once and in order. What its looks have told so far is what the
complete frames tell that it has read, socket after socket, and it leaves a socket only when the
server has no more to send on it.
-/
namespace Gallows.Feed

open Channel (Ensured Receives Manner Lost)
open Network (Quiet Still Reads Writes Reaches)

/-- A look of a run at a feed, which begins at `start` or later and is given up at the deadline. -/
structure Look where
  /-- Whether it waits for one envelope and no more. -/
  once : Bool
  token : Token
  start : Nat := 0
  deadline : Nat

/-- Takes a look at a feed. -/
def look (l : Look) (f : Feed) (net : Network) : Outcome Found × Feed × Network :=
  if l.once then f.tryNext l.token l.deadline net else f.next l.token l.deadline net

/-- Takes one look after another, and gives what comes of each. -/
def run : List Look → Feed → Network → List (Look × Outcome Found) × Feed × Network
  | [], f, net => ([], f, net)
  | l :: ls, f, net =>
    let (r, f, net) := f.look l (net.waitUntil l.start)
    let (results, last) := f.run ls net
    ((l, r) :: results, last)

/-- What a look tells: an event or a failure, unless this is that the connection was lost under a
look for one envelope. -/
def told (l : Look) : Outcome Found → Option (Except Failure Event)
  | some (.ok (.event e)) => some (.ok e)
  | some (.error f) => if l.once && f.isLoss then none else some (.error f)
  | _ => none

/-- What a frame tells: that it is malformed, nothing if it has no document, and else an event. -/
def newsOf : Except Failure Envelope.Server → Option (Except Failure Event)
  | .error f => some (.error f)
  | .ok e =>
    if e.hasPayload then some ((Event.decode e.message e.payload).mapError .protocol) else none

/-- What the complete frames of a stream tell. -/
def newsIn (stream : List UInt8) : List (Except Failure Event) :=
  (Frame.split stream).1.filterMap fun
    | .ok body => newsOf ((Frame.decodeBody body.toByteArray).mapError .protocol)
    | .error _ => none

/-- What the complete frames tell that were read from `n` sockets, `first` and those behind it. -/
def heard (first n : Nat) (net : Network) : List (Except Failure Event) :=
  (List.range n).flatMap fun i => newsIn (net.received (first + i))

variable {s t : List UInt8} {first n : Nat} {net net' : Network}

theorem newsIn_append (s t : List UInt8) :
    newsIn (s ++ t) = newsIn s ++ newsIn ((Frame.split s).2 ++ t) := by
  simp only [newsIn, Frame.split_append s t, List.filterMap_append]

theorem newsIn_pending (h : Frame.Pending s) : newsIn s = [] := by
  simp [newsIn, Frame.split_pending h]

theorem newsIn_frame {body : ByteArray} (h : body.size ≤ Frame.sizeLimit) :
    newsIn (Frame.frame body.data.toList) =
      (newsOf ((Frame.decodeBody body).mapError .protocol)).toList := by
  have hl : body.data.toList.length ≤ Frame.sizeLimit := by simpa using h
  simp only [newsIn, Frame.split_frame hl, List.filterMap_cons, List.filterMap_nil]
  rw [Frame.toByteArray_toList]
  cases newsOf ((Frame.decodeBody body).mapError .protocol) <;> rfl

theorem heard_succ (first n : Nat) (net : Network) :
    heard first (n + 1) net = heard first n net ++ newsIn (net.received (first + n)) := by
  simp [heard, List.range_succ]

theorem heard_congr (h : ∀ i, i < n → net'.received (first + i) = net.received (first + i)) :
    heard first n net' = heard first n net := by
  simp only [heard]
  apply List.flatMap_congr
  intro i hi
  rw [h i (List.mem_range.mp hi)]

/-- Reading from the last socket adds what completes there. -/
theorem heard_reads {new : List UInt8} (hr : net'.received =
      Function.update net.received (first + n) (net.received (first + n) ++ new)) :
    heard first (n + 1) net' = heard first (n + 1) net ++
      newsIn ((Frame.split (net.received (first + n))).2 ++ new) := by
  have hbefore : heard first n net' = heard first n net := by
    apply heard_congr
    intro i hi
    have hne : first + i ≠ first + n := by omega
    rw [hr, Function.update_of_ne hne]
  rw [heard_succ, heard_succ, hbefore, hr, Function.update_self, newsIn_append, List.append_assoc]

/-- Whether a channel follows a server: from every socket but the open one it has read all that the
server sends, and what it holds is what is left of the frames of the open one. -/
structure Follows (first : Nat) (server : Server) (c : Channel) (net : Network) : Prop where
  endpoint : c.endpoint = server.endpoint
  reaches : net.Reaches (server.after c.generation)
  count : net.connections.length = first + c.generation
  closed : ∀ i, i < c.generation → c.socket ≠ some (first + i) →
    net.received (first + i) = server.stream i
  idle : c.socket = none → c.assembler.Holds []
  opened : ∀ s, c.socket = some s → ∃ i, c.generation = i + 1 ∧ s = first + i ∧
    c.assembler.Holds (Frame.split (net.received s)).2 ∧ net.Tidy s ∧
    net.received s ++ net.coming s = server.stream i

/-- What an outcome tells of a frame, or that it tells of none. -/
def Tells {α : Type} (m : Manner α) (r : Outcome α) : Option ByteArray → Prop
  | none => m.Spares r ∨ ∃ f, f.isLoss ∧ r = m.loss f
  | some body => r = some (m.outcome body)

/-- What a body tells. -/
def newsOfBody (body : ByteArray) : Option (Except Failure Event) :=
  newsOf ((Frame.decodeBody body).mapError .protocol)

/-- The envelope that announces an event. -/
def announcing (e : Event) : Envelope.Server := { message := e.kind.tag, payload := e.payload }

/-- The body of a frame that announces an event. -/
def announcement (e : Event) : ByteArray := Wire.Message.encode (announcing e)

/-- An announcement tells of its event. -/
theorem newsOfBody_announcement {e : Event} (h : (announcement e).size ≤ Frame.sizeLimit) :
    newsOfBody (announcement e) = some (.ok e) := by
  have hlimit : Frame.sizeLimit < 2 ^ 64 := by decide
  have hdecode : Wire.decode (announcement e) = .ok (announcing e) :=
    Envelope.Sender.server.decode_encode (announcing e) (Nat.lt_of_le_of_lt h hlimit)
  have hpayload : (announcing e).hasPayload := by
    simpa [Envelope.Server.hasPayload, announcing] using Nat.ne_of_gt e.size_payload_pos
  have hevent : Event.decode (announcing e).message (announcing e).payload = .ok e :=
    e.decode_payload
  simp only [newsOfBody, Frame.decodeBody, hdecode, Except.mapError, newsOf, if_pos hpayload, hevent]

variable {server : Server} {c c' : Channel} {socket : Socket} {α : Type} {m : Manner α}
  {r : Outcome α} {deadline : Nat}

/-- A server that keeps to the limit loses no connection to a header that announces too much. -/
theorem Lost.isLoss {f : Failure} {held new coming received stream : List UInt8}
    (hsizes : ∀ e, .error e ∉ (Frame.split stream).1)
    (hstream : received ++ new ++ coming = stream) (hheld : held = (Frame.split received).2)
    (hf : Lost (held ++ new) f) : f.isLoss ∧ Frame.Pending (held ++ new) := by
  cases hf with
  | transport _ h | closed _ _ h => exact ⟨rfl, h⟩
  | tooLarge h =>
    refine absurd ?_ (hsizes (.tooLarge (Frame.spelled (held ++ new)) Frame.sizeLimit))
    rw [← hstream, Frame.split_append _ coming, Frame.split_append received, ← hheld,
      Frame.split_oversized h]
    simp

/-- Reading on the open socket goes on from what is left of its frames. -/
theorem Follows.reads {new : List UInt8} {a : Frame.Assembler} (h : Follows first server c net)
    (hs : c.socket = some socket) (reads : Reads socket new net net')
    (ha : a.Holds (Frame.split ((Frame.split (net.received socket)).2 ++ new)).2) :
    Follows first server { c with assembler := a } net' := by
  obtain ⟨i, hgen, rfl, -, htidy, hstream⟩ := h.opened socket hs
  obtain ⟨htidy', hcoming⟩ := reads.coming htidy
  have hsame : net'.received (first + i) = net.received (first + i) ++ new := by
    rw [reads.received, Function.update_self]
  refine ⟨h.endpoint, h.reaches.of_world reads.world, reads.length.trans h.count, ?_,
    by simp [hs], ?_⟩
  · intro j hj hne
    have hji : first + j ≠ first + i := fun he => hne (he ▸ hs)
    rw [reads.received, Function.update_of_ne hji]
    exact h.closed j hj hne
  · intro t ht
    obtain rfl : first + i = t := Option.some.inj (hs.symm.trans ht)
    refine ⟨i, hgen, rfl, ?_, htidy', ?_⟩
    · rw [hsame, Frame.split_append]
      exact ha
    · rw [hsame, List.append_assoc, ← hcoming, hstream]

/-- A socket is left behind when there is nothing more to read from it. -/
theorem Follows.leaves {new : List UInt8} {a : Frame.Assembler} {net₂ : Network}
    (h : Follows first server c net) (hs : c.socket = some socket)
    (reads : Reads socket new net net₂) (hend : net₂.coming socket = []) (still : Still net₂ net')
    (ha : a.Holds []) : Follows first server { c with socket := none, assembler := a } net' := by
  obtain ⟨i, hgen, rfl, -, htidy, hstream⟩ := h.opened socket hs
  obtain ⟨-, hcoming⟩ := reads.coming htidy
  rw [hend, List.append_nil] at hcoming
  refine ⟨h.endpoint, (h.reaches.of_world reads.world).of_world still.world, ?_, ?_, fun _ => ha,
    by simp⟩
  · rw [still.count, reads.length, h.count]
  · intro j hj _
    by_cases hji : first + j = first + i
    · obtain rfl : j = i := by omega
      rw [still.received, reads.received, Function.update_self, ← hcoming, hstream]
    · rw [still.received, reads.received, Function.update_of_ne hji]
      refine h.closed j hj ?_
      rw [hs]
      exact fun he => hji (Option.some.inj he).symm

theorem Follows.receives (h : Follows first server c net) (hs : c.socket = some socket)
    (hsizes : ∀ i e, .error e ∉ (Frame.split (server.stream i)).1)
    (hr : Receives m (Frame.split (net.received socket)).2 c net r c' net') :
    Follows first server c' net' ∧ c'.generation = c.generation ∧
      c'.connectTimeout = c.connectTimeout ∧ ∃ entry, Tells m r entry ∧
        heard first c.generation net' =
          heard first c.generation net ++ (entry.bind newsOfBody).toList := by
  obtain ⟨i, hgen, rfl, -, htidy, hstream⟩ := h.opened socket hs
  cases hr with
  | unopened hn _ _ => simp [hs] at hn
  | kept he new reads hr ha =>
    obtain ⟨rfl, rfl, rfl⟩ := he.of_open hs
    refine ⟨h.reads hs reads ?_, rfl, rfl, none, Or.inl hr, ?_⟩
    · rwa [Frame.split_pending ha.pending]
    · rw [hgen, heard_reads reads.received, newsIn_pending ha.pending]
      rfl
  | frame he body new reads hb hl ha =>
    obtain ⟨rfl, rfl, rfl⟩ := he.of_open hs
    have hl' : body.data.toList.length ≤ Frame.sizeLimit := by simpa using hl
    refine ⟨h.reads hs reads ?_, rfl, rfl, some body, rfl, ?_⟩
    · rwa [hb, Frame.split_frame hl']
    · rw [hgen, heard_reads reads.received, hb, newsIn_frame hl]
      rfl
  | dropped he new reads hf still ends ha =>
    obtain ⟨rfl, rfl, rfl⟩ := he.of_open hs
    obtain ⟨htidy', hcoming⟩ := reads.coming htidy
    rw [hcoming, ← List.append_assoc] at hstream
    obtain ⟨hloss, hp⟩ := Lost.isLoss (hsizes i) hstream rfl hf
    refine ⟨h.leaves hs reads (ends hloss htidy') still ha, rfl, rfl, none,
      Or.inr ⟨_, hloss, rfl⟩, ?_⟩
    have hread : net'.received = Function.update net.received (first + i)
        (net.received (first + i) ++ new) := by rw [still.received, reads.received]
    rw [hgen, heard_reads hread, newsIn_pending hp]
    rfl

/-- Whether a reception serves a feed: it accepts within the feed's time limit and takes the
subscription, and no frame on the connection announces more than the limit. -/
def Admits (f : Feed) : Reception → Prop
  | .accept time script writes =>
    time < f.channel.connectTimeout ∧
      (f.subscribe → ∃ frame, Frame.encode (subscription f.username) = .ok frame ∧ ∀ now,
        ((Connection.accepted f.channel.endpoint script writes now).write now frame).1 = .ok ()) ∧
      ∀ e, .error e ∉ (Frame.split (Act.bytes false script)).1
  | _ => False

theorem Admits.accepts {f : Feed} {reception : Reception} (h : Admits f reception) :
    ∃ time script writes, reception = .accept time script writes ∧
      time < f.channel.connectTimeout := by
  cases reception with
  | accept time script writes => exact ⟨time, script, writes, rfl, h.1⟩
  | _ => cases h

/-- A server that accepts in time, takes what is written and does not break off serves a feed. -/
theorem admits_of_orderly {f : Feed} {time : Nat} {script : List Act}
    (ht : time < f.channel.connectTimeout) (hreset : Act.reset ∉ script)
    (hframe : ∃ frame, Frame.encode (subscription f.username) = .ok frame)
    (hsizes : ∀ e, .error e ∉ (Frame.split (Act.bytes false script)).1) :
    Admits f (.accept time script []) := by
  refine ⟨ht, ?_, hsizes⟩
  intro _
  obtain ⟨frame, he⟩ := hframe
  exact ⟨frame, he, fun now => Connection.write_accepted hreset _ now frame⟩

/-- A socket that was just opened is followed from its first byte on. -/
theorem Follows.opens (h : Follows first server c net) (hs : c.socket = none) {time : Nat}
    {script : List Act} {writes : List Sink.Step}
    (hr : server.reception c.generation = .accept time script writes) (quiet : Quiet net net')
    (hreach : net'.Reaches (server.after (c.generation + 1)))
    (hconns : net'.connections = net.connections ++
      [Connection.accepted server.endpoint script writes net'.now]) :
    Follows first server { c with
        socket := some net.connections.length
        assembler := c.assembler.reset
        generation := c.generation + 1 } net' ∧
      heard first (c.generation + 1) net' = heard first c.generation net := by
  have hnew : net'.connections[net.connections.length]? =
      some (.accepted server.endpoint script writes net'.now) := by
    rw [hconns]
    simp
  have hnone : net'.received net.connections.length = [] := by
    rw [quiet.received, Network.received_of_le (Nat.le_refl _)]
  obtain ⟨hcoming, htidy⟩ := Network.coming_of_accepted hnew
  refine ⟨⟨h.endpoint, hreach, ?_, ?_, by simp, ?_⟩, ?_⟩
  · rw [hconns, List.length_append, h.count]
    rfl
  · intro j hj hne
    have hjg : j ≠ c.generation := fun he => hne (by rw [he, ← h.count])
    have hlt : j < c.generation := Nat.lt_of_le_of_ne (Nat.le_of_lt_succ hj) hjg
    rw [quiet.received]
    exact h.closed j hlt (by simp [hs])
  · intro t ht
    obtain rfl := Option.some.inj ht
    refine ⟨c.generation, rfl, h.count, ?_, htidy, ?_⟩
    · rw [hnone, Frame.split_pending Frame.pending_nil]
      exact (h.idle hs).reset
    · rw [hnone, List.nil_append, hcoming, Server.stream, hr]
      rfl
  · rw [heard_succ, ← h.count, hnone, newsIn_pending Frame.pending_nil, List.append_nil]
    exact heard_congr fun i _ => by rw [quiet.received]

/-- What comes of asking a channel for an open socket that follows a server. -/
inductive Opening (first : Nat) (server : Server) (c : Channel) (net : Network) :
    Outcome Socket → Channel → Network → Prop
  | waiting {c' : Channel} {net' : Network} : Opening first server c net none c' net'
  | kept (s : Socket) (hs : c.socket = some s) : Opening first server c net (some (.ok s)) c net
  | opened {c' : Channel} {net' : Network} (s : Socket) (hs : c'.socket = some s)
      (h : Follows first server c' net') (hgen : c'.generation = c.generation + 1)
      (hlimit : c'.connectTimeout = c.connectTimeout)
      (hheard : heard first c'.generation net' = heard first c.generation net)
      (hnew : ∀ time script writes, server.reception c.generation = .accept time script writes →
        net'.connections[s]? = some (.accepted server.endpoint script writes net'.now)) :
      Opening first server c net (some (.ok s)) c' net'

theorem Follows.opening (h : Follows first server c net) {time : Nat} {script : List Act}
    {writes : List Sink.Step} (hr : server.reception c.generation = .accept time script writes)
    (ht : time < c.connectTimeout) (deadline : Nat) :
    Opening first server c net (c.ensure deadline net).1 (c.ensure deadline net).2.1
      (c.ensure deadline net).2.2 := by
  cases hs : c.socket with
  | some s =>
    simp only [Channel.ensure, hs]
    exact .kept s hs
  | none =>
    simp only [Channel.ensure, hs, h.endpoint]
    by_cases hd : net.now + time < min (net.now + c.connectTimeout) deadline
    · obtain ⟨hres, hreach, hconns⟩ := Network.connect_of_lt h.reaches hr hd
      have hquiet := Network.quiet_connect net server.endpoint
        (min (net.now + c.connectTimeout) deadline)
      generalize net.connect server.endpoint _ = result at hres hreach hconns hquiet ⊢
      obtain ⟨r, net'⟩ := result
      dsimp only at hres hreach hconns hquiet ⊢
      rw [hres]
      obtain ⟨hfollows, hheard⟩ := h.opens hs hr hquiet hreach hconns
      rw [h.endpoint] at hfollows
      refine .opened _ rfl hfollows rfl rfl hheard ?_
      intro time' script' writes' hr'
      rw [hr] at hr'
      cases hr'
      rw [hconns]
      simp
    · have hnone := Network.connect_of_le h.reaches hr (Nat.le_of_not_lt hd)
      generalize net.connect server.endpoint _ = result at hnone ⊢
      obtain ⟨r, net'⟩ := result
      dsimp only at hnone
      rw [hnone]
      have hlate : ¬ net.now + c.connectTimeout ≤ deadline := by omega
      simp only [hlate, if_false]
      exact .waiting

/-- Whether a feed, which was `f₀` at first, follows a server: its channel does, and the open socket
was subscribed on. -/
structure Following (first : Nat) (server : Server) (f₀ f : Feed) (net : Network) : Prop where
  follows : Follows first server f.channel net
  limit : f.channel.connectTimeout = f₀.channel.connectTimeout
  username : f.username = f₀.username
  subscribe : f.subscribe = f₀.subscribe
  subscribed : f.channel.socket ≠ none → f.subscribe → f.subscribed = f.channel.generation

variable {f₀ f f' : Feed}

theorem Follows.quiet_write {new : List UInt8} (h : Follows first server c net)
    (hs : c.socket = some socket) (writes : Writes socket new net net') :
    Follows first server c net' := by
  refine ⟨h.endpoint, h.reaches.of_world writes.world, writes.length.trans h.count, ?_, h.idle, ?_⟩
  · intro j hj hne
    rw [writes.received]
    exact h.closed j hj hne
  · intro t ht
    obtain rfl := Option.some.inj (hs.symm.trans ht)
    obtain ⟨i, hgen, hi, ha, htidy, hstream⟩ := h.opened socket ht
    exact ⟨i, hgen, hi, by rwa [writes.received], writes.tidy htidy,
      by rwa [writes.received, writes.coming]⟩

/-- A feed that asks for a socket gets one, or waits in vain for it. -/
theorem Following.connect (h : Following first server f₀ f net)
    (hend : f₀.channel.endpoint = server.endpoint)
    (hadmits : ∀ n, Admits f₀ (server.reception n)) (deadline : Nat) :
    (f.connect deadline net).1 = none ∨
      (f.connect deadline net).1 = some (.ok ()) ∧
        Following first server f₀ (f.connect deadline net).2.1 (f.connect deadline net).2.2 ∧
        (f.connect deadline net).2.1.channel.socket ≠ none ∧
        heard first (f.connect deadline net).2.1.channel.generation (f.connect deadline net).2.2 =
          heard first f.channel.generation net := by
  obtain ⟨time, script, writes, hr, ht⟩ := (hadmits f.channel.generation).accepts
  rw [← h.limit] at ht
  have hopening := h.follows.opening hr ht deadline
  have hadmit := hadmits f.channel.generation
  rw [hr] at hadmit
  obtain ⟨-, htakes, -⟩ := hadmit
  simp only [Feed.connect]
  generalize f.channel.ensure deadline net = result at hopening ⊢
  obtain ⟨r, c, net₁⟩ := result
  dsimp only at hopening
  cases hopening with
  | waiting => exact Or.inl rfl
  | kept s hs =>
    have hskip : ¬ (f.subscribe && f.channel.generation ≠ f.subscribed) := by
      intro hsub
      obtain ⟨hsub, hne⟩ : f.subscribe = true ∧ f.channel.generation ≠ f.subscribed := by
        simpa using hsub
      exact hne (h.subscribed (by simp [hs]) hsub).symm
    dsimp only
    rw [if_neg hskip]
    exact Or.inr ⟨rfl, h, by simp [hs], rfl⟩
  | opened s hs hfollows hgen hlimit hheard hnew =>
    by_cases hsub : f.subscribe && c.generation ≠ f.subscribed
    · dsimp only
      rw [if_pos hsub]
      obtain ⟨hsub, -⟩ : f.subscribe = true ∧ c.generation ≠ f.subscribed := by simpa using hsub
      obtain ⟨frame, hframe, htakes⟩ := htakes (h.subscribe ▸ hsub)
      rw [← h.username] at hframe
      have hsends := Channel.send_sends (subscription f.username) c deadline net₁
      generalize c.send (subscription f.username) deadline net₁ = result at hsends ⊢
      obtain ⟨r, c₂, net₂⟩ := result
      dsimp only at hsends
      cases hsends with
      | refused cause he => simp [hframe] at he
      | failed _ _ _ hn _ | waiting _ _ hn _ => simp [hs] at hn
      | sent _ _ he writes =>
        obtain ⟨rfl, rfl, rfl⟩ := he.of_open hs
        refine Or.inr ⟨rfl, ⟨hfollows.quiet_write hs writes, hlimit.trans h.limit, h.username,
          h.subscribe, fun _ _ => rfl⟩, by simp [hs], ?_⟩
        rw [← hheard]
        exact heard_congr fun i _ => by rw [writes.received]
      | broken frame' he hens _ _ _ fault hw =>
        obtain ⟨rfl, rfl, rfl⟩ := hens.of_open hs
        obtain rfl : frame = frame' := by
          rw [hframe] at he
          exact Except.ok.inj he
        rw [Network.fst_write (hnew time script writes hr), ← hend, htakes] at hw
        cases hw
    · dsimp only
      rw [if_neg hsub]
      refine Or.inr ⟨rfl, ⟨hfollows, hlimit.trans h.limit, h.username, h.subscribe, ?_⟩,
        by simp [hs], hheard⟩
      intro _ hsubscribe
      by_contra hne
      have hsubscribe : f.subscribe = true := hsubscribe
      exact hsub (by simpa using ⟨hsubscribe, Ne.symm hne⟩)

/-- What an envelope tells that was received where that can be stopped. -/
def newsOfReceived : Except Failure Received → Option (Except Failure Event)
  | .error f => if f.isLoss then none else some (.error f)
  | .ok .stopped => none
  | .ok (.envelope e) => newsOf (.ok e)

theorem Tells.polling {r : Outcome Envelope.Server} {entry : Option ByteArray}
    (h : Tells .polling r entry) : entry.bind newsOfBody = r.bind newsOf := by
  cases entry with
  | none =>
    rcases h with (rfl | rfl) | ⟨f, hf, rfl⟩
    · rfl
    · rfl
    · simp [Manner.loss, Manner.polling, hf]
      rfl
  | some body =>
    obtain rfl : r = some (Manner.polling.outcome body) := h
    rw [Manner.outcome_polling]
    rfl

theorem Tells.stoppable {r : Outcome Received} {entry : Option ByteArray}
    (h : Tells .stoppable r entry) : entry.bind newsOfBody = r.bind newsOfReceived := by
  cases entry with
  | none =>
    rcases h with (rfl | rfl) | ⟨f, hf, rfl⟩
    · rfl
    · rfl
    · simp [Manner.loss, Manner.stoppable, newsOfReceived, hf]
  | some body =>
    obtain rfl : r = some (Manner.stoppable.outcome body) := h
    have hout : Manner.stoppable.outcome body =
        ((Frame.decodeBody body).mapError .protocol).map .envelope := rfl
    simp only [Option.bind_some, newsOfBody]
    cases hd : (Frame.decodeBody (α := Envelope.Server) body).mapError Failure.protocol with
    | error f =>
      rw [hd] at hout
      have hloss := (Channel.isAligned_of_outcome hout).2
      rw [hout]
      simp [newsOf, Except.map, newsOfReceived, hloss]
    | ok e =>
      rw [hd] at hout
      rw [hout]
      rfl

theorem isLoss_of_decode {tag : String} {payload : ByteArray} {cause : ProtocolError}
    (h : Event.decode tag payload = .error cause) : (Failure.protocol cause).isLoss = false := by
  rcases Event.cause_of_decode h with rfl | ⟨e, rfl⟩ <;> rfl

theorem told_ofEnvelope (l : Look) (e : Envelope.Server) :
    told l (some (Found.ofEnvelope e)) = newsOf (.ok e) := by
  simp only [Found.ofEnvelope, newsOf]
  split
  · cases hd : Event.decode e.message e.payload with
    | ok event => rfl
    | error cause => simp [told, isLoss_of_decode hd, Except.mapError]
  · rfl

theorem Following.state (h : Following first server f₀ f net) (state : State) :
    Following first server f₀ { f with state } net :=
  ⟨h.follows, h.limit, h.username, h.subscribe, h.subscribed⟩

theorem Following.still (h : Following first server f₀ f net) (time : Nat) :
    Following first server f₀ f (net.waitUntil time) := by
  obtain ⟨⟨hend, hreach, hcount, hclosed, hidle, hopened⟩, hlimit, huser, hsub, hsubscribed⟩ := h
  exact ⟨⟨hend, hreach.of_world rfl, hcount, hclosed, hidle, hopened⟩, hlimit, huser, hsub,
    hsubscribed⟩

theorem Following.pause (h : Following first server f₀ f net) (token : Token) (deadline : Nat) :
    Following first server f₀ f (f.pause token deadline net).2 ∧
      (f.pause token deadline net).2.received = net.received := by
  simp only [Feed.pause]
  split
  · exact ⟨h, rfl⟩
  · split
    · exact ⟨h.still _, rfl⟩
    · exact ⟨h.still _, rfl⟩

/-- A feed that has received on its open socket. -/
theorem Following.receives (h : Following first server f₀ f net)
    (hadmits : ∀ n, Admits f₀ (server.reception n)) (hs : f.channel.socket ≠ none)
    (hr : ∀ held, f.channel.assembler.Holds held → (f.channel.socket = none → held = []) →
      Receives m held f.channel net r c' net') :
    Following first server f₀ { f with channel := c' } net' ∧ ∃ entry, Tells m r entry ∧
      heard first c'.generation net' =
        heard first f.channel.generation net ++ (entry.bind newsOfBody).toList := by
  obtain ⟨s, hs'⟩ := Option.ne_none_iff_exists'.mp hs
  obtain ⟨i, -, -, hholds, -⟩ := h.follows.opened s hs'
  have hsizes (i : Nat) (e : Frame.Error) : .error e ∉ (Frame.split (server.stream i)).1 := by
    have hadmit := hadmits i
    obtain ⟨time, script, writes, haccept, -⟩ := hadmit.accepts
    rw [Server.stream, haccept]
    rw [haccept] at hadmit
    exact hadmit.2.2 e
  obtain ⟨hfollows, hgen, hlimit, entry, ht, hheard⟩ :=
    h.follows.receives hs' hsizes (hr _ hholds (by simp [hs']))
  refine ⟨⟨hfollows, hlimit.trans h.limit, h.username, h.subscribe, ?_⟩, entry, ht, ?_⟩
  · intro _ hsub
    rw [hgen]
    exact h.subscribed hs hsub
  · rw [hgen]
    exact hheard

theorem Following.polls (h : Following first server f₀ f net)
    (hadmits : ∀ n, Admits f₀ (server.reception n)) (hs : f.channel.socket ≠ none) (limit : Nat) :
    Following first server f₀ { f with channel := (f.channel.poll limit net).2.1 }
        (f.channel.poll limit net).2.2 ∧
      heard first (f.channel.poll limit net).2.1.generation (f.channel.poll limit net).2.2 =
        heard first f.channel.generation net ++
          ((f.channel.poll limit net).1.bind newsOf).toList := by
  obtain ⟨h', entry, htells, hheard⟩ :=
    h.receives hadmits hs fun held => Channel.poll_receives limit net
  rw [htells.polling] at hheard
  exact ⟨h', hheard⟩

theorem Following.receivesUnless (h : Following first server f₀ f net)
    (hadmits : ∀ n, Admits f₀ (server.reception n)) (hs : f.channel.socket ≠ none) (token : Token)
    (deadline : Nat) :
    Following first server f₀ { f with channel := (f.channel.receiveUnless token deadline net).2.1 }
        (f.channel.receiveUnless token deadline net).2.2 ∧
      heard first (f.channel.receiveUnless token deadline net).2.1.generation
          (f.channel.receiveUnless token deadline net).2.2 =
        heard first f.channel.generation net ++
          ((f.channel.receiveUnless token deadline net).1.bind newsOfReceived).toList := by
  obtain ⟨h', entry, htells, hheard⟩ :=
    h.receives hadmits hs fun held => Channel.receiveUnless_receives token deadline net
  rw [htells.stoppable] at hheard
  exact ⟨h', hheard⟩

/-- What a look does that comes to an end: the feed goes on following, and the look tells what the
frames tell that were completed by it. -/
structure Looked (first : Nat) (server : Server) (f₀ f : Feed) (net : Network) (l : Look)
    (r : Outcome Found) (f' : Feed) (net' : Network) : Prop where
  following : Following first server f₀ f' net'
  heard_eq : heard first f'.channel.generation net' =
    heard first f.channel.generation net ++ (told l r).toList

/-- What comes before a look and completes no frame is a part of the look. -/
theorem Looked.of_heard {g : Feed} {net₁ : Network} {l : Look} {r : Outcome Found}
    (h : Looked first server f₀ g net₁ l r f' net')
    (he : heard first g.channel.generation net₁ = heard first f.channel.generation net) :
    Looked first server f₀ f net l r f' net' :=
  ⟨h.following, he ▸ h.heard_eq⟩

/-- A look that stops has told nothing. -/
theorem Following.looked_stopped (h : Following first server f₀ f net) (l : Look) :
    Looked first server f₀ f net l (some (.ok .stopped)) f.stopped net :=
  ⟨h.state _, by simp [told, stopped]⟩

theorem tryNext_looked (h : Following first server f₀ f net)
    (hend : f₀.channel.endpoint = server.endpoint)
    (hadmits : ∀ n, Admits f₀ (server.reception n)) {l : Look} (hl : l.once)
    (hr : (f.tryNext l.token l.deadline net).1 ≠ none) :
    Looked first server f₀ f net l (f.tryNext l.token l.deadline net).1
      (f.tryNext l.token l.deadline net).2.1 (f.tryNext l.token l.deadline net).2.2 := by
  have hconnect := h.connect hend hadmits l.deadline
  simp only [tryNext] at hr ⊢
  split
  · exact h.looked_stopped l
  · rename_i hfired
    rw [if_neg hfired] at hr
    generalize f.connect l.deadline net = result at hconnect hr ⊢
    obtain ⟨r, f₁, net₁⟩ := result
    dsimp only at hconnect
    rcases hconnect with rfl | ⟨rfl, h₁, hopen, hheard⟩
    · exact absurd rfl hr
    · dsimp only at hr ⊢
      refine Looked.of_heard (g := f₁.reading) ?_ hheard
      have h₂ : Following first server f₀ f₁.reading net₁ := h₁.state _
      have hreceives := h₂.receivesUnless hadmits hopen l.token l.deadline
      generalize f₁.reading.channel.receiveUnless l.token l.deadline net₁ = result at hreceives hr ⊢
      obtain ⟨r, c, net₂⟩ := result
      obtain ⟨h₃, hheard'⟩ := hreceives
      rcases r with _ | ⟨e | ⟨e⟩ | _⟩
      · exact absurd rfl hr
      · refine ⟨h₃.state _, hheard'.trans ?_⟩
        simp [newsOfReceived, told, hl]
      · refine ⟨h₃.state _, hheard'.trans ?_⟩
        rw [told_ofEnvelope]
        rfl
      · exact ⟨h₃.state _, hheard'⟩

theorem nextWithin_looked (h : Following first server f₀ f net)
    (hend : f₀.channel.endpoint = server.endpoint)
    (hadmits : ∀ n, Admits f₀ (server.reception n)) {l : Look} (hl : l.once = false) (fuel : Nat)
    (hr : (nextWithin l.token l.deadline fuel f net).1 ≠ none) :
    Looked first server f₀ f net l (nextWithin l.token l.deadline fuel f net).1
      (nextWithin l.token l.deadline fuel f net).2.1
      (nextWithin l.token l.deadline fuel f net).2.2 := by
  induction fuel generalizing f net with
  | zero => exact absurd rfl hr
  | succ fuel ih =>
    have hconnect := h.connect hend hadmits l.deadline
    simp only [nextWithin] at hr ⊢
    split
    · exact h.looked_stopped l
    · rename_i hfired
      rw [if_neg hfired] at hr
      generalize f.connect l.deadline net = result at hconnect hr ⊢
      obtain ⟨r, f₁, net₁⟩ := result
      dsimp only at hconnect
      rcases hconnect with rfl | ⟨rfl, h₁, hopen, hheard⟩
      · exact absurd rfl hr
      · dsimp only at hr ⊢
        refine Looked.of_heard (g := f₁.reading) ?_ hheard
        have h₂ : Following first server f₀ f₁.reading net₁ := h₁.state _
        split
        · exact h₂.looked_stopped l
        · rename_i hfired'
          rw [if_neg hfired'] at hr
          have hpolls := h₂.polls hadmits hopen (l.token.limit l.deadline)
          generalize f₁.reading.channel.poll (l.token.limit l.deadline) net₁ = result at hpolls hr ⊢
          obtain ⟨r, c, net₂⟩ := result
          obtain ⟨h₃, hheard'⟩ := hpolls
          rcases r with _ | ⟨e | e⟩
          · dsimp only at hr ⊢
            split
            · exact ⟨h₃.state _, hheard'⟩
            · rename_i hends
              simp [hends] at hr
          · refine ⟨h₃, hheard'.trans ?_⟩
            simp [newsOf, told, hl]
          · have h₄ : Following first server f₀ { f₁.reading with channel := c }.atRest net₂ :=
              h₃.state _
            dsimp only at hr hheard' ⊢
            rw [Option.bind_some, ← told_ofEnvelope l e] at hheard'
            cases hfound : Found.ofEnvelope e with
            | error cause =>
              rw [hfound] at hheard'
              exact ⟨h₄, hheard'⟩
            | ok found =>
              rw [hfound] at hr hheard'
              cases found with
              | event _ => exact ⟨h₄, hheard'⟩
              | stopped => exact ⟨h₄, hheard'⟩
              | nothing =>
                -- The frame read told nothing, so the rest of the look is a look of its own.
                have hnone : told l (some (.ok .nothing)) = none := rfl
                rw [hnone, Option.toList_none, List.append_nil] at hheard'
                refine Looked.of_heard (g := { f₁.reading with channel := c }.atRest) ?_ hheard'
                obtain ⟨hpause, hsame⟩ := h₄.pause l.token l.deadline
                dsimp only at hr ⊢
                generalize Feed.pause _ l.token l.deadline net₂ = result at hpause hsame hr ⊢
                obtain ⟨goesOn, net₃⟩ := result
                have hpaused : heard first c.generation net₃ = heard first c.generation net₂ :=
                  heard_congr fun i _ => by rw [hsame]
                rcases goesOn with _ | _ | _
                · exact absurd rfl hr
                · exact (hpause.looked_stopped l).of_heard hpaused
                · exact (ih hpause hr).of_heard hpaused

theorem look_looked (h : Following first server f₀ f net)
    (hend : f₀.channel.endpoint = server.endpoint)
    (hadmits : ∀ n, Admits f₀ (server.reception n)) (l : Look)
    (hr : (f.look l net).1 ≠ none) :
    Looked first server f₀ f net l (f.look l net).1 (f.look l net).2.1 (f.look l net).2.2 := by
  cases hl : l.once with
  | true =>
    simp only [look, hl, if_true] at hr ⊢
    exact tryNext_looked h hend hadmits hl hr
  | false =>
    simp only [look, hl] at hr ⊢
    exact nextWithin_looked h hend hadmits hl _ hr

theorem Following.run (h : Following first server f₀ f net)
    (hend : f₀.channel.endpoint = server.endpoint)
    (hadmits : ∀ n, Admits f₀ (server.reception n)) (ls : List Look)
    (hr : ∀ x ∈ (f.run ls net).1, x.2 ≠ none) :
    Following first server f₀ (f.run ls net).2.1 (f.run ls net).2.2 ∧
      heard first (f.run ls net).2.1.channel.generation (f.run ls net).2.2 =
        heard first f.channel.generation net ++
          (f.run ls net).1.filterMap fun x => told x.1 x.2 := by
  induction ls generalizing f net with
  | nil => exact ⟨h, by simp [Feed.run]⟩
  | cons l ls ih =>
    simp only [Feed.run, List.mem_cons, forall_eq_or_imp] at hr ⊢
    obtain ⟨h', hheard⟩ := look_looked (h.still l.start) hend hadmits l hr.1
    obtain ⟨h'', hheard'⟩ := ih h' hr.2
    refine ⟨h'', ?_⟩
    rw [hheard', hheard]
    have hstart : heard first f.channel.generation (net.waitUntil l.start) =
        heard first f.channel.generation net := heard_congr fun i _ => rfl
    rw [hstart, List.append_assoc, List.filterMap_cons]
    cases told l (f.look l (net.waitUntil l.start)).1 <;> rfl

/-- A feed that has not connected yet. -/
def fresh (endpoint : Endpoint) (username : String) (subscribe : Bool)
    (connectTimeout readTimeout pollInterval : Nat) : Feed where
  channel := { endpoint, connectTimeout, readTimeout }
  username
  subscribe
  pollInterval

theorem follows_start (connectTimeout readTimeout : Nat) (h : net.Reaches server) :
    Follows net.connections.length server
      { endpoint := server.endpoint, connectTimeout, readTimeout } net where
  endpoint := rfl
  reaches := h
  count := rfl
  closed i hi := absurd hi (Nat.not_lt_zero i)
  idle _ := Frame.Assembler.holds_initial
  opened s hs := by simp at hs

theorem Follows.received_prefix (h : Follows first server c net) {i : Nat} (hi : i < c.generation) :
    net.received (first + i) <+: server.stream i := by
  by_cases hs : c.socket = some (first + i)
  · obtain ⟨j, -, hj, -, -, hstream⟩ := h.opened _ hs
    obtain rfl : i = j := Nat.add_left_cancel hj
    exact ⟨_, hstream⟩
  · rw [h.closed i hi hs]

/-- What was heard so far is the beginning of what all sockets have to tell. -/
theorem Follows.heard_prefix (h : Follows first server c net) :
    heard first c.generation net <+:
      (List.range c.generation).flatMap fun i => newsIn (server.stream i) := by
  have hclosed (n : Nat) (hn : ∀ i, i < n → net.received (first + i) = server.stream i) :
      heard first n net = (List.range n).flatMap fun i => newsIn (server.stream i) := by
    simp only [heard]
    apply List.flatMap_congr
    intro i hi
    rw [hn i (List.mem_range.mp hi)]
  cases hs : c.socket with
  | none => rw [hclosed c.generation fun i hi => h.closed i hi (by simp [hs])]
  | some s =>
    obtain ⟨j, hgen, rfl, -, -, hstream⟩ := h.opened s hs
    have hbefore := hclosed j fun i hi => by
      refine h.closed i (by omega) ?_
      rw [hs]
      intro he
      exact absurd (Nat.add_left_cancel (Option.some.inj he)) (Nat.ne_of_gt hi)
    rw [hgen, heard_succ, hbefore, List.range_succ, List.flatMap_append, List.flatMap_singleton,
      ← hstream, newsIn_append]
    exact (List.prefix_append_right_inj _).mpr (List.prefix_append _ _)

/-- Let every attempt to connect succeed, every subscription be taken, and no frame announce more
than the limit. Then the looks tell, in order and each once, what the complete frames tell that
were read, and this is the beginning of what the complete frames of all sockets tell, one socket
after the other. -/
theorem run_delivers (ls : List Look) (server : Server) (username : String) (subscribe : Bool)
    (connectTimeout readTimeout pollInterval : Nat) (net : Network) (hreach : net.Reaches server)
    (hadmits : ∀ r ∈ server.otherwise :: server.receptions, Admits
      (fresh server.endpoint username subscribe connectTimeout readTimeout pollInterval) r)
    (hr : ∀ x ∈ ((fresh server.endpoint username subscribe connectTimeout readTimeout
      pollInterval).run ls net).1, x.2 ≠ none) :
    let first := fresh server.endpoint username subscribe connectTimeout readTimeout pollInterval
    let delivered := (first.run ls net).1.filterMap fun x => told x.1 x.2
    let channel := (first.run ls net).2.1.channel
    let read := fun i => (first.run ls net).2.2.received (net.connections.length + i)
    let opened := List.range channel.generation
    delivered = opened.flatMap (fun i => newsIn (read i)) ∧
      (∀ i ∈ opened, read i <+: server.stream i ∧
        (channel.socket ≠ some (net.connections.length + i) → read i = server.stream i)) ∧
      delivered <+: opened.flatMap fun i => newsIn (server.stream i) := by
  have hadmits' (n : Nat) : Admits (fresh server.endpoint username subscribe connectTimeout
      readTimeout pollInterval) (server.reception n) := by
    apply hadmits
    rw [Server.reception]
    cases hn : server.receptions[n]? with
    | none => exact List.mem_cons_self
    | some r => exact List.mem_cons_of_mem _ (List.mem_of_getElem? hn)
  have hstart : Following net.connections.length server (fresh server.endpoint username subscribe
      connectTimeout readTimeout pollInterval) (fresh server.endpoint username subscribe
      connectTimeout readTimeout pollInterval) net :=
    ⟨follows_start connectTimeout readTimeout hreach, rfl, rfl, rfl, by simp [fresh]⟩
  obtain ⟨h, hheard⟩ := hstart.run rfl hadmits' ls hr
  have hnone : heard net.connections.length (fresh server.endpoint username subscribe
      connectTimeout readTimeout pollInterval).channel.generation net = [] := rfl
  rw [hnone, List.nil_append] at hheard
  refine ⟨hheard.symm, ?_, ?_⟩
  · intro i hi
    have hi := List.mem_range.mp hi
    exact ⟨h.follows.received_prefix hi, h.follows.closed i hi⟩
  · rw [← hheard]
    exact h.follows.heard_prefix

/-- A server that closes its first connection within a frame. The unknown tag of the frame before
it is told, and then the event on the second connection. -/
theorem run_delivers_cut_short :
    let joined : List UInt8 := [0, 0, 0, 32, 18, 12, 80, 108, 97, 121, 101, 114, 74, 111, 105, 110,
      101, 100, 26, 16, 123, 34, 117, 115, 101, 114, 110, 97, 109, 101, 34, 58, 34, 97, 34, 125]
    let unknown : List UInt8 := [0, 0, 0, 10, 18, 4, 78, 111, 112, 101, 26, 2, 123, 125]
    let server : Server := {
      endpoint := ⟨"h", 1⟩
      receptions := [.accept 1 [.await 1, .send (unknown ++ [0, 0]).toByteArray, .finish] []]
      otherwise := .accept 0 [.send joined.toByteArray] [] }
    let net : Network := { servers := [server] }
    let looks : List Look :=
      [⟨false, .never, 0, 99⟩, ⟨true, .firing 9, 0, 99⟩, ⟨false, .never, 0, 99⟩]
    let first := fresh server.endpoint "p" true 5 5 5
    let delivered := (first.run looks net).1.filterMap fun x => told x.1 x.2
    (∀ x ∈ (first.run looks net).1, x.2 ≠ none) ∧
      delivered = [.error (.protocol (.unknownEvent "Nope")), .ok (.playerJoined "a")] ∧
      delivered <+: (List.range (first.run looks net).2.1.channel.generation).flatMap fun i =>
        newsIn (server.stream i) := by
  intro joined unknown server net looks
  have hresults : ((fresh server.endpoint "p" true 5 5 5).run looks net).1.map
      (fun x => (x.2.isSome, told x.1 x.2)) =
      [(true, some (.error (.protocol (.unknownEvent "Nope")))), (true, none),
        (true, some (.ok (.playerJoined "a")))] := by
    simp only [joined, unknown, server, net, looks]
    cbv
  have hr : ∀ x ∈ ((fresh server.endpoint "p" true 5 5 5).run looks net).1, x.2 ≠ none := by
    intro x hx
    have hall := congrArg (List.all · Prod.fst) hresults
    simp only [List.all_map] at hall
    exact Option.isSome_iff_ne_none.mp (List.all_eq_true.mp hall x hx)
  have hdelivered := congrArg (List.filterMap Prod.snd) hresults
  rw [List.filterMap_map] at hdelivered
  have hframe : ∃ frame, Frame.encode (subscription "p") = .ok frame := by
    have hsome : (Frame.encode (subscription "p")).toOption.isSome = true := by cbv
    cases he : Frame.encode (subscription "p") with
    | ok frame => exact ⟨frame, rfl⟩
    | error cause =>
      rw [he] at hsome
      cases hsome
  have hsizes (script : List Act)
      (h : (Frame.split (Act.bytes false script)).1.all Except.isOk = true) (e : Frame.Error) :
      .error e ∉ (Frame.split (Act.bytes false script)).1 := by
    intro he
    cases List.all_eq_true.mp h _ he
  have hadmits : ∀ r ∈ server.otherwise :: server.receptions,
      Admits (fresh server.endpoint "p" true 5 5 5) r := by
    simp only [server, joined, unknown, List.forall_mem_cons]
    refine ⟨?_, ?_, List.forall_mem_nil _⟩
    · exact admits_of_orderly (by decide) (by simp) hframe (hsizes _ (by cbv))
    · exact admits_of_orderly (by decide) (by simp) hframe (hsizes _ (by cbv))
  have hreach : net.Reaches server := ⟨rfl, by simp [net]⟩
  obtain ⟨-, -, hprefix⟩ := run_delivers looks server "p" true 5 5 5 net hreach hadmits hr
  exact ⟨hr, hdelivered, hprefix⟩

end Gallows.Feed
