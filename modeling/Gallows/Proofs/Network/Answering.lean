import Gallows.Proofs.Frame.Streams
import Gallows.Proofs.Network.Arriving

/-!
Servers that answer. Such a server waits for a request, lets some time pass, and sends the frame of
its reply, in as many pieces as it likes, so that all of it has arrived before a second is over;
then it waits for the next request.
-/
namespace Gallows

namespace Act

/-- Whether an act is a piece of a reply, or a pause between pieces. -/
def isPiece : Act → Bool
  | send _ | pause _ => true
  | _ => false

/-- What arrives of the pieces of a reply. -/
def arrivals : List Act → Source
  | [] => []
  | .send bytes :: script =>
    if bytes.size = 0 then arrivals script else .data (.ofBytes bytes) :: arrivals script
  | _ :: script => arrivals script

variable {pieces : List Act}

theorem bytes_arrivals (h : ∀ act ∈ pieces, act.isPiece) :
    Source.bytes (arrivals pieces) = bytes false pieces := by
  induction pieces with
  | nil => rfl
  | cons act pieces ih =>
    obtain ⟨hact, hpieces⟩ := List.forall_mem_cons.mp h
    have ih := ih hpieces
    cases act with
    | send piece =>
      rw [arrivals, bytes, ← ih]
      split
      · rename_i h0
        rw [ByteArray.size_eq_zero_iff.mp h0]
        rfl
      · rw [Source.bytes, Cursor.rest_ofBytes]
    | pause time => exact ih
    | await _ | finish | reset => cases hact

theorem isOpen_arrivals (pieces : List Act) : Source.isOpen (arrivals pieces) := by
  induction pieces with
  | nil => rfl
  | cons act pieces ih =>
    cases act with
    | send piece =>
      rw [arrivals]
      split
      · exact ih
      · exact ih
    | await _ | pause _ | finish | reset => exact ih

end Act

/-- How a server answers a request: it lets some time pass and sends pieces, the last of which is
sent behind all pauses. -/
structure Answer where
  delay : Nat
  pieces : List Act
  last : ByteArray

namespace Answer

/-- What a server does until only the last piece is left. -/
def front (a : Answer) : List Act := .pause a.delay :: a.pieces

/-- Whether an answer is the frame of a body, and comes not at once, but less than a second behind
the request. -/
structure Carries (a : Answer) (body : List UInt8) : Prop where
  delay_pos : 0 < a.delay
  pieces : ∀ act ∈ a.pieces, act.isPiece
  last : a.last.size ≠ 0
  time : a.delay + Act.totalTime a.pieces < 1000
  size : body.length ≤ Frame.sizeLimit
  bytes : Act.bytes false a.pieces ++ a.last.data.toList = Frame.frame body

theorem Carries.front {a : Answer} {body : List UInt8} (h : a.Carries body) :
    ∀ act ∈ a.front, act.isPiece :=
  List.forall_mem_cons.mpr ⟨rfl, h.pieces⟩

end Answer

/-- Whether a script, when `n` frames have arrived, answers each of the next with the frame of one
of these bodies. Nothing is said of what follows. -/
inductive Act.Answers : Nat → List (List UInt8) → List Act → Prop
  | done (n : Nat) (script : List Act) : Answers n [] script
  | next {n : Nat} {a : Answer} {body : List UInt8} {bodies : List (List UInt8)}
      {script : List Act} (carries : a.Carries body) (more : Answers (n + 1) bodies script) :
      Answers n (body :: bodies) (.await (n + 1) :: (a.front ++ .send a.last :: script))

namespace Source

/-- More may arrive on a stream that has no end yet. -/
theorem bytes_append_of_isOpen {source : Source} (h : source.isOpen) (more : Source) :
    Source.bytes (source ++ more) = source.bytes ++ more.bytes := by
  induction source with
  | nil => rfl
  | cons item source ih =>
    cases item with
    | data cursor =>
      have ho : Source.isOpen source := h
      rw [List.cons_append, bytes, bytes, ih ho, List.append_assoc]
    | ended | failed _ => cases h

theorem isOpen_append_source (source more : Source) :
    Source.isOpen (source ++ more) = (source.isOpen && more.isOpen) := by
  induction source with
  | nil => rfl
  | cons item source ih =>
    cases item with
    | data cursor => exact ih
    | ended | failed _ => rfl

/-- A stream on which nothing more can be read for now. -/
theorem eq_nil_of_bytes {source : Source} (hp : ∀ item ∈ source, item.Proper) (ho : source.isOpen)
    (hb : source.bytes = []) : source = [] := by
  cases source with
  | nil => rfl
  | cons item source =>
    cases item with
    | data cursor =>
      have hr : 0 < cursor.remaining := (List.forall_mem_cons.mp hp).1
      rw [bytes, List.append_eq_nil_iff] at hb
      rw [← Cursor.length_rest, hb.1] at hr
      cases hr
    | ended | failed _ => cases ho

end Source

namespace Connection

variable {c : Connection} {n now time start : Nat} {pieces script : List Act}
  {body next : List UInt8} {bodies : List (List UInt8)}

/-- What has become of a reply that is complete. -/
theorem playScript_pieces (h : ∀ act ∈ pieces, act.isPiece)
    (hle : c.clock + Act.totalTime pieces ≤ now) (script : List Act) :
    playScript now c (pieces ++ script) = playScript now
      { c with
        clock := c.clock + Act.totalTime pieces
        inbound := c.inbound ++ Act.arrivals pieces } script := by
  induction pieces generalizing c with
  | nil => simp [Act.totalTime, Act.arrivals]
  | cons act pieces ih =>
    obtain ⟨hact, hpieces⟩ := List.forall_mem_cons.mp h
    rw [Act.totalTime_cons] at hle ⊢
    cases act with
    | send bytes =>
      simp only [Act.time, Nat.zero_add] at hle ⊢
      simp only [List.cons_append, playScript, Act.arrivals]
      split
      · exact ih hpieces hle
      · rw [ih (c := { c with inbound := c.inbound ++ [.data (.ofBytes bytes)] }) hpieces hle,
          List.append_assoc]
        rfl
    | pause time =>
      simp only [Act.time] at hle ⊢
      simp only [List.cons_append, playScript, Act.arrivals]
      rw [if_pos (by omega), ih (c := { c with clock := c.clock + time }) hpieces (by simp; omega)]
      simp only [Nat.add_assoc]
    | await _ | finish | reset => cases hact

/-- How much has arrived of a reply that is not complete. -/
theorem inbound_playScript_pieces (h : ∀ act ∈ pieces, act.isPiece) (hc : c.clock ≤ now)
    (hlt : now < c.clock + Act.totalTime pieces) (ho : c.inbound.isOpen) (script : List Act) :
    (playScript now c (pieces ++ script)).inbound.isOpen ∧
      (playScript now c (pieces ++ script)).inbound.bytes.length ≤
        c.inbound.bytes.length + (Act.bytes false pieces).length := by
  induction pieces generalizing c with
  | nil =>
    simp only [Act.totalTime, List.map_nil, List.sum_nil] at hlt
    omega
  | cons act pieces ih =>
    obtain ⟨hact, hpieces⟩ := List.forall_mem_cons.mp h
    rw [Act.totalTime_cons] at hlt
    cases act with
    | send bytes =>
      simp only [Act.time, Nat.zero_add] at hlt
      simp only [List.cons_append, playScript, Act.bytes, List.length_append]
      split
      · obtain ⟨hopen, hle⟩ := ih hpieces hc hlt ho
        exact ⟨hopen, by omega⟩
      · have hsent : Source.isOpen (c.inbound ++ [.data (.ofBytes bytes)]) := by
          simp [Source.isOpen_append, ho, Source.isOpen]
        have hbytes : Source.bytes (c.inbound ++ [.data (.ofBytes bytes)]) =
            c.inbound.bytes ++ bytes.data.toList := by
          simp [Source.bytes_append, ho, Source.bytes, Cursor.rest_ofBytes]
        obtain ⟨hopen, hle⟩ := ih (c := { c with
          inbound := c.inbound ++ [.data (.ofBytes bytes)] }) hpieces hc hlt hsent
        dsimp only at hle
        rw [hbytes, List.length_append] at hle
        exact ⟨hopen, by omega⟩
    | pause time =>
      simp only [Act.time] at hlt
      simp only [List.cons_append, playScript, Act.bytes]
      split
      · exact ih (c := { c with clock := c.clock + time }) hpieces ‹_› (by simp; omega) ho
      · exact ⟨ho, Nat.le_add_right _ _⟩
    | await _ | finish | reset => cases hact

/-- Whether `n` requests have been written to a connection, and nothing but them. -/
def HasWritten (c : Connection) (n : Nat) : Prop :=
  ∃ requests : List (List UInt8), requests.length = n ∧
    (∀ request ∈ requests, request.length ≤ Frame.sizeLimit) ∧
    c.outbound.written.data.toList = (requests.map Frame.frame).flatten

theorem HasWritten.length_arrived (h : c.HasWritten n) : c.arrived.length = n := by
  obtain ⟨requests, hn, hl, hwritten⟩ := h
  have hsplit := Frame.split_frames hl []
  rw [List.append_nil, ← hwritten, Frame.split_pending Frame.pending_nil] at hsplit
  rw [arrived, hsplit]
  simpa using hn

/-- Whether both ends of a connection are open, everything that is written to it is taken, and the
client has read everything. -/
structure Calm (c : Connection) : Prop where
  closed : c.closed = false
  severed : c.severed = false
  inbound : c.inbound = []
  patient : c.outbound.Patient fun _ => false

/-- A connection on which `n` requests have been answered, and these answers are to come. -/
structure Awaits (c : Connection) (n : Nat) (bodies : List (List UInt8)) (now : Nat) : Prop
    extends Calm c where
  written : c.HasWritten n
  clock : c.clock ≤ now
  touched : c.touched ≤ now
  answers : Act.Answers n bodies c.script

/-- A connection on which a request was written at the time `start`, whose answer is on its way. -/
structure Answers (c : Connection) (n : Nat) (a : Answer) (script : List Act) (start : Nat) : Prop
    extends Calm c where
  written : c.HasWritten (n + 1)
  clock : c.clock = start
  touched : c.touched = start
  script_eq : c.script = a.front ++ .send a.last :: script

theorem Awaits.wait (h : c.Awaits n bodies now) (hle : now ≤ time) : c.Awaits n bodies time :=
  { h with clock := Nat.le_trans h.clock hle, touched := Nat.le_trans h.touched hle }

/-- A server that waits for a request does nothing. -/
theorem playScript_await (hc : c.closed = false) (hn : c.arrived.length < n) (script : List Act) :
    playScript now c (.await n :: script) = { c with script := .await n :: script } := by
  rw [playScript, if_neg (by simp [isSatisfied, hc, hn])]

/-- As long as there are answers to come, a server waits for the next request. -/
theorem playScript_answers (hc : c.closed = false) (hn : c.arrived.length ≤ n)
    (h : Act.Answers n (body :: bodies) script) (now : Nat) :
    playScript now c script = { c with script } := by
  cases h with
  | next => exact playScript_await hc (Nat.lt_succ_of_le hn) _

theorem Awaits.play_eq (h : c.Awaits n (body :: bodies) now) (time : Nat) : c.play time = c :=
  playScript_answers h.closed (Nat.le_of_eq h.written.length_arrived) h.answers time

theorem awaits_accepted {writes : List Sink.Step} (endpoint : Endpoint)
    (h : Act.Answers 0 (body :: bodies) script) (hw : ∀ step ∈ writes, step.Advances fun _ => false)
    (now : Nat) :
    (accepted endpoint script writes now).Awaits 0 (body :: bodies) now := by
  have hawaits : Awaits
      { endpoint, script, clock := now, touched := now, outbound := { script := writes } }
      0 (body :: bodies) now :=
    ⟨⟨rfl, rfl, rfl, hw⟩, ⟨[], rfl, by simp, rfl⟩, Nat.le_refl _, Nat.le_refl _, h⟩
  rw [accepted, hawaits.play_eq]
  exact hawaits

variable {a : Answer}

/-- A server that has just got the request that it waited for begins with its answer. -/
theorem Calm.answers (h : c.Calm) (hwritten : c.HasWritten (n + 1)) (hclock : c.clock ≤ now)
    (htouched : c.touched = now) (carries : a.Carries body)
    (hscript : c.script = .await (n + 1) :: (a.front ++ .send a.last :: script)) :
    (c.play now).Answers n a script now := by
  have hmax : max c.clock c.touched = now := by omega
  have hpause : ¬ now + a.delay ≤ now := by
    have hpos := carries.delay_pos
    omega
  have hplay : c.play now =
      { c with clock := now, script := a.front ++ .send a.last :: script } := by
    rw [play, hscript, playScript, if_pos (by simp [isSatisfied, hwritten.length_arrived]), hmax,
      Answer.front, List.cons_append, playScript, if_neg hpause]
  rw [hplay]
  exact ⟨⟨h.closed, h.severed, h.inbound, h.patient⟩, hwritten, rfl, htouched, rfl⟩

/-- A request that is written to a server that waits for it is on its way to be answered. -/
theorem Awaits.write (h : c.Awaits n (body :: bodies) now) {frame : ByteArray}
    {request : List UInt8} (hl : request.length ≤ Frame.sizeLimit)
    (hframe : frame.data.toList = Frame.frame request) :
    (c.write now frame).1 = .ok () ∧ ∃ a script, a.Carries body ∧
      Act.Answers (n + 1) bodies script ∧ (c.write now frame).2.Answers n a script now := by
  obtain ⟨hok, hpatient, hwritten⟩ := Sink.push_patient h.patient frame
  have hlater : { c with outbound := (c.outbound.push frame).2, touched := now }.HasWritten
      (n + 1) := by
    obtain ⟨requests, hn, hls, hrequests⟩ := h.written
    refine ⟨requests ++ [request], by simp [hn], ?_, ?_⟩
    · simpa [or_imp, forall_and] using ⟨hls, hl⟩
    · rw [hwritten, hrequests, hframe]
      simp
  have hcalm : { c with outbound := (c.outbound.push frame).2, touched := now }.Calm :=
    ⟨h.closed, h.severed, h.inbound, hpatient⟩
  have hanswers := h.answers
  have hsevered : ¬ c.severed = true := by simp [h.severed]
  simp only [Connection.write, h.play_eq, if_neg hsevered]
  refine ⟨hok, ?_⟩
  generalize hscript : c.script = script at hanswers
  cases hanswers with
  | @next _ a _ _ script carries more =>
    rw [← hscript]
    exact ⟨a, script, carries, more, hcalm.answers hlater h.clock rfl carries hscript⟩

namespace Answers

/-- A server never answers at once. -/
theorem play_eq (h : c.Answers n a script start) (carries : a.Carries body) :
    c.play start = c := by
  have hpause : ¬ c.clock + a.delay ≤ start := by
    have hpos := carries.delay_pos
    rw [h.clock]
    omega
  have hscript : c.script = .pause a.delay :: (a.pieces ++ .send a.last :: script) := h.script_eq
  rw [play, hscript, playScript, if_neg hpause, ← hscript]

/-- What has become of an answer that is complete. -/
theorem complete (h : c.Answers n a script start) (carries : a.Carries body)
    (hle : start + Act.totalTime a.front ≤ time) :
    c.play time = playScript time
      { c with
        clock := start + Act.totalTime a.front
        inbound := Act.arrivals a.front ++ [.data (.ofBytes a.last)] } script ∧
    Source.bytes (Act.arrivals a.front ++ [.data (.ofBytes a.last)]) = Frame.frame body := by
  have hinbound : c.inbound ++ Act.arrivals a.front = Act.arrivals a.front := by
    rw [h.inbound, List.nil_append]
  refine ⟨?_, ?_⟩
  · calc
      c.play time = playScript time c (a.front ++ .send a.last :: script) := by
        rw [play, h.script_eq]
      _ = playScript time
          { c with
            clock := start + Act.totalTime a.front
            inbound := Act.arrivals a.front } (.send a.last :: script) := by
        rw [playScript_pieces carries.front (by rwa [h.clock]), h.clock, hinbound]
      _ = _ := by rw [playScript, if_neg carries.last]
  · rw [Source.bytes_append, if_pos (Act.isOpen_arrivals _), Act.bytes_arrivals carries.front]
    have hfront : Act.bytes false a.front = Act.bytes false a.pieces := rfl
    simpa [hfront, Source.bytes, Cursor.rest_ofBytes] using carries.bytes

/-- Within a second the answer has arrived. -/
theorem late (h : c.Answers n a script start) (carries : a.Carries body)
    (hle : start + 999 ≤ time) :
    ∃ rest, (c.play time).inbound.bytes = Frame.frame body ++ rest := by
  have htime := carries.time
  have hfront : Act.totalTime a.front = a.delay + Act.totalTime a.pieces := Act.totalTime_cons _ _
  have hcomplete : start + Act.totalTime a.front ≤ time := by omega
  obtain ⟨hplay, hbytes⟩ := h.complete carries hcomplete
  obtain ⟨more, hmore⟩ := inbound_playScript time
    { c with
      clock := start + Act.totalTime a.front
      inbound := Act.arrivals a.front ++ [.data (.ofBytes a.last)] } script
  refine ⟨Source.bytes more, ?_⟩
  rw [hplay, ← hmore, Source.bytes_append_of_isOpen, hbytes]
  simp [Source.isOpen_append, Act.isOpen_arrivals, Source.isOpen]

/-- While an answer is on its way, less than all of it has arrived. -/
theorem underway (h : c.Answers n a script start) (carries : a.Carries body) (hle : start ≤ time)
    (hlt : time < start + Act.totalTime a.front) :
    (c.play time).inbound.isOpen ∧
      (c.play time).inbound.bytes.length < (Frame.frame body).length := by
  have hlength := congrArg List.length carries.bytes
  have hlast : a.last.data.toList.length ≠ 0 := by simpa using carries.last
  rw [← h.clock] at hle hlt
  have hempty : c.inbound.isOpen := by
    rw [h.inbound]
    rfl
  obtain ⟨hopen, harrived⟩ :=
    inbound_playScript_pieces carries.front hle hlt hempty (.send a.last :: script)
  have hfront : Act.bytes false a.front = Act.bytes false a.pieces := rfl
  have hnone : Source.bytes [] = [] := rfl
  rw [List.length_append] at hlength
  rw [h.inbound, hfront, hnone, List.length_nil] at harrived
  rw [play, h.script_eq]
  exact ⟨hopen, by omega⟩

/-- If there are more answers to come, then the server waits for the next request behind the one
that is complete. -/
theorem complete_waits (h : c.Answers n a script start) (carries : a.Carries body)
    (more : Act.Answers (n + 1) (next :: bodies) script)
    (hle : start + Act.totalTime a.front ≤ time) :
    c.play time = { c with
      script
      clock := start + Act.totalTime a.front
      inbound := Act.arrivals a.front ++ [.data (.ofBytes a.last)] } := by
  rw [(h.complete carries hle).1]
  refine playScript_answers ?_ ?_ more time
  · exact h.closed
  · exact Nat.le_of_eq h.written.length_arrived

/-- If there are more answers to come, then nothing ends the stream. -/
theorem isOpen_play (h : c.Answers n a script start) (carries : a.Carries body)
    (more : Act.Answers (n + 1) (next :: bodies) script) (hle : start ≤ time) :
    (c.play time).inbound.isOpen := by
  by_cases hlt : time < start + Act.totalTime a.front
  · exact (h.underway carries hle hlt).1
  · rw [h.complete_waits carries more (Nat.le_of_not_lt hlt)]
    simp [Source.isOpen_append, Act.isOpen_arrivals, Source.isOpen]

end Answers

/-- Whether a connection is `c` at some time, but for what the client has read from it since. -/
structure Trails (c d : Connection) (time : Nat) : Prop where
  same : d = { c.play time with inbound := d.inbound, received := d.received }
  bytes : c.received.data.toList ++ (c.play time).inbound.bytes =
    d.received.data.toList ++ d.inbound.bytes
  isOpen : d.inbound.isOpen
  tidy : d.Tidy

variable {d : Connection} {later limit : Nat}

theorem trails_refl (ht : c.Tidy) (ho : (c.play time).inbound.isOpen) :
    c.Trails (c.play time) time :=
  ⟨rfl, by simp, ho, ht.play time⟩

theorem Trails.play (h : c.Trails d time) (hle : time ≤ later)
    (ho : (c.play later).inbound.isOpen) : c.Trails (d.play later) later := by
  obtain ⟨more, hmore⟩ := playScript_behind later (c.play time) (c.play time).script
  have hplay := hmore (c.play time).inbound (c.play time).received
  have hplayed : (c.play time).play later = c.play later := play_play hle c
  have hinbound : (c.play later).inbound = (c.play time).inbound ++ more := by
    rw [← hplayed]
    exact congrArg inbound hplay
  have hd : d.play later =
      { c.play later with inbound := d.inbound ++ more, received := d.received } := by
    rw [← hplayed, h.same]
    exact hmore d.inbound d.received
  rw [hinbound, Source.isOpen_append_source, Bool.and_eq_true] at ho
  have htidy := h.tidy.play later
  rw [hd] at htidy ⊢
  refine ⟨rfl, ?_, ?_, htidy⟩
  · rw [hinbound, Source.bytes_append_of_isOpen ho.1, Source.bytes_append_of_isOpen h.isOpen,
      ← List.append_assoc, h.bytes, List.append_assoc]
  · simp [Source.isOpen_append_source, h.isOpen, ho.2]

theorem Trails.take (h : c.Trails d time) (hi : d.inbound ≠ []) (h0 : 0 < limit) :
    c.Trails (d.take limit).2 time := by
  have hserves := Source.read_serves h.tidy hi h0
  have hsame := h.same
  simp only [Connection.take]
  generalize d.inbound.read limit = result at hserves ⊢
  obtain ⟨r, rest⟩ := result
  cases hserves with
  | piece piece _ hb ho hp =>
    refine ⟨?_, ?_, ho.trans h.isOpen, hp⟩
    · rw [hsame]
    · rw [h.bytes, hb]
      simp
  | ended _ ho | broken _ ho => simp [h.isOpen] at ho

/-- When the client has read an answer, the server waits for the next request. -/
theorem Answers.awaits (h : c.Answers n a script start) (carries : a.Carries body)
    (more : Act.Answers (n + 1) (next :: bodies) script) (hle : start ≤ time)
    (ht : c.Trails d time)
    (hread : d.received.data.toList = c.received.data.toList ++ Frame.frame body) :
    d.Awaits (n + 1) (next :: bodies) time := by
  have hbytes : (c.play time).inbound.bytes = Frame.frame body ++ d.inbound.bytes := by
    have hall := ht.bytes
    rw [hread, List.append_assoc] at hall
    exact List.append_cancel_left hall
  have hcomplete : start + Act.totalTime a.front ≤ time := by
    by_contra hlt
    have hless := (h.underway carries hle (Nat.lt_of_not_le hlt)).2
    rw [hbytes, List.length_append] at hless
    omega
  have hplay := h.complete_waits carries more hcomplete
  rw [hplay, (h.complete carries hcomplete).2, List.self_eq_append_right] at hbytes
  have hinbound : d.inbound = [] := Source.eq_nil_of_bytes ht.tidy ht.isOpen hbytes
  have hsame := ht.same
  rw [hplay] at hsame
  have htouched : c.touched ≤ time := h.touched ▸ hle
  rw [hsame]
  exact ⟨⟨h.closed, h.severed, hinbound, h.patient⟩, h.written, hcomplete, htouched, more⟩

end Connection

namespace Network

variable {net net' : Network} {s : Socket} {c : Connection} {start limit deadline : Nat}
  {r : Option (Except Fault ByteArray)}

/-- Whether the connection of a socket is what it was as `c`, but for what the client has read. -/
def Trails (net : Network) (s : Socket) (c : Connection) (start : Nat) : Prop :=
  ∃ d time, net.connections[s]? = some d ∧ start ≤ time ∧ time ≤ net.now ∧ c.Trails d time

/-- Reading changes nothing but what has been read. -/
theorem Trails.read (h : net.Trails s c start)
    (ho : ∀ time, start ≤ time → (c.play time).inbound.isOpen) (h0 : 0 < limit)
    (hread : net.read s limit deadline = (r, net')) : net'.Trails s c start := by
  obtain ⟨d, time, hd, hstart, hnow, htrails⟩ := h
  cases r with
  | none =>
    obtain ⟨-, rfl⟩ := read_eq_none hd hread
    have hopen := ho net.now (Nat.le_trans hstart hnow)
    exact ⟨_, net.now, getElem?_modify_same hd _, Nat.le_trans hstart hnow, Nat.le_max_left _ _,
      htrails.play hnow hopen⟩
  | some r =>
    obtain ⟨time', hle, -, hthere, -, rfl⟩ := read_eq_some hd hread
    have hlater : time ≤ time' := Nat.le_trans hnow hle
    have hopen := ho time' (Nat.le_trans hstart hlater)
    have hd' : (net.waitUntil time').connections[s]? = some d := hd
    exact ⟨_, time', getElem?_modify_same hd' _, Nat.le_trans hstart hlater, Nat.le_max_right _ _,
      (htrails.play hlater hopen).take hthere h0⟩

end Network
end Gallows
