import Gallows.Network.Basic
import Gallows.Proofs.Network.Script

/-!
The traffic on the connections of a network: what the client has read and written on each, and what
is still to be read. Reading and writing add to the traffic of one connection, and nothing else
changes any.
-/
namespace Gallows

variable {net : Network} {s : Socket} {now limit deadline : Nat} {bytes : ByteArray}

/-! What a script of reads or writes lets through. -/

theorem Source.size_of_read {source rest : Source} {piece : ByteArray}
    (h : source.read limit = (.ok piece, rest)) : piece.size ≤ limit := by
  induction source with
  | nil =>
    simp only [Source.read, Prod.mk.injEq, Except.ok.injEq] at h
    simp [← h.1]
  | cons item source ih =>
    cases item with
    | ended =>
      simp only [Source.read, Prod.mk.injEq, Except.ok.injEq] at h
      simp [← h.1]
    | failed fault => simp [Source.read] at h
    | data bytes =>
      simp only [Source.read] at h
      split at h
      · exact ih h
      · rename_i chunk left ht
        have hsize : chunk.size ≤ limit := by
          have := congrArg List.length (Cursor.rest_of_take? ht).1
          simp at this
          omega
        split at h
        · exact ih h
        · split at h <;> (cases h; exact hsize)

/-- Writing puts a part of the bytes behind those written before, and all of them just when it
succeeds. -/
theorem Sink.writeRest_written (passes : Fault → Bool) (sink : Sink) (script : List Sink.Step)
    (c : Cursor) :
    ∃ sent, sent <+: c.rest ∧
      (sink.writeRest passes script c).2.written.data.toList = sink.written.data.toList ++ sent ∧
      ((sink.writeRest passes script c).1 = .ok () ↔ sent = c.rest) := by
  have hnil (c : Cursor) : c.remaining = 0 ↔ [] = c.rest := by
    rw [← Cursor.length_rest, List.length_eq_zero_iff, eq_comm]
  induction script generalizing sink c with
  | nil =>
    rw [Sink.writeRest]
    by_cases h0 : c.remaining = 0
    · exact ⟨[], by simp [h0, ← hnil c]⟩
    · refine ⟨c.rest, List.prefix_refl _, ?_, by simp [h0]⟩
      simp [h0, Cursor.rest, List.extract_eq_take_drop]
  | cons step script ih =>
    rw [Sink.writeRest.eq_def]
    by_cases h0 : c.remaining = 0
    · exact ⟨[], by simp [h0, ← hnil c]⟩
    · cases step with
      | fails fault =>
        by_cases ht : passes fault
        · simpa [h0, ht] using ih sink c
        · exact ⟨[], by simp [h0, ht, ← hnil c]⟩
      | takes count =>
        cases hk : c.take? (min count c.remaining) with
        | none => exact ⟨[], by simp [h0, hk, ← hnil c]⟩
        | some taken =>
          obtain ⟨chunk, left⟩ := taken
          by_cases hc : count = 0
          · rw [hc] at hk
            have hk : c.take? 0 = some (chunk, left) := by simpa using hk
            exact ⟨[], by simp [h0, hc, hk, ← hnil c]⟩
          · obtain ⟨hchunk, hleft⟩ := Cursor.rest_of_take? hk
            have hsplit : c.rest = chunk.data.toList ++ left.rest := by
              rw [hchunk, hleft, List.take_append_drop]
            obtain ⟨sent, hpre, hw, hok⟩ := ih { sink with written := sink.written ++ chunk } left
            refine ⟨chunk.data.toList ++ sent, ?_, ?_, ?_⟩
            · rw [hsplit]
              exact (List.prefix_append_right_inj _).mpr hpre
            · simpa [h0, hk, hc, List.append_assoc] using hw
            · rw [hsplit, List.append_cancel_left_eq, ← hok]
              simp [h0, hk, hc]

theorem Sink.write_written (sink : Sink) (bytes : ByteArray) :
    ∃ sent, sent <+: bytes.data.toList ∧
      (sink.write bytes).2.written.data.toList = sink.written.data.toList ++ sent ∧
      ((sink.write bytes).1 = .ok () ↔ sent = bytes.data.toList) := by
  have hrest := Sink.writeRest_written Fault.isTransient sink sink.script (.ofBytes bytes)
  rwa [Cursor.rest_ofBytes] at hrest

theorem Sink.push_written (sink : Sink) (bytes : ByteArray) :
    ∃ sent, sent <+: bytes.data.toList ∧
      (sink.push bytes).2.written.data.toList = sink.written.data.toList ++ sent ∧
      ((sink.push bytes).1 = .ok () ↔ sent = bytes.data.toList) := by
  have hrest := Sink.writeRest_written (fun _ => false) sink sink.script (.ofBytes bytes)
  rwa [Cursor.rest_ofBytes] at hrest

namespace Connection

variable {c : Connection}

/-- What a server does by itself touches neither what was read from it nor what was written to
it. -/
theorem playScript_eq (now : Nat) (c : Connection) (script : List Act) :
    ∃ script' clock inbound severed, playScript now c script =
      { c with script := script', clock, inbound, severed } := by
  induction script generalizing c with
  | nil => exact ⟨[], c.clock, c.inbound, c.severed, rfl⟩
  | cons act script ih =>
    cases act with
    | await frames =>
      simp only [playScript]
      split
      · obtain ⟨script', clock, inbound, severed, h⟩ := ih { c with clock := max c.clock c.touched }
        exact ⟨script', clock, inbound, severed, h⟩
      · exact ⟨_, c.clock, c.inbound, c.severed, rfl⟩
    | pause time =>
      simp only [playScript]
      split
      · obtain ⟨script', clock, inbound, severed, h⟩ := ih { c with clock := c.clock + time }
        exact ⟨script', clock, inbound, severed, h⟩
      · exact ⟨_, c.clock, c.inbound, c.severed, rfl⟩
    | send bytes =>
      simp only [playScript]
      split
      · exact ih c
      · obtain ⟨script', clock, inbound, severed, h⟩ :=
          ih { c with inbound := c.inbound ++ [.data (.ofBytes bytes)] }
        exact ⟨script', clock, inbound, severed, h⟩
    | finish =>
      obtain ⟨script', clock, inbound, severed, h⟩ := ih { c with inbound := c.inbound ++ [.ended] }
      exact ⟨script', clock, inbound, severed, h⟩
    | reset =>
      simp only [playScript]
      split
      · exact ih c
      · exact ⟨[], c.clock, _, true, rfl⟩

@[simp] theorem received_play : (c.play now).received = c.received := by
  obtain ⟨script, clock, inbound, severed, h⟩ := playScript_eq now c c.script
  rw [play, h]

@[simp] theorem outbound_play : (c.play now).outbound = c.outbound := by
  obtain ⟨script, clock, inbound, severed, h⟩ := playScript_eq now c c.script
  rw [play, h]

@[simp] theorem received_close : (c.close now).received = c.received := by
  simp [close]

@[simp] theorem outbound_close : (c.close now).outbound = c.outbound := by
  simp [close]

@[simp] theorem outbound_take : (c.take limit).2.outbound = c.outbound := by
  simp only [take]
  split <;> rfl

@[simp] theorem received_write : (c.write now bytes).2.received = c.received := by
  simp only [write]
  split <;> simp

theorem written_write (c : Connection) (now : Nat) (bytes : ByteArray) :
    ∃ sent, sent <+: bytes.data.toList ∧
      (c.write now bytes).2.outbound.written.data.toList =
        c.outbound.written.data.toList ++ sent ∧
      ((c.write now bytes).1 = .ok () → sent = bytes.data.toList) := by
  simp only [write]
  split
  · exact ⟨[], List.nil_prefix, by simp, by simp⟩
  · obtain ⟨sent, hpre, hw, hok⟩ := Sink.push_written c.outbound bytes
    exact ⟨sent, hpre, by simpa using hw, by simpa using hok.mp⟩

end Connection

namespace Network

/-- What a view of connections shows of a connection, and nothing where there is none. -/
def view (v : Connection → List UInt8) (net : Network) (s : Socket) : List UInt8 :=
  (net.connections[s]?).elim [] v

/-- The bytes that the client has read from a connection. -/
def received : Network → Socket → List UInt8 := view (·.received.data.toList)

/-- The bytes that the client has written to a connection. -/
def written : Network → Socket → List UInt8 := view (·.outbound.written.data.toList)

/-- The bytes that are still to be read from a connection. -/
def coming : Network → Socket → List UInt8 := view (·.coming)

/-- What a client meets that has no connection: what keeps it from every server, and the servers. -/
def world (net : Network) : Option Fault × List Server := (net.outage, net.servers)

/-- Whether all that has arrived on a connection brings something. -/
def Tidy (net : Network) (s : Socket) : Prop := ∀ c, net.connections[s]? = some c → c.Tidy

/-- The bytes that a read gives. -/
def delivered : Option (Except Fault ByteArray) → List UInt8
  | some (.ok piece) => piece.data.toList
  | _ => []

variable {v : Connection → List UInt8} {change : Connection → Connection}

theorem view_modify_of_eq (h : ∀ c, v (change c) = v c) :
    view v (net.modify s change) = view v net := by
  funext t
  simp only [view, modify, List.getElem?_modify]
  by_cases hs : s = t
  · cases net.connections[t]? <;> simp [hs, h]
  · simp [hs]

theorem view_modify {c : Connection} (hc : net.connections[s]? = some c) (c' : Connection) :
    view v (net.modify s fun _ => c') = Function.update (view v net) s (v c') := by
  funext t
  by_cases hs : t = s
  · subst hs
    simp [view, modify, hc]
  · simp [view, modify, Ne.symm hs, hs]

theorem view_append {c : Connection} (h : v c = []) (connections : List Connection) :
    view v { net with connections := connections ++ [c] } = view v { net with connections } := by
  funext t
  by_cases ht : t < connections.length
  · simp [view, List.getElem?_append_left ht]
  · rcases Nat.eq_or_lt_of_not_lt ht with he | hg
    · simp [view, he, h]
    · have : connections.length + 1 ≤ t := hg
      simp [view, List.getElem?_eq_none, this, Nat.le_of_lt hg]

@[simp] theorem view_waitUntil (time : Nat) : view v (net.waitUntil time) = view v net := rfl

theorem view_reception (net : Network) (v : Connection → List UInt8) (endpoint : Endpoint) :
    view v (net.reception endpoint).2 = view v net := by
  simp only [reception]
  split
  · rfl
  · split <;> rfl

@[simp] theorem received_close : (net.close s).received = net.received :=
  view_modify_of_eq fun _ => by simp

@[simp] theorem written_close : (net.close s).written = net.written :=
  view_modify_of_eq fun _ => by simp

theorem length_close : (net.close s).connections.length = net.connections.length := by
  simp [close, modify]

theorem length_reception (net : Network) (endpoint : Endpoint) :
    (net.reception endpoint).2.connections.length = net.connections.length := by
  simp only [reception]
  split
  · rfl
  · split <;> rfl

theorem view_accept (endpoint : Endpoint) (script : List Act) (writes : List Sink.Step)
    (h : ∀ c : Connection, c.received = .empty → c.outbound.written = .empty → v c = []) :
    view v (net.accept endpoint script writes).2 = view v net := by
  simp only [accept]
  rw [view_append (h _ (by simp) (by simp))]

/-- An attempt to connect reads and writes nothing. -/
theorem view_connect (endpoint : Endpoint) (deadline : Nat)
    (h : ∀ c : Connection, c.received = .empty → c.outbound.written = .empty → v c = [])
    (hc : ∀ (c : Connection) now, v (c.close now) = v c) :
    view v (net.connect endpoint deadline).2 = view v net := by
  have hr := view_reception net v endpoint
  simp only [connect]
  split
  · rfl
  · split
    · split
      · simp only [view_accept _ _ _ h, view_waitUntil, hr]
      · simp only [close, view_modify_of_eq fun c => hc c _, view_accept _ _ _ h,
          view_waitUntil, hr]
    · split <;> simp only [view_waitUntil, hr]
    · simp only [view_waitUntil, hr]

theorem received_connect (endpoint : Endpoint) (deadline : Nat) :
    (net.connect endpoint deadline).2.received = net.received :=
  view_connect endpoint deadline (fun c h _ => by simp [h]) (fun c _ => by simp)

theorem written_connect (endpoint : Endpoint) (deadline : Nat) :
    (net.connect endpoint deadline).2.written = net.written :=
  view_connect endpoint deadline (fun c _ h => by simp [h]) (fun c _ => by simp)

/-- A socket that is opened is the next one. -/
theorem connect_eq_some {endpoint : Endpoint}
    (h : (net.connect endpoint deadline).1 = some (.ok s)) :
    s = net.connections.length ∧
      (net.connect endpoint deadline).2.connections.length = net.connections.length + 1 := by
  have hr := length_reception net endpoint
  simp only [connect] at h ⊢
  split at h
  · simp at h
  · split at h
    · split at h
      · rename_i hlt
        simp only [accept, Option.some.injEq, Except.ok.injEq] at h
        simp [hlt, accept, waitUntil, hr, ← h]
      · simp at h
    · split at h <;> simp at h
    · simp at h

theorem length_connect (endpoint : Endpoint) (deadline : Nat) :
    net.connections.length ≤ (net.connect endpoint deadline).2.connections.length := by
  have hr := length_reception net endpoint
  simp only [connect]
  split
  · exact Nat.le_refl _
  · split
    · split <;> simp [accept, waitUntil, close, modify, hr]
    · split <;> simp [waitUntil, hr]
    · simp [waitUntil, hr]

theorem length_connect_le (endpoint : Endpoint) (deadline : Nat) :
    (net.connect endpoint deadline).2.connections.length ≤ net.connections.length + 1 := by
  have hr := length_reception net endpoint
  simp only [connect]
  split
  · exact Nat.le_succ _
  · split
    · split <;> simp [accept, waitUntil, close, modify, hr]
    · split <;> simp [waitUntil, hr]
    · simp [waitUntil, hr]

/-- Reading adds what it gives to what has been read from its connection. -/
theorem received_read (net : Network) (s : Socket) (limit deadline : Nat) :
    (net.read s limit deadline).2.received =
      Function.update net.received s
        (net.received s ++ delivered (net.read s limit deadline).1) := by
  simp only [read]
  split
  · simp [delivered]
  · rename_i c hc
    have hv : net.received s = c.received.data.toList := by simp [received, view, hc]
    split
    · simp [received, view_waitUntil, view_modify hc, delivered, ← hv]
    · rename_i time _
      have hc' : (net.waitUntil time).connections[s]? = some c := hc
      simp only [received, view_waitUntil, view_modify hc']
      rw [← received, hv]
      simp only [Connection.take]
      split <;> simp [delivered]

theorem written_read (net : Network) (s : Socket) (limit deadline : Nat) :
    (net.read s limit deadline).2.written = net.written := by
  simp only [read]
  split
  · rfl
  · rename_i c hc
    have hv : net.written s = c.outbound.written.data.toList := by simp [written, view, hc]
    split
    · simp [written, view_waitUntil, view_modify hc, ← hv]
    · rename_i time _
      have hc' : (net.waitUntil time).connections[s]? = some c := hc
      simp only [written, view_waitUntil, view_modify hc']
      rw [← written]
      simp [← hv]

theorem length_read (net : Network) (s : Socket) (limit deadline : Nat) :
    (net.read s limit deadline).2.connections.length = net.connections.length := by
  simp only [read]
  split
  · rfl
  · split <;> simp [waitUntil, modify]

theorem size_of_read {piece : ByteArray} (h : (net.read s limit deadline).1 = some (.ok piece)) :
    piece.size ≤ limit := by
  simp only [read] at h
  split at h
  · simp at h
  · split at h
    · simp at h
    · simp only [Option.some.injEq] at h
      simp only [Connection.take] at h
      split at h
      · rename_i hr
        cases h
        exact Source.size_of_read (Prod.ext hr rfl)
      · cases h

theorem received_write (net : Network) (s : Socket) (bytes : ByteArray) :
    (net.write s bytes).2.received = net.received := by
  simp only [write]
  split
  · rfl
  · rename_i c hc
    have hv : net.received s = c.received.data.toList := by simp [received, view, hc]
    simp [received, view_modify hc, ← hv]

/-- Writing adds a part of the bytes to what has been written, and all of them if it succeeds. -/
theorem written_write (net : Network) (s : Socket) (bytes : ByteArray) :
    ∃ sent, sent <+: bytes.data.toList ∧
      (net.write s bytes).2.written = Function.update net.written s (net.written s ++ sent) ∧
      ((net.write s bytes).1 = .ok () → sent = bytes.data.toList) := by
  simp only [write]
  split
  · exact ⟨[], List.nil_prefix, by simp, by simp⟩
  · rename_i c hc
    have hv : net.written s = c.outbound.written.data.toList := by simp [written, view, hc]
    obtain ⟨sent, hp, hw, hok⟩ := Connection.written_write c net.now bytes
    refine ⟨sent, hp, ?_, hok⟩
    simp [written, view_modify hc, ← hv, hw]

theorem fst_write {c : Connection} (hc : net.connections[s]? = some c) (bytes : ByteArray) :
    (net.write s bytes).1 = (c.write net.now bytes).1 := by
  simp only [write, hc]

theorem length_write (net : Network) (s : Socket) (bytes : ByteArray) :
    (net.write s bytes).2.connections.length = net.connections.length := by
  simp only [write]
  split <;> simp [modify]

/-! What is still to be read. -/

theorem coming_of_getElem? {c : Connection} (hc : net.connections[s]? = some c) :
    net.coming s = c.coming := by simp [coming, view, hc]

theorem coming_modify {c : Connection} (hc : net.connections[s]? = some c) (c' : Connection) :
    (net.modify s fun _ => c').coming s = c'.coming := by
  rw [coming, view_modify hc, Function.update_self]

theorem tidy_modify {c' : Connection} (h : c'.Tidy) : (net.modify s fun _ => c').Tidy s := by
  intro c hc
  simp only [modify, List.getElem?_modify] at hc
  obtain ⟨d, -, hd⟩ := Option.map_eq_some_iff.mp hc
  simp only [if_true] at hd
  rwa [← hd]

/-- What a read does to what is still to come. -/
inductive Delivers (s : Socket) (net : Network) : Option (Except Fault ByteArray) → Network → Prop
  | nothing {net' : Network} (ht : net'.Tidy s) (hc : net.coming s = net'.coming s) :
      Delivers s net none net'
  | piece {net' : Network} (piece : ByteArray) (h0 : piece.size ≠ 0) (ht : net'.Tidy s)
      (hc : net.coming s = piece.data.toList ++ net'.coming s) :
      Delivers s net (some (.ok piece)) net'
  | ended {net' : Network} (hc : net.coming s = []) : Delivers s net (some (.ok .empty)) net'
  | failed {net' : Network} (fault : Fault) (hf : fault.isTransient = false)
      (hc : net.coming s = []) : Delivers s net (some (.error fault)) net'

theorem delivers_take {c : Connection} (hc : net.connections[s]? = some c) {c' : Connection}
    (ht : c'.Tidy) (hi : c'.inbound ≠ []) (hcc : c'.coming = c.coming) (h0 : 0 < limit)
    (time : Nat) :
    Delivers s net (some (c'.take limit).1)
      ((net.waitUntil time).modify s fun _ => (c'.take limit).2) := by
  have hcoming := coming_of_getElem? hc
  have hs := Source.read_serves ht hi h0
  have hc' : (net.waitUntil time).connections[s]? = some c := hc
  rw [← hcc] at hcoming
  simp only [Connection.take]
  generalize c'.inbound.read limit = result at hs ⊢
  obtain ⟨r, rest⟩ := result
  cases hs with
  | piece piece hne hb ho hp =>
    refine .piece piece hne (tidy_modify hp) ?_
    rw [coming_modify hc', hcoming]
    simp [Connection.coming, hb, ho]
  | ended hb ho _ => exact .ended (by simp [hcoming, Connection.coming, hb, ho])
  | broken hb ho _ =>
    exact .failed _ rfl (by simp [hcoming, Connection.coming, hb, ho])

theorem delivers_read (ht : net.Tidy s) (h0 : 0 < limit) (deadline : Nat) :
    Delivers s net (net.read s limit deadline).1 (net.read s limit deadline).2 := by
  simp only [read]
  split
  · rename_i hc
    exact .failed _ rfl (by simp [coming, view, hc])
  · rename_i c hc
    have hplay := (ht c hc).play net.now
    split
    · refine .nothing (tidy_modify hplay) ?_
      have hw : ((net.modify s fun _ => c.play net.now).waitUntil deadline).coming s =
          (net.modify s fun _ => c.play net.now).coming s := rfl
      rw [coming_of_getElem? hc, hw, coming_modify hc, Connection.coming_play]
    · rename_i time htime
      refine delivers_take hc (hplay.play _) ?_ (by simp) h0 time
      by_cases hi : (c.play net.now).inbound.isEmpty
      · rw [if_pos hi] at htime
        exact Connection.inbound_play_of_nextArrival? (Option.filter_eq_some_iff.mp htime).1
          (Nat.le_max_right _ _)
      · intro hn
        have hp := Connection.inbound_playScript (net.waitUntil time).now (c.play net.now)
          (c.play net.now).script
        rw [← Connection.play, hn, List.prefix_nil] at hp
        simp [hp] at hi

theorem coming_write (net : Network) (s : Socket) (bytes : ByteArray) :
    (net.write s bytes).2.coming = net.coming := by
  simp only [write]
  split
  · rfl
  · rename_i c hc
    have hv : net.coming s = c.coming := coming_of_getElem? hc
    simp only [coming, view_modify hc]
    rw [Connection.coming_write, ← hv, coming, Function.update_eq_self]

theorem Tidy.write (h : net.Tidy s) (bytes : ByteArray) : (net.write s bytes).2.Tidy s := by
  simp only [Network.write]
  split
  · exact h
  · rename_i c hc
    exact tidy_modify ((h c hc).write net.now bytes)

theorem world_read (net : Network) (s : Socket) (limit deadline : Nat) :
    (net.read s limit deadline).2.world = net.world := by
  simp only [read]
  split
  · rfl
  · split <;> rfl

theorem world_write (net : Network) (s : Socket) (bytes : ByteArray) :
    (net.write s bytes).2.world = net.world := by
  simp only [write]
  split <;> rfl

/-! Ways from one network to another. -/

variable {net' : Network} {socket : Socket} {new : List UInt8}

/-- Nothing is read or written on the way from one network to the other. -/
structure Quiet (net net' : Network) : Prop where
  received : net'.received = net.received
  written : net'.written = net.written
  length : net.connections.length ≤ net'.connections.length

/-- On the way from one network to the other nothing is read or written, and nothing opened. -/
structure Still (net net' : Network) : Prop extends Quiet net net' where
  count : net'.connections.length = net.connections.length
  world : net'.world = net.world

/-- On the way from one network to the other `new` is read from a socket, and no more. -/
structure Reads (socket : Socket) (new : List UInt8) (net net' : Network) : Prop where
  received : net'.received = Function.update net.received socket (net.received socket ++ new)
  written : net'.written = net.written
  length : net'.connections.length = net.connections.length
  world : net'.world = net.world
  coming : net.Tidy socket → net'.Tidy socket ∧ net.coming socket = new ++ net'.coming socket

/-- On the way from one network to the other `new` is written to a socket, and no more. -/
structure Writes (socket : Socket) (new : List UInt8) (net net' : Network) : Prop where
  received : net'.received = net.received
  written : net'.written = Function.update net.written socket (net.written socket ++ new)
  length : net'.connections.length = net.connections.length
  world : net'.world = net.world
  coming : net'.coming = net.coming
  tidy : net.Tidy socket → net'.Tidy socket

/-- On the way from one network to the other a socket is found to have nothing more to read. -/
structure Ends (socket : Socket) (net net' : Network) : Prop extends Still net net' where
  coming : net.Tidy socket → net.coming socket = []

/-- What comes of a read. -/
inductive Reading (socket : Socket) (limit : Nat) (net : Network) :
    Option (Except Fault ByteArray) → Network → Prop
  | nothing {net' : Network} (reads : Reads socket [] net net') : Reading socket limit net none net'
  | piece {net' : Network} (piece : ByteArray) (h0 : 0 < piece.size) (hl : piece.size ≤ limit)
      (reads : Reads socket piece.data.toList net net') :
      Reading socket limit net (some (.ok piece)) net'
  | ended {net' : Network} (piece : ByteArray) (h0 : piece.size = 0) (ends : Ends socket net net') :
      Reading socket limit net (some (.ok piece)) net'
  | retry {net' : Network} (fault : Fault) (hf : fault.isTransient)
      (reads : Reads socket [] net net') : Reading socket limit net (some (.error fault)) net'
  | failed {net' : Network} (fault : Fault) (hf : fault.isTransient = false)
      (ends : Ends socket net net') : Reading socket limit net (some (.error fault)) net'

theorem quiet_refl (net : Network) : Quiet net net := ⟨rfl, rfl, Nat.le_refl _⟩

theorem quiet_connect (net : Network) (endpoint : Endpoint) (deadline : Nat) :
    Quiet net (net.connect endpoint deadline).2 :=
  ⟨received_connect endpoint deadline, written_connect endpoint deadline,
    length_connect endpoint deadline⟩

theorem still_refl (net : Network) : Still net net := ⟨quiet_refl net, rfl, rfl⟩

theorem still_waitUntil (net : Network) (time : Nat) : Still net (net.waitUntil time) :=
  ⟨⟨rfl, rfl, Nat.le_refl _⟩, rfl, rfl⟩

theorem still_close (net : Network) (socket : Socket) : Still net (net.close socket) :=
  ⟨⟨received_close, written_close, Nat.le_of_eq length_close.symm⟩, length_close, rfl⟩

theorem Still.trans {net'' : Network} (h : Still net net') (h' : Still net' net'') :
    Still net net'' where
  received := h'.received.trans h.received
  written := h'.written.trans h.written
  length := Nat.le_trans h.length h'.length
  count := h'.count.trans h.count
  world := h'.world.trans h.world

theorem reads_nil (socket : Socket) (net : Network) : Reads socket [] net net :=
  ⟨by simp, rfl, rfl, rfl, fun ht => ⟨ht, rfl⟩⟩

theorem read_reading (net : Network) (socket : Socket) {limit : Nat} (h0 : 0 < limit)
    (deadline : Nat) :
    Reading socket limit net (net.read socket limit deadline).1
      (net.read socket limit deadline).2 := by
  have hreceived := received_read net socket limit deadline
  have hwritten := written_read net socket limit deadline
  have hlength := length_read net socket limit deadline
  have hworld := world_read net socket limit deadline
  have hsize (piece : ByteArray) (h : (net.read socket limit deadline).1 = some (.ok piece)) :
      piece.size ≤ limit := size_of_read h
  have hdelivers (ht : net.Tidy socket) := delivers_read ht h0 deadline
  generalize net.read socket limit deadline = result at *
  obtain ⟨r, net'⟩ := result
  have hstill (hd : delivered r = []) : Still net net' :=
    ⟨⟨by rw [hreceived, hd]; simp, hwritten, Nat.le_of_eq hlength.symm⟩, hlength, hworld⟩
  rcases r with _ | ⟨fault | piece⟩
  · refine .nothing ⟨hreceived, hwritten, hlength, hworld, fun ht => ?_⟩
    cases hdelivers ht with
    | nothing ht hc => exact ⟨ht, hc⟩
  · by_cases hf : fault.isTransient
    · refine .retry fault hf ⟨hreceived, hwritten, hlength, hworld, fun ht => ?_⟩
      cases hdelivers ht with
      | failed _ hf' _ => simp [hf] at hf'
    · refine .failed fault (by simpa using hf) ⟨hstill rfl, fun ht => ?_⟩
      cases hdelivers ht with
      | failed _ _ hc => exact hc
  · by_cases hz : piece.size = 0
    · have hn : piece.data.toList = [] := by
        rw [ByteArray.size_eq_zero_iff.mp hz]
        rfl
      refine .ended piece hz ⟨hstill hn, fun ht => ?_⟩
      cases hdelivers ht with
      | piece _ hne _ _ => exact absurd hz hne
      | ended hc => exact hc
    · refine .piece piece (Nat.pos_of_ne_zero hz) (hsize piece rfl)
        ⟨hreceived, hwritten, hlength, hworld, fun ht => ?_⟩
      cases hdelivers ht with
      | piece _ _ ht hc => exact ⟨ht, hc⟩
      | ended _ => exact absurd rfl hz

theorem Reads.trans {net'' : Network} {new' : List UInt8} (h : Reads socket new net net')
    (h' : Reads socket new' net' net'') : Reads socket (new ++ new') net net'' where
  received := by rw [h'.received, h.received]; simp
  written := h'.written.trans h.written
  length := h'.length.trans h.length
  world := h'.world.trans h.world
  coming ht := by
    obtain ⟨ht, hc⟩ := h.coming ht
    obtain ⟨ht, hc'⟩ := h'.coming ht
    exact ⟨ht, by rw [hc, hc', List.append_assoc]⟩

/-- No bytes have been read from a socket that is not there. -/
theorem received_of_le (h : net.connections.length ≤ socket) : net.received socket = [] := by
  simp [Network.received, view, List.getElem?_eq_none h]

theorem written_of_le (h : net.connections.length ≤ socket) : net.written socket = [] := by
  simp [Network.written, view, List.getElem?_eq_none h]

theorem writes_write (net : Network) (socket : Socket) (bytes : ByteArray) :
    ∃ sent, sent <+: bytes.data.toList ∧ Writes socket sent net (net.write socket bytes).2 ∧
      ((net.write socket bytes).1 = .ok () → sent = bytes.data.toList) := by
  obtain ⟨sent, hp, hw, hok⟩ := written_write net socket bytes
  exact ⟨sent, hp, ⟨received_write net socket bytes, hw, length_write net socket bytes,
    world_write net socket bytes, coming_write net socket bytes, fun ht => ht.write bytes⟩, hok⟩

end Network
end Gallows
