import Gallows.Proofs.Frame.Grammar
import Gallows.Proofs.Network.Arrival
import Gallows.Proofs.Network.Reception

/-!
Servers that wait for nothing but the time to pass, and for what the client has said to them. By the
time at which such a script is due, all that it sends has arrived; every read takes some of that
away, and a read that finds nothing then finds a connection that stays open and silent.
-/
namespace Gallows

namespace Act

/-- How long an act takes. -/
def time : Act → Nat
  | pause time => time
  | _ => 0

/-- How long a script takes. -/
def totalTime (script : List Act) : Nat := (script.map time).sum

/-- Whether an act ends what the server sends. -/
def isEnd : Act → Bool
  | finish | reset => true
  | _ => false

/-- Whether a script ends what the server sends. -/
def ends (script : List Act) : Bool := script.any isEnd

/-- Whether a script waits for nothing but the time to pass, and for `n` frames at most. -/
def Timed (n : Nat) (script : List Act) : Prop := ∀ frames, await frames ∈ script → frames ≤ n

theorem Timed.tail {n : Nat} {act : Act} {script : List Act} (h : Timed n (act :: script)) :
    Timed n script :=
  fun frames hmem => h frames (List.mem_cons_of_mem _ hmem)

theorem totalTime_cons (act : Act) (script : List Act) :
    totalTime (act :: script) = act.time + totalTime script := by
  simp [totalTime]

theorem ends_cons (act : Act) (script : List Act) :
    ends (act :: script) = (act.isEnd || ends script) := by
  simp [ends]

end Act

namespace Source

theorem weight_cons (item : Item) (source : Source) :
    weight (item :: source) = item.weight + weight source := rfl

theorem weight_append (source : Source) (item : Item) :
    weight (source ++ [item]) = source.weight + item.weight := by
  induction source with
  | nil => simp [weight]
  | cons first source ih => rw [List.cons_append, weight_cons, ih, weight_cons, Nat.add_assoc]

/-- A read takes something away. -/
theorem weight_read_lt {source : Source} {limit : Nat} (hp : ∀ item ∈ source, item.Proper)
    (hs : source ≠ []) (h0 : 0 < limit) : (source.read limit).2.weight < source.weight := by
  cases source with
  | nil => exact absurd rfl hs
  | cons item rest =>
    rw [weight_cons]
    cases item with
    | ended | failed _ =>
      simp only [read, Item.weight]
      omega
    | data cursor =>
      have hr : 0 < cursor.remaining := (List.forall_mem_cons.mp hp).1
      have hk : min limit cursor.remaining ≤ cursor.rest.length := by
        rw [Cursor.length_rest]
        exact Nat.min_le_right _ _
      obtain ⟨⟨chunk, left⟩, ht⟩ := Option.isSome_iff_exists.mp (Cursor.take?_isSome_iff.mpr hk)
      have hleft : left.remaining = cursor.remaining - min limit cursor.remaining := by
        have hdrop := congrArg List.length (Cursor.rest_of_take? ht).2
        rwa [Cursor.length_rest, List.length_drop, Cursor.length_rest] at hdrop
      simp only [read, ht, if_neg (Nat.ne_of_gt hr), Item.weight]
      split
      · dsimp only
        omega
      · rw [weight_cons, Item.weight]
        omega

end Source

namespace Connection

variable {c : Connection} {ends : Bool} {n due now : Nat} {script : List Act}

/-- Whether a connection, if `n` frames have arrived there, waits for nothing but the time to pass,
has brought or will bring all that it brings by the time `due`, and then ends if it is to end. -/
structure Scheduled (c : Connection) (n : Nat) (ends : Bool) (due : Nat) : Prop where
  closed : c.closed = false
  timed : Act.Timed n c.script
  ends : ends = true → c.inbound.isOpen = false ∨ Act.ends c.script = true
  due : max c.clock c.touched + Act.totalTime c.script ≤ due

/-- An item that arrives. -/
theorem Scheduled.arrived {item : Source.Item} {act : Act}
    (h : { c with script := act :: script }.Scheduled n ends due) (ht : act.time = 0)
    (he : act.isEnd = true → Source.isOpen [item] = false) :
    { c with script, inbound := c.inbound ++ [item] }.Scheduled n ends due := by
  refine ⟨h.closed, h.timed.tail, ?_, ?_⟩
  · intro hends
    have hor := h.ends hends
    rw [Act.ends_cons] at hor
    dsimp only at hor ⊢
    rw [Source.isOpen_append]
    cases hact : act.isEnd with
    | true => simp [he hact]
    | false =>
      rw [hact, Bool.false_or] at hor
      exact hor.imp_left fun ho => by simp [ho]
  · have hdue := h.due
    rw [Act.totalTime_cons, ht] at hdue
    simpa using hdue

/-- An act that lets nothing arrive. -/
theorem Scheduled.passed {act : Act} {clock : Nat}
    (h : { c with script := act :: script }.Scheduled n ends due) (he : act.isEnd = false)
    (ht : max clock c.touched ≤ max c.clock c.touched + act.time) :
    { c with script, clock }.Scheduled n ends due := by
  refine ⟨h.closed, h.timed.tail, ?_, ?_⟩
  · simpa [Act.ends_cons, he] using h.ends
  · have hdue := h.due
    rw [Act.totalTime_cons] at hdue
    dsimp only at hdue ⊢
    omega

theorem Scheduled.awaited {frames : Nat}
    (h : { c with script := .await frames :: script }.Scheduled n ends due) :
    { c with script, clock := max c.clock c.touched }.Scheduled n ends due :=
  h.passed rfl (by omega)

theorem Scheduled.paused {time : Nat}
    (h : { c with script := .pause time :: script }.Scheduled n ends due) :
    { c with script, clock := c.clock + time }.Scheduled n ends due :=
  h.passed rfl (by simp only [Act.time]; omega)

theorem Scheduled.playScript (h : { c with script }.Scheduled n ends due) (now : Nat) :
    (playScript now c script).Scheduled n ends due := by
  induction script generalizing c with
  | nil => exact h
  | cons act script ih =>
    cases act with
    | await frames =>
      simp only [Connection.playScript]
      split
      · exact ih h.awaited
      · exact h
    | pause time =>
      simp only [Connection.playScript]
      split
      · exact ih h.paused
      · exact h
    | send bytes =>
      simp only [Connection.playScript]
      split
      · exact ih (h.passed rfl (Nat.le_add_right _ _))
      · exact ih (h.arrived rfl (by simp [Act.isEnd]))
    | finish => exact ih (h.arrived rfl fun _ => rfl)
    | reset =>
      have hopen : c.closed = false := h.closed
      rw [Connection.playScript, if_neg (by simp [hopen])]
      refine ⟨hopen, fun frames hmem => absurd hmem List.not_mem_nil, ?_, ?_⟩
      · intro _
        left
        simp [Source.isOpen_append, Source.isOpen]
      · have hdue := h.due
        rw [Act.totalTime_cons] at hdue
        simp only [Act.totalTime, List.map_nil, List.sum_nil]
        dsimp only at hdue
        omega

theorem Scheduled.play (h : c.Scheduled n ends due) (now : Nat) :
    (c.play now).Scheduled n ends due :=
  Scheduled.playScript h now

/-- When a script is due, the server has done everything. -/
theorem Scheduled.script_playScript (h : { c with script }.Scheduled n ends due)
    (hn : n ≤ c.arrived.length) (hdue : due ≤ now) :
    (Connection.playScript now c script).script = [] := by
  induction script generalizing c with
  | nil => rfl
  | cons act script ih =>
    cases act with
    | await frames =>
      have hframes : frames ≤ c.arrived.length :=
        Nat.le_trans (h.timed frames List.mem_cons_self) hn
      simp only [Connection.playScript]
      rw [if_pos (by simp [isSatisfied, hframes])]
      exact ih h.awaited hn
    | pause time =>
      have htime := h.due
      rw [Act.totalTime_cons, Act.time] at htime
      simp only [Connection.playScript]
      rw [if_pos (by dsimp only at htime; omega)]
      exact ih h.paused hn
    | send bytes =>
      simp only [Connection.playScript]
      split
      · exact ih (h.passed rfl (Nat.le_add_right _ _)) hn
      · exact ih (h.arrived rfl (by simp [Act.isEnd])) hn
    | finish => exact ih (h.arrived rfl fun _ => rfl) hn
    | reset =>
      have hopen : c.closed = false := h.closed
      simp only [Connection.playScript, hopen, Bool.false_eq_true, if_false]

theorem arrived_play (c : Connection) (now : Nat) : (c.play now).arrived = c.arrived := by
  rw [Connection.arrived, Connection.arrived, outbound_play]

theorem touched_play (c : Connection) (now : Nat) : (c.play now).touched = c.touched := by
  obtain ⟨script, clock, inbound, severed, h⟩ := playScript_eq now c c.script
  rw [play, h]

/-- A connection that was just accepted. -/
theorem scheduled_accepted (endpoint : Endpoint) (writes : List Sink.Step)
    (h : Act.Timed n script) (now : Nat) :
    (accepted endpoint script writes now).Scheduled n (Act.ends script)
      (now + Act.totalTime script) := by
  apply Scheduled.play
  exact ⟨rfl, h, Or.inr, by simp⟩

/-- The client's write just when it was accepted. -/
theorem Scheduled.write (h : c.Scheduled n ends due) (ht : c.touched = now) (bytes : ByteArray) :
    (c.write now bytes).2.Scheduled n ends due := by
  have hplay := h.play now
  simp only [Connection.write]
  split
  · exact hplay
  · have hsame : (c.play now).touched = now := (touched_play c now).trans ht
    have hdue := hplay.due
    rw [hsame] at hdue
    have hwritten (outbound : Sink) :
        { c.play now with outbound, touched := now }.Scheduled n ends due :=
      ⟨hplay.closed, hplay.timed, hplay.ends, hdue⟩
    exact (hwritten _).play now

/-- A frame that was written whole has arrived. -/
theorem arrived_write {bytes : ByteArray} (hc : c.outbound.written = .empty)
    (hw : (c.write now bytes).1 = .ok ()) :
    (c.write now bytes).2.arrived = (Frame.split bytes.data.toList).1 := by
  obtain ⟨sent, -, hwritten, hok⟩ := written_write c now bytes
  rw [Connection.arrived, hwritten, hok hw, hc]
  rfl

theorem weight_playScript_le (now : Nat) (c : Connection) (script : List Act) :
    (Connection.playScript now c script).weight ≤ { c with script }.weight := by
  have hcons (act : Act) (script : List Act) :
      Act.totalWeight (act :: script) = act.weight + Act.totalWeight script := rfl
  induction script generalizing c with
  | nil => exact Nat.le_refl _
  | cons act script ih =>
    cases act with
    | await frames =>
      simp only [Connection.playScript]
      split
      · refine Nat.le_trans (ih _) ?_
        simp [weight, hcons]
      · exact Nat.le_refl _
    | pause time =>
      simp only [Connection.playScript]
      split
      · refine Nat.le_trans (ih _) ?_
        simp [weight, hcons]
      · exact Nat.le_refl _
    | send bytes =>
      have hsize : (Cursor.ofBytes bytes).remaining = bytes.size := rfl
      simp only [Connection.playScript]
      split
      · refine Nat.le_trans (ih _) ?_
        simp [weight, hcons]
      · refine Nat.le_trans (ih _) ?_
        simp only [weight, hcons, Source.weight_append, Source.Item.weight, Act.weight, hsize]
        omega
    | finish =>
      refine Nat.le_trans (ih _) ?_
      simp only [weight, hcons, Source.weight_append, Source.Item.weight, Act.weight]
      omega
    | reset =>
      simp only [Connection.playScript]
      split
      · refine Nat.le_trans (ih _) ?_
        simp [weight, hcons]
      · have hnil : Act.totalWeight [] = 0 := rfl
        simp only [weight, hcons, hnil, Source.weight_append, Source.Item.weight, Act.weight]
        omega

theorem weight_play_le (now : Nat) (c : Connection) : (c.play now).weight ≤ c.weight :=
  weight_playScript_le now c c.script

end Connection

namespace Network

variable {net net' : Network} {s : Socket} {ends : Bool} {due limit deadline : Nat}

/-- Whether the connection of a socket is one that waits for nothing but the time to pass, as it has
been told what it waits for. -/
def Scheduled (net : Network) (s : Socket) (ends : Bool) (due : Nat) : Prop :=
  ∃ c n, net.connections[s]? = some c ∧ c.Scheduled n ends due ∧ n ≤ c.arrived.length

variable {endpoint : Endpoint} {script : List Act} {writes : List Sink.Step}

theorem scheduled_of_accepted
    (hc : net.connections[s]? = some (.accepted endpoint script writes net.now))
    (ht : Act.Timed 0 script) :
    net.Scheduled s (Act.ends script) (net.now + Act.totalTime script) :=
  ⟨_, 0, hc, Connection.scheduled_accepted endpoint writes ht net.now, Nat.zero_le _⟩

/-- A connection on which the client has written a frame just when it was accepted. -/
theorem scheduled_of_write
    (hc : net.connections[s]? = some (.accepted endpoint script writes net.now))
    (ht : Act.Timed 1 script) {body : List UInt8} {frame : ByteArray}
    (hl : body.length ≤ Frame.sizeLimit) (hf : frame.data.toList = Frame.frame body)
    (hw : (net.write s frame).1 = .ok ()) :
    (net.write s frame).2.Scheduled s (Act.ends script) (net.now + Act.totalTime script) := by
  have haccepted := Connection.scheduled_accepted endpoint writes ht net.now
  have htouched : (Connection.accepted endpoint script writes net.now).touched = net.now :=
    Connection.touched_play _ _
  have hempty : (Connection.accepted endpoint script writes net.now).outbound.written = .empty := by
    rw [Connection.accepted, Connection.outbound_play]
  rw [fst_write hc] at hw
  have harrived := Connection.arrived_write hempty hw
  rw [hf, Frame.split_frame hl] at harrived
  refine ⟨_, 1, ?_, haccepted.write htouched frame, ?_⟩
  · simp only [write, hc]
    exact getElem?_modify_same hc _
  · rw [harrived]
    exact Nat.le_refl 1

/-- A read that finds nothing has waited until its deadline; if the script was due before it, there
is nothing to come, and no end of it either. -/
theorem read_nothing (h : net.Scheduled s ends due)
    (hr : net.read s limit deadline = (none, net')) :
    net'.Scheduled s ends due ∧ deadline ≤ net'.now ∧
      (due ≤ net.now → net'.coming s = [] ∧ ends = false) := by
  obtain ⟨c, n, hc, hs, hn⟩ := h
  obtain ⟨hempty, rfl⟩ := read_eq_none hc hr
  have hplay := hs.play net.now
  have hnew := getElem?_modify_same hc (·.play net.now)
  refine ⟨⟨c.play net.now, n, hnew, hplay, ?_⟩, Nat.le_max_right _ _, ?_⟩
  · rwa [Connection.arrived_play]
  · intro hdue
    have hscript : (c.play net.now).script = [] := hs.script_playScript hn hdue
    have hcoming : ((net.modify s (·.play net.now)).waitUntil deadline).coming s =
        (c.play net.now).coming := coming_of_getElem? hnew
    refine ⟨?_, ?_⟩
    · rw [hcoming, Connection.coming, hempty, hscript]
      rfl
    · by_contra hends
      have hor := hplay.ends (by simpa using hends)
      rw [hempty, hscript] at hor
      simp [Source.isOpen, Act.ends] at hor

/-- A read that comes to something leaves less to be read. -/
theorem weightOf_read_lt {c : Connection} {r : Except Fault ByteArray}
    (hc : net.connections[s]? = some c) (ht : c.Tidy) (h0 : 0 < limit)
    (hr : net.read s limit deadline = (some r, net')) : net'.weightOf s < net.weightOf s := by
  obtain ⟨time, -, -, hthere, -, rfl⟩ := read_eq_some hc hr
  have hc' : (net.waitUntil time).connections[s]? = some c := hc
  have hless := Source.weight_read_lt (ht.play time) hthere h0
  have hplayed := Connection.weight_play_le time c
  simp only [weightOf, hc, getElem?_modify_same hc', Option.map_some, Option.getD_some,
    Connection.weight, Connection.take] at hplayed ⊢
  generalize (c.play time).inbound.read limit = result at hless ⊢
  obtain ⟨fault | piece, rest⟩ := result
  · dsimp only at hless ⊢
    omega
  · dsimp only at hless ⊢
    omega

/-- A read that gives something leaves the connection as it is known to be. -/
theorem read_piece (h : net.Scheduled s ends due) (ht : net.Tidy s) (h0 : 0 < limit)
    {piece : ByteArray} (hp : piece.size ≠ 0)
    (hr : net.read s limit deadline = (some (.ok piece), net')) :
    net'.Scheduled s ends due ∧ net'.weightOf s < net.weightOf s := by
  obtain ⟨c, n, hc, hs, hn⟩ := h
  refine ⟨?_, weightOf_read_lt hc (ht c hc) h0 hr⟩
  obtain ⟨time, -, -, hthere, htake, rfl⟩ := read_eq_some hc hr
  have hserves := Source.read_serves ((ht c hc).play time) hthere h0
  have hnow := hs.play time
  have harrived : n ≤ (c.play time).arrived.length := by rwa [Connection.arrived_play]
  have hc' : (net.waitUntil time).connections[s]? = some c := hc
  refine ⟨_, n, getElem?_modify_same hc' _, ?_, ?_⟩
  · simp only [Connection.take] at htake ⊢
    generalize (c.play time).inbound.read limit = result at hserves htake ⊢
    obtain ⟨r, rest⟩ := result
    cases hserves with
    | piece piece' _ _ ho _ =>
      refine ⟨hnow.closed, hnow.timed, ?_, hnow.due⟩
      dsimp only
      rw [ho]
      exact hnow.ends
    | ended =>
      cases htake
      exact absurd rfl hp
    | broken => cases htake
  · rw [Connection.arrived, Connection.outbound_take]
    exact harrived

end Network
end Gallows
