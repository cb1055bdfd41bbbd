import Gallows.Proofs.Network.Schedule

/-!
What a client finds that reads a socket on until a deadline. Every read takes the front of it and
leaves the rest to the next, and a read that comes to nothing has found nothing in time.
-/
namespace Gallows

namespace Source

/-- How a stream ends, if it has an end yet: as it should, or with a failure. -/
def ending : Source → Option (Except Fault Unit)
  | [] => none
  | .data _ :: rest => ending rest
  | .ended :: _ => some (.ok ())
  | .failed fault :: _ => some (.error fault)

/-- What a read takes from the front of a stream. -/
inductive Yields (source : Source) : Except Fault ByteArray → Source → Prop
  | piece {rest : Source} (piece : ByteArray) (h0 : piece.size ≠ 0)
      (hb : source.bytes = piece.data.toList ++ rest.bytes) (he : rest.ending = source.ending) :
      Yields source (.ok piece) rest
  | ended {rest : Source} (hb : source.bytes = []) (he : source.ending = some (.ok ())) :
      Yields source (.ok .empty) rest
  | failed {rest : Source} (fault : Fault) (hf : fault.isTransient = false)
      (hb : source.bytes = []) (he : source.ending = some (.error fault)) :
      Yields source (.error fault) rest

/-- Bytes that are taken from the front leave the end of a stream as it is. -/
theorem ending_read {cursor : Cursor} {rest : Source} {limit : Nat} (hr : 0 < cursor.remaining) :
    Source.ending (Source.read limit (.data cursor :: rest)).2 = ending rest := by
  have hk : min limit cursor.remaining ≤ cursor.rest.length := by
    rw [Cursor.length_rest]
    exact Nat.min_le_right _ _
  obtain ⟨⟨chunk, left⟩, ht⟩ := Option.isSome_iff_exists.mp (Cursor.take?_isSome_iff.mpr hk)
  simp only [read, ht, if_neg (Nat.ne_of_gt hr)]
  split <;> rfl

theorem read_yields {source : Source} {limit : Nat} (hp : ∀ item ∈ source, item.Proper)
    (hs : source ≠ []) (h0 : 0 < limit) :
    Yields source (source.read limit).1 (source.read limit).2 := by
  have hserves := read_serves hp hs h0
  cases source with
  | nil => exact absurd rfl hs
  | cons item rest =>
    have hitem := (List.forall_mem_cons.mp hp).1
    cases item with
    | ended => exact .ended rfl rfl
    | failed fault =>
      obtain rfl : fault = Connection.broken := hitem
      exact .failed _ rfl rfl rfl
    | data cursor =>
      have hopen : Source.bytes (.data cursor :: rest) ≠ [] := by
        have hlength : cursor.rest.length = cursor.remaining := Cursor.length_rest
        have hr : 0 < cursor.remaining := hitem
        intro hnil
        rw [bytes, List.append_eq_nil_iff] at hnil
        rw [hnil.1, List.length_nil] at hlength
        omega
      have he : Source.ending (Source.read limit (.data cursor :: rest)).2 = ending rest :=
        ending_read hitem
      generalize Source.read limit (.data cursor :: rest) = result at hserves he
      obtain ⟨r, left⟩ := result
      cases hserves with
      | piece piece h0 hb _ _ => exact .piece piece h0 hb he
      | ended hb _ _ | broken hb _ _ => exact absurd hb hopen

end Source

namespace Connection

variable {c : Connection} {now later time : Nat} {script : List Act}

theorem arrival?_script (c : Connection) (other : List Act) (clock : Nat) (script : List Act) :
    { c with script := other }.arrival? clock script = c.arrival? clock script := by
  induction script generalizing clock with
  | nil => rfl
  | cons act script ih =>
    cases act with
    | await frames =>
      simp only [arrival?, ih]
      rfl
    | _ => simp only [arrival?, ih]

/-- What has arrived at a client that had read everything arrived at some time before. -/
theorem arrival?_of_inbound (hi : c.inbound = []) (hc : c.clock ≤ later) (ht : c.touched ≤ later)
    (h : (playScript later c script).inbound ≠ []) :
    ∃ time ≤ later, c.arrival? c.clock script = some time := by
  induction script generalizing c with
  | nil => exact absurd hi h
  | cons act script ih =>
    cases act with
    | await frames =>
      simp only [playScript] at h
      simp only [arrival?]
      split at h
      · rename_i hs
        rw [if_pos hs]
        obtain ⟨time, hle, harrival⟩ :=
          ih (c := { c with clock := max c.clock c.touched }) hi (Nat.max_le.mpr ⟨hc, ht⟩) ht h
        rw [arrival?_clock] at harrival
        exact ⟨time, hle, harrival⟩
      · exact absurd hi h
    | pause time =>
      simp only [playScript] at h
      split at h
      · rename_i hpaused
        obtain ⟨time', hle, harrival⟩ :=
          ih (c := { c with clock := c.clock + time }) hi hpaused ht h
        rw [arrival?_clock] at harrival
        exact ⟨time', hle, harrival⟩
      · exact absurd hi h
    | send bytes =>
      simp only [playScript] at h
      simp only [arrival?]
      split at h
      · rename_i h0
        rw [if_pos h0]
        exact ih hi hc ht h
      · rename_i h0
        rw [if_neg h0]
        exact ⟨c.clock, hc, rfl⟩
    | finish => exact ⟨c.clock, hc, rfl⟩
    | reset =>
      simp only [playScript] at h
      simp only [arrival?]
      split at h
      · rename_i hclosed
        rw [if_pos hclosed]
        exact ih hi hc ht h
      · rename_i hclosed
        rw [if_neg hclosed]
        exact ⟨c.clock, hc, rfl⟩

/-- What arrives between two times is foreseen at the first of them. -/
theorem nextArrival?_playScript (hle : now ≤ later) (ht : c.touched ≤ now)
    (hi : (playScript now c script).inbound = []) (h : (playScript later c script).inbound ≠ []) :
    ∃ time ≤ later, (playScript now c script).nextArrival? = some time := by
  have hempty (c : Connection) (script : List Act) (hi : (playScript now c script).inbound = []) :
      c.inbound = [] := List.prefix_nil.mp (hi ▸ inbound_playScript now c script)
  induction script generalizing c with
  | nil =>
    have hsame : (playScript later c []).inbound = (playScript now c []).inbound := rfl
    exact absurd (hsame.trans hi) h
  | cons act script ih =>
    cases act with
    | await frames =>
      simp only [playScript] at hi h ⊢
      split at hi
      · rename_i hs
        rw [if_pos hs] at h ⊢
        exact ih ht hi h
      · rename_i hs
        rw [if_neg hs] at h
        exact absurd hi h
    | pause time =>
      simp only [playScript] at hi h ⊢
      split at hi
      · rename_i hpaused
        rw [if_pos (Nat.le_trans hpaused hle)] at h
        rw [if_pos hpaused]
        exact ih ht hi h
      · rename_i hpaused
        rw [if_neg hpaused]
        split at h
        · rename_i hlater
          obtain ⟨time', hle', harrival⟩ := arrival?_of_inbound
            (c := { c with clock := c.clock + time }) hi hlater (Nat.le_trans ht hle) h
          rw [arrival?_clock] at harrival
          refine ⟨time', hle', ?_⟩
          rw [nextArrival?, arrival?_script]
          exact harrival
        · exact absurd hi h
    | send bytes =>
      simp only [playScript] at hi h ⊢
      split at hi
      · rename_i h0
        rw [if_pos h0] at h ⊢
        exact ih ht hi h
      · have hnil := hempty _ script hi
        simp at hnil
    | finish =>
      have hnil := hempty { c with inbound := c.inbound ++ [.ended] } script hi
      simp at hnil
    | reset =>
      simp only [playScript] at hi h ⊢
      split at hi
      · rename_i hclosed
        rw [if_pos hclosed] at h ⊢
        exact ih ht hi h
      · simp at hi

theorem inbound_take (c : Connection) (limit : Nat) :
    c.inbound.read limit = ((c.take limit).1, (c.take limit).2.inbound) := by
  simp only [take]
  generalize c.inbound.read limit = result
  obtain ⟨fault | piece, rest⟩ := result <;> rfl

theorem touched_take (c : Connection) (limit : Nat) : (c.take limit).2.touched = c.touched := by
  simp only [take]
  split <;> rfl

theorem Tidy.take (h : c.Tidy) (hi : c.inbound ≠ []) {limit : Nat} (h0 : 0 < limit) :
    (c.take limit).2.Tidy := by
  have hserves := Source.read_serves h hi h0
  rw [inbound_take] at hserves
  generalize c.take limit = result at hserves ⊢
  obtain ⟨r, c'⟩ := result
  change ∀ item ∈ c'.inbound, item.Proper
  generalize c'.inbound = rest at hserves ⊢
  cases hserves with
  | piece _ _ _ _ hp | ended _ _ hp | broken _ _ hp => exact hp

/-- A write that succeeds is the last time that the client touched the connection. -/
theorem touched_write {bytes : ByteArray} (h : (c.write now bytes).1 = .ok ()) :
    (c.write now bytes).2.touched = now := by
  simp only [write] at h ⊢
  split at h
  · cases h
  · rename_i hsevered
    rw [if_neg hsevered]
    exact touched_play _ now

theorem closed_play (c : Connection) (now : Nat) : (c.play now).closed = c.closed := by
  obtain ⟨script, clock, inbound, severed, h⟩ := playScript_eq now c c.script
  rw [play, h]

theorem closed_close (c : Connection) (now : Nat) : (c.close now).closed = true := by
  rw [close, closed_play]

theorem nextArrival?_of_inbound (hle : now ≤ later) (ht : c.touched ≤ now)
    (hi : (c.play now).inbound = []) (h : (c.play later).inbound ≠ []) :
    ∃ time ≤ later, (c.play now).nextArrival? = some time :=
  nextArrival?_playScript hle ht hi h

end Connection

namespace Network

variable {net net' : Network} {s : Socket} {c : Connection} {limit deadline : Nat}

/-- What a client finds on a socket that it reads on until a deadline: what is there, and what
arrives before it. -/
def arriving (net : Network) (s : Socket) (deadline : Nat) : Source :=
  ((net.connections[s]?).map fun c => (c.play (max net.now (deadline - 1))).inbound).getD []

/-- Whether a socket is that of a connection, which the client has not touched later than now. -/
def Live (net : Network) (s : Socket) : Prop :=
  ∃ c, net.connections[s]? = some c ∧ c.Tidy ∧ c.touched ≤ net.now

theorem arriving_of_getElem? (hc : net.connections[s]? = some c) (deadline : Nat) :
    net.arriving s deadline = (c.play (max net.now (deadline - 1))).inbound := by
  simp [arriving, hc]

theorem Live.proper (h : net.Live s) (deadline : Nat) :
    ∀ item ∈ net.arriving s deadline, item.Proper := by
  obtain ⟨c, hc, htidy, -⟩ := h
  rw [arriving_of_getElem? hc]
  exact htidy.play _

/-- What a read makes of what arrives before its deadline. -/
inductive Finds (s : Socket) (limit deadline : Nat) (net : Network) :
    Option (Except Fault ByteArray) → Network → Prop
  | nothing {net' : Network} (h : net.arriving s deadline = []) :
      Finds s limit deadline net none net'
  | something {r : Except Fault ByteArray} {net' : Network} (h : net.arriving s deadline ≠ [])
      (live : net'.Live s)
      (hr : (net.arriving s deadline).read limit = (r, net'.arriving s deadline)) :
      Finds s limit deadline net (some r) net'

theorem read_finds (h : net.Live s) (h0 : 0 < limit) (deadline : Nat) :
    Finds s limit deadline net (net.read s limit deadline).1 (net.read s limit deadline).2 := by
  obtain ⟨c, hc, htidy, htouched⟩ := h
  rcases hread : net.read s limit deadline with ⟨_ | r, net'⟩
  · refine .nothing ?_
    rw [arriving_of_getElem? hc]
    have hi := (read_eq_none hc hread).1
    by_contra hlate
    obtain ⟨time, hle, harrival⟩ :=
      Connection.nextArrival?_of_inbound (Nat.le_max_left _ _) htouched hi hlate
    have hafter := Connection.lt_of_nextArrival? hi harrival
    have hfilter : (c.play net.now).nextArrival?.filter (· < deadline) = some time := by
      rw [harrival]
      exact Option.filter_eq_some_iff.mpr ⟨rfl, decide_eq_true (by omega)⟩
    simp only [read, hc, List.isEmpty_iff.mpr hi, if_true, hfilter] at hread
    cases hread
  · obtain ⟨time, hle, htime, hthere, rfl, rfl⟩ := read_eq_some hc hread
    have hlast : time ≤ max net.now (deadline - 1) := by omega
    have htake := Connection.take_play (htidy.play time) hthere limit
      (max net.now (deadline - 1))
    rw [Connection.play_play hlast] at htake
    have hc' : (net.waitUntil time).connections[s]? = some c := hc
    have hnew := getElem?_modify_same hc' fun _ => ((c.play time).take limit).2
    have hnow : max ((net.waitUntil time).modify s
        fun _ => ((c.play time).take limit).2).now (deadline - 1) =
          max net.now (deadline - 1) := by
      change max (max net.now time) (deadline - 1) = _
      omega
    refine .something ?_ ?_ ?_
    · rw [arriving_of_getElem? hc]
      exact Connection.inbound_play_mono hthere hlast
    · refine ⟨_, hnew, (htidy.play time).take hthere h0, ?_⟩
      rw [Connection.touched_take, Connection.touched_play]
      exact Nat.le_trans htouched (Nat.le_max_left _ _)
    · rw [arriving_of_getElem? hc, arriving_of_getElem? hnew, hnow, Connection.inbound_take,
        htake]

/-- A socket that has just been written to. -/
theorem live_of_write {bytes : ByteArray} (ht : net.Tidy s)
    (h : (net.write s bytes).1 = .ok ()) : (net.write s bytes).2.Live s := by
  have htidy := ht.write bytes
  cases hc : net.connections[s]? with
  | none => simp [write, hc] at h
  | some c =>
    rw [fst_write hc] at h
    simp only [write, hc] at htidy ⊢
    have hnew := getElem?_modify_same hc fun _ => (c.write net.now bytes).2
    exact ⟨_, hnew, htidy _ hnew, Nat.le_of_eq (Connection.touched_write h)⟩

/-- Whether the client has closed the connection of a socket. -/
def IsClosed (net : Network) (s : Socket) : Prop :=
  ∃ c, net.connections[s]? = some c ∧ c.closed = true

theorem isClosed_close (h : s < net.connections.length) : (net.close s).IsClosed s := by
  have hc : net.connections[s]? = some net.connections[s] := List.getElem?_eq_getElem h
  exact ⟨_, getElem?_modify_same hc _, Connection.closed_close _ _⟩

end Network
end Gallows
