import Gallows.Proofs.Network.Traffic

/-!
When a client finds what a server sends. What has arrived stays in its order until it is read, so
that a read comes to the same whether it is made as soon as it can be or at any later time, and a
read that was given up leaves no trace.
-/
namespace Gallows

namespace Source

/-- What arrives behind an item changes nothing for a read that has the item. -/
theorem read_append {source : Source} {limit : Nat} (hp : ∀ item ∈ source, item.Proper)
    (hs : source ≠ []) (more : Source) :
    Source.read limit (source ++ more) =
      ((source.read limit).1, (source.read limit).2 ++ more) := by
  cases source with
  | nil => exact absurd rfl hs
  | cons item rest =>
    cases item with
    | ended | failed _ => rfl
    | data cursor =>
      have hr : 0 < cursor.remaining := (List.forall_mem_cons.mp hp).1
      have hk : min limit cursor.remaining ≤ cursor.rest.length := by
        rw [Cursor.length_rest]
        exact Nat.min_le_right _ _
      obtain ⟨⟨chunk, left⟩, ht⟩ := Option.isSome_iff_exists.mp (Cursor.take?_isSome_iff.mpr hk)
      simp only [List.cons_append, read, ht, if_neg (Nat.ne_of_gt hr)]
      split <;> rfl

end Source

namespace Connection

variable {c : Connection} {now later time : Nat}

/-- The script of a connection is the one that is played. -/
theorem playScript_script (now : Nat) (c : Connection) (script other : List Act) :
    playScript now { c with script := other } script = playScript now c script := by
  induction script generalizing c with
  | nil => rfl
  | cons act script ih =>
    cases act with
    | await frames =>
      have hsame : { c with script := other }.isSatisfied frames = c.isSatisfied frames := rfl
      simp only [playScript, hsame]
      split
      · exact ih { c with clock := max c.clock c.touched }
      · rfl
    | pause time =>
      simp only [playScript]
      split
      · exact ih { c with clock := c.clock + time }
      · rfl
    | send bytes =>
      simp only [playScript]
      split
      · exact ih c
      · exact ih { c with inbound := c.inbound ++ [.data (.ofBytes bytes)] }
    | finish => exact ih { c with inbound := c.inbound ++ [.ended] }
    | reset =>
      simp only [playScript]
      split
      · exact ih c
      · rfl

theorem play_playScript (h : now ≤ later) (c : Connection) (script : List Act) :
    (playScript now c script).play later = playScript later c script := by
  induction script generalizing c with
  | nil => rfl
  | cons act script ih =>
    cases act with
    | await frames =>
      simp only [playScript]
      split
      · exact ih _
      · rename_i hs
        rw [play, playScript_script, playScript, if_neg hs]
    | pause time =>
      by_cases ht : c.clock + time ≤ now
      · simp only [playScript, ht, Nat.le_trans ht h, if_true]
        exact ih _
      · rw [playScript, if_neg ht, play, playScript_script]
    | send bytes =>
      simp only [playScript]
      split <;> exact ih _
    | finish => exact ih _
    | reset =>
      simp only [playScript]
      split
      · exact ih _
      · rfl

/-- To be caught up on twice is to be caught up on the second time. -/
theorem play_play (h : now ≤ later) (c : Connection) : (c.play now).play later = c.play later :=
  play_playScript h c c.script

/-- What a server does depends on nothing that the client reads. -/
theorem playScript_behind (now : Nat) (c : Connection) (script : List Act) :
    ∃ more, ∀ inbound received, playScript now { c with inbound, received } script =
      { playScript now c script with inbound := inbound ++ more, received } := by
  induction script generalizing c with
  | nil => exact ⟨[], by simp [playScript]⟩
  | cons act script ih =>
    cases act with
    | await frames =>
      have hsame (inbound : Source) (received : ByteArray) :
          { c with inbound, received }.isSatisfied frames = c.isSatisfied frames := rfl
      simp only [playScript, hsame]
      split
      · exact ih { c with clock := max c.clock c.touched }
      · exact ⟨[], by simp⟩
    | pause time =>
      simp only [playScript]
      split
      · exact ih { c with clock := c.clock + time }
      · exact ⟨[], by simp⟩
    | send bytes =>
      simp only [playScript]
      split
      · exact ih c
      · obtain ⟨more, h⟩ := ih { c with inbound := c.inbound ++ [.data (.ofBytes bytes)] }
        refine ⟨[.data (.ofBytes bytes)] ++ more, fun inbound received => ?_⟩
        rw [← List.append_assoc]
        exact h _ received
    | finish =>
      obtain ⟨more, h⟩ := ih { c with inbound := c.inbound ++ [.ended] }
      refine ⟨[.ended] ++ more, fun inbound received => ?_⟩
      rw [← List.append_assoc]
      exact h _ received
    | reset =>
      simp only [playScript]
      split
      · exact ih c
      · exact ⟨[.failed broken], by simp⟩

/-- What is there to be read is read alike before the server goes on and afterwards. -/
theorem take_play (ht : c.Tidy) (hi : c.inbound ≠ []) (limit later : Nat) :
    (c.play later).take limit = ((c.take limit).1, (c.take limit).2.play later) := by
  obtain ⟨more, h⟩ := playScript_behind later c c.script
  have hinbound : (c.play later).inbound = c.inbound ++ more :=
    congrArg inbound (h c.inbound c.received)
  have hread : Source.read limit (c.inbound ++ more) = _ := Source.read_append ht hi more
  simp only [take, hinbound, hread, received_play]
  generalize c.inbound.read limit = result
  obtain ⟨fault | piece, rest⟩ := result
  · exact congrArg (Prod.mk _) (h rest c.received).symm
  · exact congrArg (Prod.mk _) (h rest (c.received ++ piece)).symm

/-- What is there stays there until it is read. -/
theorem inbound_play_mono (hi : (c.play now).inbound ≠ []) (h : now ≤ later) :
    (c.play later).inbound ≠ [] := by
  have hahead := inbound_playScript later (c.play now) (c.play now).script
  rw [← play, play_play h] at hahead
  intro hnil
  rw [hnil, List.prefix_nil] at hahead
  exact hi hahead

/-- What arrives at a connection that has been caught up on arrives later. -/
theorem lt_of_nextArrival? (hi : (c.play now).inbound = [])
    (h : (c.play now).nextArrival? = some time) : now < time := by
  by_contra hle
  have hthere := inbound_play_of_nextArrival? h (Nat.le_of_not_lt hle)
  rw [play_play (Nat.le_refl now)] at hthere
  exact hthere hi

end Connection

namespace Network

variable {net net' : Network} {s : Socket} {c : Connection} {limit deadline time later : Nat}
  {r : Except Fault ByteArray}

theorem waitUntil_waitUntil (h : time ≤ later) (net : Network) :
    (net.waitUntil time).waitUntil later = net.waitUntil later := by
  simp only [waitUntil]
  congr 1
  omega

theorem getElem?_modify_same (hc : net.connections[s]? = some c) (change : Connection → Connection) :
    (net.modify s change).connections[s]? = some (change c) := by
  simp [modify, hc]

theorem modify_modify (net : Network) (s : Socket) (f g : Connection → Connection) :
    (net.modify s f).modify s g = net.modify s fun c => g (f c) := by
  simp only [modify]
  congr 1
  apply List.ext_getElem?
  intro t
  simp only [List.getElem?_modify]
  by_cases hs : s = t
  · simp [hs, Function.comp_def]
  · simp [hs]

theorem modify_congr (hc : net.connections[s]? = some c) {f g : Connection → Connection}
    (h : f c = g c) : net.modify s f = net.modify s g := by
  simp only [modify]
  congr 1
  apply List.ext_getElem?
  intro t
  simp only [List.getElem?_modify]
  by_cases hs : s = t
  · subst hs
    simp [hc, h]
  · simp [hs]

/-- A read that comes to something comes to it at a time at which something is there. -/
theorem read_eq_some (hc : net.connections[s]? = some c)
    (h : net.read s limit deadline = (some r, net')) :
    ∃ time, net.now ≤ time ∧ (time = net.now ∨ time < deadline) ∧ (c.play time).inbound ≠ [] ∧
      r = ((c.play time).take limit).1 ∧
      net' = (net.waitUntil time).modify s fun _ => ((c.play time).take limit).2 := by
  simp only [read, hc] at h
  split at h
  · cases h
  · rename_i time htime
    have hlate : net.now ≤ time ∧ (time = net.now ∨ time < deadline) ∧
        ((c.play net.now).play time).inbound ≠ [] := by
      split at htime
      · rename_i hempty
        obtain ⟨harrival, hlt⟩ := Option.filter_eq_some_iff.mp htime
        have hafter := Connection.lt_of_nextArrival? (List.isEmpty_iff.mp hempty) harrival
        exact ⟨Nat.le_of_lt hafter, Or.inr (of_decide_eq_true hlt),
          Connection.inbound_play_of_nextArrival? harrival (Nat.le_refl time)⟩
      · rename_i hsome
        obtain rfl := Option.some.inj htime
        rw [Connection.play_play (Nat.le_refl _)]
        exact ⟨Nat.le_refl _, Or.inl rfl, fun hnil => hsome (List.isEmpty_iff.mpr hnil)⟩
    obtain ⟨hle, hlt, hthere⟩ := hlate
    have hnow : (net.waitUntil time).now = time := Nat.max_eq_right hle
    rw [hnow, Connection.play_play hle] at h
    rw [Connection.play_play hle] at hthere
    cases h
    exact ⟨time, hle, hlt, hthere, rfl, rfl⟩

/-- A read for which there is something in time comes to that. -/
theorem read_of_there (hc : net.connections[s]? = some c) (h : (c.play net.now).inbound ≠ [])
    (limit deadline : Nat) :
    net.read s limit deadline = (some ((c.play net.now).take limit).1,
      net.modify s fun _ => ((c.play net.now).take limit).2) := by
  have hsome : ¬ (c.play net.now).inbound.isEmpty := fun hempty => h (List.isEmpty_iff.mp hempty)
  have hnow : net.waitUntil net.now = net := by
    simp [waitUntil]
  simp only [read, hc, if_neg hsome, hnow, Connection.play_play (Nat.le_refl net.now)]

/-- A read that comes to nothing has waited for its deadline. -/
theorem read_eq_none (hc : net.connections[s]? = some c)
    (h : net.read s limit deadline = (none, net')) :
    (c.play net.now).inbound = [] ∧ net' = (net.modify s (·.play net.now)).waitUntil deadline := by
  simp only [read, hc] at h
  split at h
  · rename_i htime
    cases h
    have hsame : (net.modify s fun _ => c.play net.now) = net.modify s (·.play net.now) :=
      modify_congr hc rfl
    refine ⟨?_, by rw [hsame]⟩
    split at htime
    · rename_i hempty
      exact List.isEmpty_iff.mp hempty
    · cases htime
  · cases h

theorem now_le_read (net : Network) (s : Socket) (limit deadline : Nat) :
    net.now ≤ (net.read s limit deadline).2.now := by
  simp only [read]
  split
  · exact Nat.le_refl _
  · split
    · exact Nat.le_max_left _ _
    · exact Nat.le_max_left _ _

/-- A read never waits beyond its deadline. -/
theorem now_read_le (net : Network) (s : Socket) (limit deadline : Nat) :
    (net.read s limit deadline).2.now ≤ max net.now deadline := by
  cases hc : net.connections[s]? with
  | none =>
    simp only [read, hc]
    exact Nat.le_max_left _ _
  | some c =>
    rcases h : net.read s limit deadline with ⟨_ | r, net'⟩
    · obtain ⟨-, rfl⟩ := read_eq_none hc h
      exact Nat.le_refl _
    · obtain ⟨time, -, htime, -, -, rfl⟩ := read_eq_some hc h
      change max net.now time ≤ max net.now deadline
      omega

/-- A read that comes to something by a deadline comes to the same with that deadline. -/
theorem read_sooner (h : net.read s limit deadline = (some r, net')) {sooner : Nat}
    (hd : net'.now ≤ net.now ∨ net'.now < sooner) :
    net.read s limit sooner = (some r, net') := by
  simp only [read] at h ⊢
  split at h
  · exact h
  · rename_i c hc
    split at h
    · cases h
    · rename_i time htime
      have htime' : (if (c.play net.now).inbound.isEmpty then
          (c.play net.now).nextArrival?.filter (· < sooner) else some net.now) = some time := by
        split at htime
        · rename_i hempty
          obtain ⟨harrival, -⟩ := Option.filter_eq_some_iff.mp htime
          have hafter := Connection.lt_of_nextArrival? (List.isEmpty_iff.mp hempty) harrival
          have hnow : net'.now = max net.now time := by
            rw [← (Prod.mk.inj h).2]
            rfl
          rw [if_pos hempty]
          exact Option.filter_eq_some_iff.mpr ⟨harrival, decide_eq_true (by omega)⟩
        · rename_i hsome
          rw [if_neg hsome]
          exact htime
      simp only [htime']
      exact h

/-- The network at a time that is not earlier, when the server of a socket has been caught up on. -/
def caughtUp (net : Network) (s : Socket) (time : Nat) : Network :=
  (net.waitUntil time).modify s (·.play (max net.now time))

theorem modify_of_none (h : net.connections[s]? = none) (change : Connection → Connection) :
    net.modify s change = net := by
  simp only [modify]
  congr 1
  exact List.modify_eq_self (List.getElem?_eq_none_iff.mp h)

/-- A read begins with catching up. -/
theorem read_caughtUp (net : Network) (s : Socket) (limit deadline time : Nat) :
    (net.caughtUp s time).read s limit deadline = (net.waitUntil time).read s limit deadline := by
  cases hc : net.connections[s]? with
  | none =>
    have hc' : (net.waitUntil time).connections[s]? = none := hc
    rw [caughtUp, modify_of_none hc']
  | some c =>
    have hc' : (net.waitUntil time).connections[s]? = some c := hc
    have hcaught : (net.caughtUp s time).connections[s]? = some (c.play (max net.now time)) :=
      getElem?_modify_same hc' _
    have hnow : (net.caughtUp s time).now = max net.now time := rfl
    have hsame (d : Connection) : ((net.caughtUp s time).modify s fun _ => d) =
        (net.waitUntil time).modify s fun _ => d := by
      rw [caughtUp, modify_modify]
    have hsame' (d : Connection) (u : Nat) :
        (((net.caughtUp s time).waitUntil u).modify s fun _ => d) =
          ((net.waitUntil time).waitUntil u).modify s fun _ => d :=
      congrArg (waitUntil · u) (hsame d)
    simp only [read, hcaught, hc', hnow, Connection.play_play (Nat.le_refl _), hsame, hsame']
    rfl

/-- A read comes to the same when it is made later. -/
theorem read_later (hc : net.connections[s]? = some c) (ht : c.Tidy)
    (h : net.read s limit deadline = (some r, net')) (hle : net'.now ≤ time) (deadline' : Nat) :
    (net.waitUntil time).read s limit deadline' = (some r, net'.caughtUp s time) := by
  obtain ⟨u, hu, -, hthere, rfl, rfl⟩ := read_eq_some hc h
  have hle : max net.now u ≤ time := hle
  have hnow : (net.waitUntil time).now = time := Nat.max_eq_right (by omega)
  have hc' : (net.waitUntil time).connections[s]? = some c := hc
  have htake := Connection.take_play (ht.play u) hthere limit time
  rw [Connection.play_play (by omega)] at htake
  have hthere' := Connection.inbound_play_mono hthere (show u ≤ time by omega)
  rw [← hnow] at hthere'
  rw [read_of_there hc' hthere', hnow, htake, caughtUp]
  have hwaited : ((net.waitUntil u).modify s fun _ => ((c.play u).take limit).2).waitUntil time =
      (net.waitUntil time).modify s fun _ => ((c.play u).take limit).2 := by
    rw [← waitUntil_waitUntil (show u ≤ time by omega) net]
    rfl
  have hlast : max ((net.waitUntil u).modify s fun _ => ((c.play u).take limit).2).now time = time :=
    Nat.max_eq_right hle
  rw [hwaited, hlast, modify_modify]

end Network
end Gallows
