import Gallows.Proofs.Channel.Deeds
import Gallows.Proofs.Channel.Steps
import Gallows.Proofs.Network.Schedule

/-!
What a channel meets at a server. An attempt to connect, if there is time for it, comes about or
fails as the server's reception says. A poll takes the next frame, or meets the end of the stream or
a header that announces too much, or it has waited in vain; and by the time at which the server's
script is due it does not wait in vain for anything that comes.
-/
namespace Gallows

namespace Channel

open Gallows.Frame (Pending Oversized)

variable {c c' : Channel} {net net' : Network} {s : Socket} {bytes held : List UInt8} {ends : Bool}
  {due deadline fuel : Nat}

/-- Whether a reception lets no connection come about within a channel's time limit, and what is
blamed for that. -/
inductive Declined (c : Channel) : Reception → Fault → Prop
  | refused (time : Nat) (ht : time < c.connectTimeout) :
      Declined c (.refuse time) (.ofSystem .connectionRefused)
  | refusedLate (time : Nat) (ht : c.connectTimeout ≤ time) : Declined c (.refuse time) c.noAnswer
  | acceptedLate (time : Nat) (script : List Act) (writes : List Sink.Step)
      (ht : c.connectTimeout ≤ time) : Declined c (.accept time script writes) c.noAnswer
  | ignored : Declined c .ignore c.noAnswer

theorem Declined.of_same {reception : Reception} {fault : Fault}
    (h : Declined c reception fault) (hc : c'.connectTimeout = c.connectTimeout) :
    Declined c' reception fault := by
  have hanswer : c'.noAnswer = c.noAnswer := by simp only [noAnswer, hc]
  cases h with
  | refused time ht => exact .refused time (by omega)
  | refusedLate time ht => exact hanswer ▸ .refusedLate time (by omega)
  | acceptedLate time script writes ht => exact hanswer ▸ .acceptedLate time script writes (by omega)
  | ignored => exact hanswer ▸ .ignored

variable {server : Server} {n : Nat}

theorem ensure_of_declined {fault : Fault} (hs : c.socket = none)
    (he : c.endpoint = server.endpoint) (hreach : net.Reaches (server.after n))
    (h : c.Declined (server.reception n) fault) (hd : net.now + c.connectTimeout ≤ deadline) :
    ∃ net', c.ensure deadline net =
      (some (.error (.connect server.endpoint.text fault)), c, net') := by
  obtain ⟨hr, -, -, hnow⟩ := Network.reception_eq hreach
  generalize hrec : server.reception n = reception at h hr
  rw [ensure]
  simp only [hs, Nat.min_eq_left hd, he, Network.connect, hreach.outage, hr, hnow, hd]
  cases h with
  | refused time ht =>
    have hlt : net.now + time < net.now + c.connectTimeout := Nat.add_lt_add_left ht _
    simp [hlt]
  | refusedLate time ht =>
    have hlt : ¬ net.now + time < net.now + c.connectTimeout := by omega
    simp [hlt]
  | acceptedLate time script writes ht =>
    have hlt : ¬ net.now + time < net.now + c.connectTimeout := by omega
    simp [hlt]
  | ignored => simp

/-- A channel to elsewhere takes no reception of a server. -/
theorem reaches_ensure (hs : c.socket = none) (hne : server.endpoint ≠ c.endpoint)
    (h : net.Reaches server) (deadline : Nat) : (c.ensure deadline net).2.2.Reaches server := by
  have hreach := h.connect hne (min (net.now + c.connectTimeout) deadline)
  rw [ensure]
  simp only [hs]
  generalize net.connect c.endpoint _ = result at hreach ⊢
  obtain ⟨_ | ⟨_ | _⟩, net'⟩ := result
  · dsimp only
    split <;> exact hreach
  · exact hreach
  · exact hreach

/-- The channel when it has opened a socket. -/
def opened (c : Channel) (s : Socket) : Channel :=
  { c with socket := some s, assembler := c.assembler.reset, generation := c.generation + 1 }

theorem ensure_of_accepted {time : Nat} {script : List Act} {writes : List Sink.Step}
    (hs : c.socket = none) (he : c.endpoint = server.endpoint)
    (hreach : net.Reaches (server.after n))
    (hr : server.reception n = .accept time script writes) (ht : time < c.connectTimeout)
    (hd : net.now + c.connectTimeout ≤ deadline) :
    ∃ s net', c.ensure deadline net = (some (.ok s), c.opened s, net') ∧
      net'.Reaches (server.after (n + 1)) ∧
      net'.connections[s]? = some (.accepted server.endpoint script writes net'.now) := by
  have hlt : net.now + time < net.now + c.connectTimeout := Nat.add_lt_add_left ht _
  obtain ⟨hok, hreach', hconns⟩ := Network.connect_of_lt hreach hr hlt
  rw [← he] at hok hreach' hconns ⊢
  rw [ensure]
  simp only [hs, Nat.min_eq_left hd]
  generalize net.connect c.endpoint (net.now + c.connectTimeout) = result at hok hreach' hconns
  obtain ⟨r, net'⟩ := result
  obtain rfl : r = _ := hok
  refine ⟨net.connections.length, net', rfl, hreach', ?_⟩
  dsimp only at hconns
  rw [hconns]
  simp

theorem send_of_written {e : Envelope.Client} {bytes : ByteArray} (hs : c.socket = some s)
    (he : Frame.encode e = .ok bytes) (hw : (net.write s bytes).1 = .ok ()) (deadline : Nat) :
    c.send e deadline net = (some (.ok ()), c, (net.write s bytes).2) := by
  simp only [send, he, ensure_of_open hs]
  generalize net.write s bytes = result at hw
  obtain ⟨r, net'⟩ := result
  obtain rfl : r = _ := hw
  rfl

theorem send_of_unwritten {e : Envelope.Client} {bytes : ByteArray} {fault : Fault}
    (hs : c.socket = some s) (he : Frame.encode e = .ok bytes)
    (hw : (net.write s bytes).1 = .error fault) (deadline : Nat) :
    c.send e deadline net = (some (.error (.transport fault)), c.close (net.write s bytes).2) := by
  simp only [send, he, ensure_of_open hs]
  generalize net.write s bytes = result at hw
  obtain ⟨r, net'⟩ := result
  obtain rfl : r = _ := hw
  rfl

/-- What is known of the network behind a read that has not met an end of the stream. -/
theorem readWithin_scheduled (ha : c.assembler.Holds held) (ht : net.Tidy s)
    (h : net.Scheduled s ends due) (hf : net.weightOf s < fuel) {r : Outcome Envelope.Server}
    (hr : readWithin s deadline fuel c net = (r, c', net')) :
    (r = none → net'.Scheduled s ends due ∧ deadline ≤ net'.now ∧
      (due ≤ net.now → net'.coming s = [] ∧ ends = false)) ∧
    ∀ e, r = some (.ok e) → net'.Scheduled s ends due := by
  induction fuel generalizing c net held with
  | zero => exact absurd hf (Nat.not_lt_zero _)
  | succ fuel ih =>
    have hdelivers := Network.delivers_read ht ha.unfilled deadline
    rw [readWithin] at hr
    rcases hread : net.read s c.assembler.unfilled deadline with ⟨_ | ⟨fault | piece⟩, net₁⟩
    · simp only [hread] at hr
      cases hr
      exact ⟨fun _ => Network.read_nothing h hread, by simp⟩
    · rw [hread] at hdelivers
      simp only [hread] at hr
      cases hdelivers with
      | failed _ hfault =>
        rw [if_neg (by simp [hfault])] at hr
        cases hr
        exact ⟨by simp, by simp⟩
    · have hfit : piece.size ≤ c.assembler.unfilled := Network.size_of_read (congrArg Prod.fst hread)
      simp only [hread] at hr
      by_cases hz : piece.size = 0
      · obtain ⟨he, -⟩ := ha.feed_end hz
        generalize c.assembler.feed piece = fed at he hr
        obtain ⟨result, a⟩ := fed
        obtain rfl : result = _ := he
        cases hr
        exact ⟨by simp, by simp⟩
      · obtain ⟨hscheduled, hless⟩ := Network.read_piece h ht ha.unfilled hz hread
        have hfuel : net₁.weightOf s < fuel := by omega
        have hnow := Network.now_le_read net s c.assembler.unfilled deadline
        rw [hread] at hdelivers hnow
        dsimp only at hnow
        have hfed := ha.feed (Nat.pos_of_ne_zero hz) hfit
        generalize c.assembler.feed piece = fed at hfed hr
        obtain ⟨result, a⟩ := fed
        cases hfed with
        | more ha' =>
          cases hdelivers with
          | ended => exact absurd rfl hz
          | piece _ _ ht' =>
            obtain ⟨hnone, hok⟩ := ih (c := { c with assembler := a }) ha' ht' hscheduled hfuel hr
            exact ⟨fun hn => ⟨(hnone hn).1, (hnone hn).2.1,
              fun hdue => (hnone hn).2.2 (Nat.le_trans hdue hnow)⟩, hok⟩
        | complete body =>
          cases hr
          exact ⟨by simp, fun _ _ => hscheduled⟩
        | tooLarge =>
          cases hr
          exact ⟨by simp, by simp⟩

/-- Whether these bytes are before a channel on its open socket: those that it holds of a frame and
those to come, with which the stream ends if it is to end. -/
structure Facing (c : Channel) (net : Network) (s : Socket) (bytes : List UInt8) (ends : Bool)
    (due : Nat) : Prop where
  socket : c.socket = some s
  bytes_eq : ∃ held, c.assembler.Holds held ∧ held ++ net.coming s = bytes
  tidy : net.Tidy s
  scheduled : net.Scheduled s ends due

theorem Facing.wait (h : Facing c net s bytes ends due) (time : Nat) :
    Facing c (net.waitUntil time) s bytes ends due :=
  ⟨h.socket, h.bytes_eq, h.tidy, h.scheduled⟩

/-- What a poll can meet on the stream before a channel. -/
inductive Meets (c : Channel) (s : Socket) (bytes : List UInt8) (ends : Bool) (due : Nat) :
    Except Failure Envelope.Server → Channel → Network → Prop
  | frame {a : Frame.Assembler} {net' : Network} (body : ByteArray) (rest : List UInt8)
      (hb : bytes = Frame.frame body.data.toList ++ rest) (hl : body.size ≤ Frame.sizeLimit)
      (facing : ∀ e : Envelope.Server, Frame.decodeBody body = .ok e →
        Facing { c with assembler := a } net' s rest ends due) :
      Meets c s bytes ends due ((Frame.decodeBody body).mapError .protocol)
        { c with assembler := a } net'
  /-- The stream has ended, maybe within a frame. -/
  | ended {a : Frame.Assembler} {net' : Network} (hp : Pending bytes) (ha : a.Holds []) :
      Meets c s bytes ends due (.ok {}) { c with socket := none, assembler := a } net'
  | oversized {c' : Channel} {net' : Network} (header rest : List UInt8)
      (hb : bytes = header ++ rest) (ho : Oversized header) :
      Meets c s bytes ends due
        (.error (.protocol (.frame (.tooLarge (Frame.spelled header) Frame.sizeLimit)))) c' net'

/-- What is known of a poll that has waited in vain. -/
structure Waited (c : Channel) (net : Network) (s : Socket) (bytes : List UInt8) (ends : Bool)
    (due : Nat) (c' : Channel) (net' : Network) : Prop where
  channel : ∃ a, c' = { c with assembler := a }
  facing : Facing c' net' s bytes ends due
  later : net.now + c.readTimeout ≤ net'.now
  inVain : due ≤ net.now → Pending bytes ∧ ends = false

variable {new : List UInt8} {a : Frame.Assembler} {body : ByteArray}

/-- A channel that has read on has waited, for the frame that it still lacks. -/
theorem Facing.waited (h : Facing c net s bytes ends due) (hbytes : held ++ net.coming s = bytes)
    (reads : Network.Reads s new net net') (ha : a.Holds (held ++ new))
    (hscheduled : net'.Scheduled s ends due) (hlater : net.now + c.readTimeout ≤ net'.now)
    (hvain : due ≤ net.now → net'.coming s = [] ∧ ends = false) :
    Waited c net s bytes ends due { c with assembler := a } net' := by
  obtain ⟨htidy, hcoming⟩ := reads.coming h.tidy
  have hsame : held ++ new ++ net'.coming s = bytes := by
    rw [← hbytes, hcoming, List.append_assoc]
  refine ⟨⟨a, rfl⟩, ⟨h.socket, ⟨held ++ new, ha, hsame⟩, htidy, hscheduled⟩, hlater, ?_⟩
  intro hdue
  obtain ⟨hnone, hends⟩ := hvain hdue
  rw [hnone, List.append_nil] at hsame
  exact ⟨hsame ▸ ha.pending, hends⟩

/-- A channel that has read a frame meets the frame. -/
theorem Facing.meets_frame (h : Facing c net s bytes ends due)
    (hbytes : held ++ net.coming s = bytes) (reads : Network.Reads s new net net')
    (hb : held ++ new = Frame.frame body.data.toList) (hl : body.size ≤ Frame.sizeLimit)
    (ha : a.Holds []) (hscheduled : ∀ e : Envelope.Server, Frame.decodeBody body = .ok e →
      net'.Scheduled s ends due) :
    Meets c s bytes ends due ((Frame.decodeBody body).mapError .protocol)
      { c with assembler := a } net' := by
  obtain ⟨htidy, hcoming⟩ := reads.coming h.tidy
  have hsplit : bytes = Frame.frame body.data.toList ++ net'.coming s := by
    rw [← hbytes, hcoming, ← hb, List.append_assoc]
  refine .frame body (net'.coming s) hsplit hl ?_
  intro e he
  exact ⟨h.socket, ⟨[], ha, rfl⟩, htidy, hscheduled e he⟩

theorem Facing.poll (h : Facing c net s bytes ends due) :
    ∃ r c' net', c.poll (net.now + c.readTimeout) net = (some r, c', net') ∧
      net'.world = net.world ∧
      (Meets c s bytes ends due r c' net' ∨
        r = .ok {} ∧ Waited c net s bytes ends due c' net') := by
  obtain ⟨held, ha, hbytes⟩ := h.bytes_eq
  obtain ⟨a, hc, hp⟩ := read_progress s (net.now + c.readTimeout) net ha
  have hread : c.read s (net.now + c.readTimeout) net =
      ((c.read s (net.now + c.readTimeout) net).1, (c.read s (net.now + c.readTimeout) net).2.1,
        (c.read s (net.now + c.readTimeout) net).2.2) := rfl
  have hscheduled := readWithin_scheduled ha h.tidy h.scheduled (Nat.lt_succ_self _) hread
  simp only [Channel.poll, ensure_of_open h.socket, Nat.min_self, Nat.le_refl, if_true]
  generalize c.read s (net.now + c.readTimeout) net = result at hc hp hscheduled ⊢
  obtain ⟨r, c₁, net₁⟩ := result
  obtain rfl : c₁ = _ := hc
  dsimp only at hp hscheduled
  cases hp with
  | waiting new reads ha' =>
    obtain ⟨hs', hlater, hvain⟩ := hscheduled.1 rfl
    exact ⟨_, _, _, rfl, reads.world,
      Or.inr ⟨rfl, h.waited hbytes reads ha' hs' hlater hvain⟩⟩
  | frame new reads body hb hl ha' =>
    have hmeets := h.meets_frame hbytes reads hb hl ha' fun e he => hscheduled.2 e (by rw [he]; rfl)
    cases hd : Frame.decodeBody (α := Envelope.Server) body with
    | ok e =>
      rw [hd] at hmeets
      exact ⟨_, _, _, rfl, reads.world, Or.inl hmeets⟩
    | error cause =>
      -- A frame that is no envelope leaves the stream where the next frame begins.
      have hout : Manner.polling.outcome body = .error (.protocol cause) := by
        rw [Manner.outcome_polling, hd]
        rfl
      obtain ⟨haligned, hloss⟩ := isAligned_of_outcome hout
      rw [hd] at hmeets
      refine ⟨_, _, _, ?_, reads.world, Or.inl hmeets⟩
      simp [Except.mapError, hloss, fail, haligned]
  | @lost _ net₂ _ f new reads hf _ ha' still endsHere =>
    obtain ⟨ht', hcoming⟩ := reads.coming h.tidy
    have hworld : ∀ a, ({ c with assembler := a }.close net₁).2.world = net.world := by
      intro a
      exact (still_close _ net₁).world.trans (still.world.trans reads.world)
    have hended (hloss : f.isLoss) (hpending : Pending (held ++ new)) : Pending bytes := by
      rw [← hbytes, hcoming, (endsHere hloss).coming ht', List.append_nil]
      exact hpending
    cases hf with
    | transport fault hpending =>
      exact ⟨_, _, _, rfl, hworld a, Or.inl (.ended (hended rfl hpending) ha'.reset)⟩
    | closed expected received hpending =>
      exact ⟨_, _, _, rfl, hworld a, Or.inl (.ended (hended rfl hpending) ha'.reset)⟩
    | tooLarge ho =>
      refine ⟨_, _, _, rfl, hworld a, Or.inl (.oversized (held ++ new) (net₂.coming s) ?_ ho)⟩
      rw [← hbytes, hcoming, List.append_assoc]

end Channel
end Gallows
