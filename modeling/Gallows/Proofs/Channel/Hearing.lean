import Gallows.Proofs.Channel.Clock
import Gallows.Proofs.Channel.Steps
import Gallows.Proofs.Network.Arriving

/-!
What a channel hears on its open socket, as a function of the bytes that it holds of a frame and of
what arrives before it gives up, and in which state it is then.
-/
namespace Gallows.Channel
open Network (Live)

variable {c c' : Channel} {net net' : Network} {s : Socket} {held : List UInt8} {deadline : Nat}
  {source : Source}

/-- What comes of reading that starts with the bytes `held` of a frame and finds this source. -/
def heard (held : List UInt8) (source : Source) : Outcome Envelope.Server :=
  match (Frame.split (held ++ source.bytes)).1 with
  | .ok body :: _ => some ((Frame.decodeBody body.toByteArray).mapError .protocol)
  | .error e :: _ => some (.error (.protocol (.frame e)))
  | [] =>
    let (expected, received) := Frame.lastPart (held ++ source.bytes)
    source.ending.map fun
      | .ok () => .error (.protocol (.frame (.closed expected received)))
      | .error fault => .error (.transport fault)

theorem heard_frame {body rest : List UInt8} (hl : body.length ≤ Frame.sizeLimit)
    (h : held ++ source.bytes = Frame.frame body ++ rest) :
    heard held source = some ((Frame.decodeBody body.toByteArray).mapError .protocol) := by
  simp only [heard, h, Frame.split_frame_append hl]

theorem heard_oversized {header rest : List UInt8} (ho : Frame.Oversized header)
    (h : held ++ source.bytes = header ++ rest) :
    heard held source =
      some (.error (.protocol (.frame (.tooLarge (Frame.spelled header) Frame.sizeLimit)))) := by
  simp only [heard, h, Frame.split_oversized_append ho]

theorem heard_pending (hp : Frame.Pending (held ++ source.bytes)) :
    heard held source = source.ending.map fun
      | .ok () => .error (.protocol (.frame (.closed (Frame.lastPart (held ++ source.bytes)).1
          (Frame.lastPart (held ++ source.bytes)).2)))
      | .error fault => .error (.transport fault) := by
  simp only [heard, Frame.split_pending hp]

/-- Bytes that have been taken in are held. -/
theorem heard_append {piece : List UInt8} {rest : Source} (hb : source.bytes = piece ++ rest.bytes)
    (he : rest.ending = source.ending) : heard held source = heard (held ++ piece) rest := by
  simp only [heard, hb, he, List.append_assoc]

theorem readWithin_heard {fuel : Nat} (h : c.assembler.Holds held) (hlive : net.Live s)
    (hf : net.weightOf s < fuel) :
    (readWithin s deadline fuel c net).1 = heard held (net.arriving s deadline) := by
  induction fuel generalizing c net held with
  | zero => omega
  | succ fuel ih =>
    have hfinds := Network.read_finds hlive h.unfilled deadline
    have hproper := hlive.proper deadline
    rcases hread : net.read s c.assembler.unfilled deadline with ⟨found, net'⟩
    rw [hread] at hfinds
    cases hfinds with
    | nothing hnil =>
      rw [readWithin_over hread rfl, hnil, heard_pending (by simpa [Source.bytes] using h.pending)]
      rfl
    | @something r _ hne live hr =>
      have hless : net'.weightOf s < net.weightOf s := by
        obtain ⟨d, hd, htidy, -⟩ := hlive
        exact Network.weightOf_read_lt hd htidy h.unfilled hread
      have hyields := Source.read_yields hproper hne h.unfilled
      rw [hr] at hyields
      cases hyields with
      | piece piece h0 hb he =>
        have hfed := h.feed (Nat.pos_of_ne_zero h0) (Source.size_of_read hr)
        rw [heard_append hb he]
        rcases hfeed : c.assembler.feed piece with ⟨fed, a⟩
        rw [hfeed] at hfed
        cases hfed with
        | more ha =>
          rw [readWithin_more (a := a) hread (by simp only [digest, hfeed])]
          exact ih ha live (by omega)
        | complete body hs hl ha =>
          rw [readWithin_over (a := a) hread (by simp only [digest, hfeed]; rfl), hs,
            heard_frame (by simpa using hl) rfl, Frame.toByteArray_toList]
        | tooLarge hs ha =>
          rw [readWithin_over (a := a) hread (by simp only [digest, hfeed]; rfl),
            heard_oversized hs rfl]
      | ended hb he =>
        have hclosed : (c.assembler.feed .empty).1 = .error (.closed _ _) := (h.feed_end rfl).1
        rcases hfeed : c.assembler.feed .empty with ⟨fed, a⟩
        rw [hfeed] at hclosed
        obtain rfl : fed = _ := hclosed
        have hpending : Frame.Pending (held ++ (net.arriving s deadline).bytes) := by
          simpa [hb] using h.pending
        rw [readWithin_over (a := a) hread (by simp only [digest, hfeed]; rfl),
          heard_pending hpending, he, hb, List.append_nil]
        rfl
      | failed fault hf hb he =>
        have hpending : Frame.Pending (held ++ (net.arriving s deadline).bytes) := by
          simpa [hb] using h.pending
        rw [readWithin_over hread (by rw [digest, if_neg (by simp [hf])]), heard_pending hpending,
          he]
        rfl

theorem receive_heard (hs : c.socket = some s) (h : c.assembler.Holds held) (hlive : net.Live s) :
    (c.receive deadline net).1 = heard held (net.arriving s deadline) := by
  rw [← readWithin_heard h hlive (Nat.lt_succ_self _)]
  change _ = (c.read s deadline net).1
  simp only [receive, ensure_of_open hs]
  generalize c.read s deadline net = result
  obtain ⟨_ | ⟨f | e⟩, c', net'⟩ := result <;> rfl

/-- Where a channel is after it has listened to its open socket. -/
inductive Leaves (s : Socket) (c : Channel) (net : Network) :
    Outcome Envelope.Server → Channel → Network → Prop
  /-- It may go on reading. -/
  | waiting {a : Frame.Assembler} {net' : Network} {held : List UInt8} (ha : a.Holds held)
      (count : net'.connections.length = net.connections.length) :
      Leaves s c net none { c with assembler := a } net'
  /-- It has read a frame. -/
  | kept {r : Except Failure Envelope.Server} {a : Frame.Assembler} {net' : Network}
      (hr : ∀ f, r = .error f → f.isAligned) (ha : a.Holds []) :
      Leaves s c net (some r) { c with assembler := a } net'
  /-- It has given the socket up. -/
  | dropped {f : Failure} {a : Frame.Assembler} {net' : Network} (hf : f.isAligned = false)
      (ha : a.Holds []) (count : net'.connections.length = net.connections.length) :
      Leaves s c net (some (.error f)) { c with socket := none, assembler := a } (net'.close s)

theorem receive_leaves (hs : c.socket = some s) (h : c.assembler.Holds held) (deadline : Nat)
    (net : Network) :
    Leaves s c net (c.receive deadline net).1 (c.receive deadline net).2.1
      (c.receive deadline net).2.2 := by
  obtain ⟨a, hc, hp⟩ := read_progress s deadline net h
  simp only [receive, ensure_of_open hs]
  generalize c.read s deadline net = result at hc hp ⊢
  obtain ⟨r, c', net'⟩ := result
  obtain rfl : c' = _ := hc
  cases hp with
  | waiting new reads ha => exact .waiting ha reads.length
  | frame new reads body hb hl ha =>
    rw [← Manner.outcome_plain]
    cases ho : Manner.plain.outcome body with
    | error f =>
      have hf := (isAligned_of_outcome ho).1
      simp only [fail, hf, if_true]
      exact .kept (by simpa using hf) ha
    | ok e => exact .kept (by simp) ha
  | lost new reads hf ha still _ =>
    simp only [fail, hf.isAligned, Bool.false_eq_true, if_false, close, hs]
    exact .dropped hf.isAligned ha.reset (still.count.trans reads.length)

end Gallows.Channel
