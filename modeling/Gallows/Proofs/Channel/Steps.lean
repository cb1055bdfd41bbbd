import Gallows.Channel.Receive
import Gallows.Proofs.Frame.Assembly
import Gallows.Proofs.Network.Traffic

/-!
What the steps of a channel's operations do: opening a socket, closing it, writing a frame, and
reading until a frame is complete.
-/
namespace Gallows
open Gallows.Frame (Pending Oversized)

variable {net net' : Network} {c c' : Channel} {socket : Socket} {deadline fuel : Nat}
  {s : List UInt8}

namespace Channel

open Network (Quiet Still Reads Writes Ends)

/-- What comes of asking for an open socket. -/
inductive Ensured (c : Channel) (net : Network) : Outcome Socket → Channel → Network → Prop
  | kept (socket : Socket) (h : c.socket = some socket) : Ensured c net (some (.ok socket)) c net
  | opened (net' : Network) (h : c.socket = none) (quiet : Quiet net net')
      (length : net'.connections.length = net.connections.length + 1) :
      Ensured c net (some (.ok net.connections.length))
        { c with
          socket := some net.connections.length
          assembler := c.assembler.reset
          generation := c.generation + 1 } net'
  | failed (net' : Network) (fault : Fault) (h : c.socket = none) (quiet : Quiet net net') :
      Ensured c net (some (.error (.connect c.endpoint.text fault))) c net'
  | waiting (net' : Network) (h : c.socket = none) (quiet : Quiet net net') :
      Ensured c net none c net'

theorem ensured (c : Channel) (deadline : Nat) (net : Network) :
    Ensured c net (c.ensure deadline net).1 (c.ensure deadline net).2.1
      (c.ensure deadline net).2.2 := by
  cases hs : c.socket with
  | some socket =>
    simp only [ensure, hs]
    exact .kept socket hs
  | none =>
    simp only [ensure, hs]
    have hq := Network.quiet_connect net c.endpoint (min (net.now + c.connectTimeout) deadline)
    split
    · rename_i socket net' he
      rw [he] at hq
      have hn := Network.connect_eq_some (congrArg Prod.fst he)
      rw [he] at hn
      obtain ⟨rfl, hlen⟩ := hn
      exact .opened net' hs hq hlen
    · rename_i fault net' he
      rw [he] at hq
      exact .failed net' fault hs hq
    · rename_i net' he
      rw [he] at hq
      split
      · exact .failed net' _ hs hq
      · exact .waiting net' hs hq

/-- What a connection is given up with when `s` is at hand of a frame. -/
inductive Lost (s : List UInt8) : Failure → Prop
  | transport (fault : Fault) (h : Pending s) : Lost s (.transport fault)
  | closed (expected received : Nat) (h : Pending s) :
      Lost s (.protocol (.frame (.closed expected received)))
  | tooLarge (h : Oversized s) :
      Lost s (.protocol (.frame (.tooLarge (Frame.spelled s) Frame.sizeLimit)))

/-- What comes of reading from a socket when `held` is at hand of a frame. -/
inductive Progress (held : List UInt8) (socket : Socket) (net : Network) :
    Outcome Envelope.Server → Frame.Assembler → Network → Prop
  | waiting {a : Frame.Assembler} {net' : Network} (new : List UInt8)
      (reads : Reads socket new net net') (ha : a.Holds (held ++ new)) :
      Progress held socket net none a net'
  | frame {a : Frame.Assembler} {net' : Network} (new : List UInt8)
      (reads : Reads socket new net net') (body : ByteArray)
      (hb : held ++ new = Frame.frame body.data.toList) (hl : body.size ≤ Frame.sizeLimit)
      (ha : a.Holds []) :
      Progress held socket net (some ((Frame.decodeBody body).mapError .protocol)) a net'
  | lost {a : Frame.Assembler} {net₁ net' : Network} {f : Failure} (new : List UInt8)
      (reads : Reads socket new net net₁) (hf : Lost (held ++ new) f) {left : List UInt8}
      (ha : a.Holds left) (still : Still net₁ net')
      (ends : f.isLoss → Ends socket net₁ net') : Progress held socket net (some (.error f)) a net'

theorem Progress.behind {held new : List UInt8} {r : Outcome Envelope.Server}
    {a : Frame.Assembler} {net'' : Network} (h : Progress (held ++ new) socket net' r a net'')
    (hr : Reads socket new net net') : Progress held socket net r a net'' := by
  cases h with
  | waiting more reads ha =>
    rw [List.append_assoc] at ha
    exact .waiting (new ++ more) (hr.trans reads) ha
  | frame more reads body hb hl ha =>
    rw [List.append_assoc] at hb
    exact .frame (new ++ more) (hr.trans reads) body hb hl ha
  | lost more reads hf ha still ends =>
    rw [List.append_assoc] at hf
    exact .lost (new ++ more) (hr.trans reads) hf ha still ends

/-- Reading goes on from the bytes that the assembler holds, and takes in all that it reads. -/
theorem readWithin_progress (socket : Socket) (deadline fuel : Nat) (net : Network)
    (h : c.assembler.Holds s) :
    ∃ a, (readWithin socket deadline fuel c net).2.1 = { c with assembler := a } ∧
      Progress s socket net (readWithin socket deadline fuel c net).1 a
        (readWithin socket deadline fuel c net).2.2 := by
  induction fuel generalizing c net s with
  | zero =>
    exact ⟨c.assembler, rfl, .waiting [] (Network.reads_nil socket net) (by simpa using h)⟩
  | succ fuel ih =>
    have hread := Network.read_reading net socket h.unfilled deadline
    simp only [readWithin]
    generalize net.read socket c.assembler.unfilled deadline = result at hread ⊢
    obtain ⟨r, net'⟩ := result
    cases hread with
    | nothing reads => exact ⟨c.assembler, rfl, .waiting [] reads (by simpa using h)⟩
    | retry fault hf reads =>
      simp only [hf, if_true]
      obtain ⟨a, hc, hp⟩ := ih net' h
      rw [← List.append_nil s] at hp
      exact ⟨a, hc, hp.behind reads⟩
    | failed fault hf ends =>
      simp only [hf, Bool.false_eq_true, if_false]
      refine ⟨c.assembler, rfl, .lost [] (Network.reads_nil socket net) ?_ h ends.toStill
        fun _ => ends⟩
      exact .transport fault (by simpa using h.pending)
    | ended piece h0 ends =>
      obtain ⟨he, ha⟩ := h.feed_end h0
      dsimp only
      generalize c.assembler.feed piece = fed at he ha ⊢
      obtain ⟨r, a⟩ := fed
      obtain rfl : r = _ := he
      refine ⟨a, rfl, .lost [] (Network.reads_nil socket net) ?_ ha ends.toStill fun _ => ends⟩
      exact .closed _ _ (by simpa using h.pending)
    | piece piece h0 hl reads =>
      have hfed := h.feed h0 hl
      dsimp only
      generalize c.assembler.feed piece = fed at hfed ⊢
      obtain ⟨r, a⟩ := fed
      cases hfed with
      | more ha =>
        have hc' : ({ c with assembler := a } : Channel).assembler.Holds
          (s ++ piece.data.toList) := ha
        obtain ⟨b, hc, hp⟩ := ih net' hc'
        exact ⟨b, hc, hp.behind reads⟩
      | complete body hs hl ha => exact ⟨a, rfl, .frame _ reads body hs hl ha⟩
      | tooLarge hs ha =>
        exact ⟨a, rfl, .lost _ reads (.tooLarge hs) ha (Network.still_refl net')
          (by simp [Failure.isLoss, ProtocolError.isPeerGone])⟩

theorem read_progress (socket : Socket) (deadline : Nat) (net : Network)
    (h : c.assembler.Holds s) :
    ∃ a, (c.read socket deadline net).2.1 = { c with assembler := a } ∧
      Progress s socket net (c.read socket deadline net).1 a
        (c.read socket deadline net).2.2 :=
  readWithin_progress socket deadline _ net h

theorem Ensured.socket_eq (h : Ensured c net (some (.ok socket)) c' net') :
    c'.socket = some socket := by
  cases h with
  | kept _ h => exact h
  | opened _ _ _ _ => rfl

theorem Ensured.of_open {open' : Socket} (he : Ensured c net (some (.ok socket)) c' net')
    (hs : c.socket = some open') : open' = socket ∧ c = c' ∧ net = net' := by
  cases he with
  | kept _ h =>
    rw [hs] at h
    cases h
    exact ⟨rfl, rfl, rfl⟩
  | opened _ h _ _ => simp [hs] at h

/-- A socket that is opened finds an assembler without bytes, so that the bytes held stay the
same. -/
theorem Ensured.holds {held : List UInt8} (h : Ensured c net (some (.ok socket)) c' net')
    (ha : c.assembler.Holds held) (hidle : c.socket = none → held = []) :
    c'.assembler.Holds held := by
  cases h with
  | kept _ _ => exact ha
  | opened _ hs _ _ =>
    obtain rfl := hidle hs
    exact ha.reset

theorem still_close (c : Channel) (net : Network) : Still net (c.close net).2 := by
  simp only [close]
  split
  · exact Network.still_refl net
  · exact Network.still_close net _

/-- What comes of sending an envelope. -/
inductive Sends (e : Envelope.Client) (c : Channel) (net : Network) :
    Outcome Unit → Channel → Network → Prop
  /-- The envelope is too large for a frame. -/
  | refused (cause : Frame.Error) (h : Frame.encode e = .error cause) :
      Sends e c net (some (.error (.protocol (.frame cause)))) c net
  | failed {net' : Network} (fault : Fault) (frame : ByteArray) (h : Frame.encode e = .ok frame)
      (hs : c.socket = none) (quiet : Quiet net net') :
      Sends e c net (some (.error (.connect c.endpoint.text fault))) c net'
  | waiting {net' : Network} (frame : ByteArray) (h : Frame.encode e = .ok frame)
      (hs : c.socket = none) (quiet : Quiet net net') : Sends e c net none c net'
  | sent {socket : Socket} {c₁ : Channel} {net₁ net' : Network} (frame : ByteArray)
      (h : Frame.encode e = .ok frame) (ensured : Ensured c net (some (.ok socket)) c₁ net₁)
      (writes : Writes socket frame.data.toList net₁ net') : Sends e c net (some (.ok ())) c₁ net'
  | broken {socket : Socket} {c₁ : Channel} {net₁ net₂ : Network} (frame : ByteArray)
      (h : Frame.encode e = .ok frame) (ensured : Ensured c net (some (.ok socket)) c₁ net₁)
      (part : List UInt8) (hp : part <+: frame.data.toList) (writes : Writes socket part net₁ net₂)
      (fault : Fault) (hw : (net₁.write socket frame).1 = .error fault) :
      Sends e c net (some (.error (.transport fault))) (c₁.close net₂).1 (c₁.close net₂).2

theorem send_sends (e : Envelope.Client) (c : Channel) (deadline : Nat) (net : Network) :
    Sends e c net (c.send e deadline net).1 (c.send e deadline net).2.1
      (c.send e deadline net).2.2 := by
  simp only [send]
  cases hf : Frame.encode e with
  | error cause => exact .refused cause hf
  | ok frame =>
    have hens := ensured c deadline net
    dsimp only
    generalize c.ensure deadline net = result at hens ⊢
    rcases result with ⟨_ | ⟨f | socket⟩, c₁, net₁⟩ <;> dsimp only at hens ⊢
    · cases hens with
      | waiting _ hs quiet => exact .waiting frame hf hs quiet
    · cases hens with
      | failed _ fault hs quiet => exact .failed fault frame hf hs quiet
    · obtain ⟨part, hp, writes, hok⟩ := Network.writes_write net₁ socket frame
      cases hw : (net₁.write socket frame).1 with
      | error fault =>
        rw [← Prod.mk.eta (p := net₁.write socket frame), hw]
        exact .broken frame hf hens part hp writes fault hw
      | ok done =>
        rw [← Prod.mk.eta (p := net₁.write socket frame), hw]
        obtain rfl := hok hw
        exact .sent frame hf hens writes

/-- A stream that ends within its first frame. -/
def Unfinished (s : List UInt8) : Prop :=
  s.length < Frame.headerSize ∨
    s.length < Frame.headerSize + Frame.spelled (s.take Frame.headerSize)

theorem unfinished_of_pending (h : Pending s) : Unfinished s := h.imp_right And.right

theorem unfinished_of_oversized (h : Oversized s) : Unfinished s := by
  have hz : Frame.sizeLimit = 16777216 := rfl
  have ht : s.take Frame.headerSize = s := List.take_of_length_le (Nat.le_of_eq h.1)
  obtain ⟨hl, hs⟩ := h
  exact Or.inr (by rw [ht]; omega)

theorem Lost.unfinished {f : Failure} (h : Lost s f) : Unfinished s := by
  cases h with
  | transport _ h | closed _ _ h => exact unfinished_of_pending h
  | tooLarge h => exact unfinished_of_oversized h

/-- How an operation gives what comes of asking for an envelope. -/
structure Manner (α : Type) where
  put : Envelope.Server → α
  /-- What it gives when it has waited in vain. -/
  spare : Option α := none
  /-- Whether it gives this for a lost connection too. -/
  lenient : Bool := false

namespace Manner

/-- How `receive` gives an envelope. -/
def plain : Manner Envelope.Server where
  put := id

/-- How `poll` gives an envelope. -/
def polling : Manner Envelope.Server where
  put := id
  spare := some {}
  lenient := true

/-- How `receiveUnless` gives an envelope. -/
def stoppable : Manner Received where
  put := .envelope
  spare := some .stopped

variable {α β : Type}

/-- The manner of an operation whose results are made into something else. -/
def map (m : Manner α) (g : α → β) : Manner β where
  put := g ∘ m.put
  spare := m.spare.map g
  lenient := m.lenient

/-- What the frame of a body comes to. -/
def outcome (m : Manner α) (body : ByteArray) : Except Failure α :=
  ((Frame.decodeBody body).mapError .protocol).map m.put

/-- What a failure of the connection comes to. -/
def loss (m : Manner α) (f : Failure) : Outcome α :=
  if m.lenient && f.isLoss then m.spare.map .ok else some (.error f)

/-- Whether an operation gives this when it has waited in vain. -/
def Spares (m : Manner α) (r : Outcome α) : Prop := r = none ∨ r = m.spare.map .ok

theorem outcome_plain (body : ByteArray) :
    plain.outcome body = (Frame.decodeBody body).mapError .protocol := by
  simp [outcome, plain]

theorem outcome_polling (body : ByteArray) :
    polling.outcome body = (Frame.decodeBody body).mapError .protocol := by
  simp [outcome, polling]

theorem outcome_map (m : Manner α) (g : α → β) (body : ByteArray) :
    (m.map g).outcome body = (m.outcome body).map g := by
  simp only [outcome]
  cases (Frame.decodeBody (α := Envelope.Server) body).mapError Failure.protocol <;> rfl

theorem loss_polling (f : Failure) :
    polling.loss f = if f.isLoss then some (.ok {}) else some (.error f) := by
  cases hl : f.isLoss <;> simp [loss, polling, hl]

theorem loss_map (m : Manner α) (g : α → β) (f : Failure) :
    (m.map g).loss f = (m.loss f).map (·.map g) := by
  have hl : (m.map g).lenient = m.lenient := rfl
  have hs : (m.map g).spare = m.spare.map g := rfl
  rw [loss, loss, hl, hs]
  by_cases h : m.lenient && f.isLoss
  · rw [if_pos h, if_pos h]
    cases m.spare <;> rfl
  · rw [if_neg h, if_neg h]
    rfl

theorem Spares.map {m : Manner α} {r : Outcome α} (h : m.Spares r) (g : α → β) :
    (m.map g).Spares (r.map (·.map g)) := by
  rcases h with rfl | rfl
  · exact Or.inl rfl
  · refine Or.inr ?_
    simp only [Manner.map]
    cases m.spare <;> rfl

end Manner

variable {α : Type} {m : Manner α} {held : List UInt8} {r : Outcome α}

/-- What comes of asking for an envelope when `held` is at hand of a frame. -/
inductive Receives (m : Manner α) (held : List UInt8) (c : Channel) (net : Network) :
    Outcome α → Channel → Network → Prop
  /-- There is no socket, and none was opened. -/
  | unopened {r : Outcome α} {net' : Network} (hs : c.socket = none) (quiet : Quiet net net')
      (hr : m.Spares r ∨ ∃ fault, r = some (.error (.connect c.endpoint.text fault))) :
      Receives m held c net r c net'
  /-- The frame was completed. -/
  | frame {socket : Socket} {c₁ : Channel} {net₁ net' : Network} {a : Frame.Assembler}
      (ensured : Ensured c net (some (.ok socket)) c₁ net₁) (body : ByteArray) (new : List UInt8)
      (reads : Reads socket new net₁ net') (hb : held ++ new = Frame.frame body.data.toList)
      (hl : body.size ≤ Frame.sizeLimit) (ha : a.Holds []) :
      Receives m held c net (some (m.outcome body)) { c₁ with assembler := a } net'
  /-- The wait for the rest of the frame was given up. -/
  | kept {socket : Socket} {c₁ : Channel} {net₁ net' : Network} {a : Frame.Assembler}
      {r : Outcome α} (ensured : Ensured c net (some (.ok socket)) c₁ net₁) (new : List UInt8)
      (reads : Reads socket new net₁ net') (hr : m.Spares r) (ha : a.Holds (held ++ new)) :
      Receives m held c net r { c₁ with assembler := a } net'
  /-- The socket was closed within the frame. -/
  | dropped {socket : Socket} {c₁ : Channel} {net₁ net₂ net' : Network} {a : Frame.Assembler}
      {f : Failure} (ensured : Ensured c net (some (.ok socket)) c₁ net₁) (new : List UInt8)
      (reads : Reads socket new net₁ net₂) (hf : Lost (held ++ new) f) (still : Still net₂ net')
      (ends : f.isLoss → net₂.Tidy socket → net₂.coming socket = []) (ha : a.Holds []) :
      Receives m held c net (m.loss f) { c₁ with socket := none, assembler := a } net'

/-- All that can be wrong with a complete frame is the envelope in it. -/
theorem envelope_of_outcome {body : ByteArray} {f : Failure} (h : m.outcome body = .error f) :
    ∃ cause, f = .protocol (.envelope cause) := by
  simp only [Manner.outcome, Frame.decodeBody] at h
  cases hd : Wire.decode (α := Envelope.Server) body with
  | ok e =>
    rw [hd] at h
    cases h
  | error cause =>
    rw [hd] at h
    cases h
    exact ⟨cause, rfl⟩

/-- A frame that cannot be read leaves the stream where the next one begins, and the connection
open. -/
theorem isAligned_of_outcome {body : ByteArray} {f : Failure} (h : m.outcome body = .error f) :
    f.isAligned ∧ f.isLoss = false := by
  obtain ⟨cause, rfl⟩ := envelope_of_outcome h
  exact ⟨rfl, rfl⟩

theorem Lost.isAligned {f : Failure} (h : Lost s f) : f.isAligned = false := by
  cases h <;> rfl

/-- Closing behind a failed read. -/
theorem receives_dropped {socket : Socket} {c₁ : Channel} {net₁ net₂ net₃ : Network}
    {a : Frame.Assembler} {f : Failure} {new left : List UInt8}
    (hens : Ensured c net (some (.ok socket)) c₁ net₁) (reads : Reads socket new net₁ net₂)
    (hf : Lost (held ++ new) f) (ha : a.Holds left) (still : Still net₂ net₃)
    (ends : f.isLoss → Ends socket net₂ net₃) :
    Receives m held c net (m.loss f) ({ c₁ with assembler := a }.close net₃).1
      ({ c₁ with assembler := a }.close net₃).2 := by
  have hd : Receives m held c net (m.loss f) { c₁ with socket := none, assembler := a.reset }
      ({ c₁ with assembler := a }.close net₃).2 :=
    .dropped hens new reads hf (still.trans (still_close _ net₃)) (fun h => (ends h).coming)
      ha.reset
  exact hd

theorem receive_receives (deadline : Nat) (net : Network) (ha : c.assembler.Holds held)
    (hidle : c.socket = none → held = []) :
    Receives .plain held c net (c.receive deadline net).1 (c.receive deadline net).2.1
      (c.receive deadline net).2.2 := by
  have hens := ensured c deadline net
  simp only [receive]
  generalize c.ensure deadline net = result at hens ⊢
  rcases result with ⟨_ | ⟨f | socket⟩, c₁, net₁⟩ <;> dsimp only at hens ⊢
  · cases hens with
    | waiting _ hs quiet => exact .unopened hs quiet (Or.inl (Or.inl rfl))
  · cases hens with
    | failed _ fault hs quiet => exact .unopened hs quiet (Or.inr ⟨fault, rfl⟩)
  · obtain ⟨a, hc, hp⟩ := read_progress socket deadline net₁ (hens.holds ha hidle)
    generalize c₁.read socket deadline net₁ = result at hc hp ⊢
    obtain ⟨r, c₂, net₂⟩ := result
    obtain rfl : c₂ = _ := hc
    cases hp with
    | waiting new reads ha => exact .kept hens new reads (Or.inl rfl) ha
    | lost new reads hf ha still ends =>
      have hd : Receives .plain held c net _ _ _ := receives_dropped hens reads hf ha still ends
      simpa [fail, hf.isAligned, Manner.loss, Manner.plain] using hd
    | frame new reads body hb hl ha =>
      have hout : Receives .plain held c net _ _ _ := .frame hens body new reads hb hl ha
      rw [← Manner.outcome_plain]
      cases ho : Manner.plain.outcome body with
      | error f => simpa [fail, isAligned_of_outcome ho, ho] using hout
      | ok e => simpa [ho] using hout

theorem poll_receives (deadline : Nat) (net : Network) (ha : c.assembler.Holds held)
    (hidle : c.socket = none → held = []) :
    Receives .polling held c net (c.poll deadline net).1 (c.poll deadline net).2.1
      (c.poll deadline net).2.2 := by
  have hens := ensured c deadline net
  simp only [poll]
  generalize c.ensure deadline net = result at hens ⊢
  rcases result with ⟨_ | ⟨f | socket⟩, c₁, net₁⟩ <;> dsimp only at hens ⊢
  · cases hens with
    | waiting _ hs quiet => exact .unopened hs quiet (Or.inl (Or.inl rfl))
  · cases hens with
    | failed _ fault hs quiet => exact .unopened hs quiet (Or.inr ⟨fault, rfl⟩)
  · generalize hlimit : net₁.now + c₁.readTimeout = limit
    obtain ⟨a, hc, hp⟩ := read_progress socket (min limit deadline) net₁ (hens.holds ha hidle)
    generalize c₁.read socket (min limit deadline) net₁ = result at hc hp ⊢
    obtain ⟨r, c₂, net₂⟩ := result
    obtain rfl : c₂ = _ := hc
    cases hp with
    | waiting new reads ha =>
      refine .kept hens new reads ?_ ha
      by_cases hd : limit ≤ deadline
      · exact Or.inr (if_pos hd)
      · exact Or.inl (if_neg hd)
    | @lost _ _ _ f new reads hf _ ha still ends =>
      have hd : Receives .polling held c net _ _ _ := receives_dropped hens reads hf ha still ends
      by_cases hl : f.isLoss
      · simpa [hl, Manner.loss, Manner.polling] using hd
      · simpa [fail, hf.isAligned, hl, Manner.loss, Manner.polling] using hd
    | frame new reads body hb hl ha =>
      have hout : Receives .polling held c net _ _ _ := .frame hens body new reads hb hl ha
      rw [← Manner.outcome_polling]
      cases ho : Manner.polling.outcome body with
      | error f => simpa [fail, isAligned_of_outcome ho, ho] using hout
      | ok e => simpa [ho] using hout

theorem spares_interrupt (token : Token) (deadline : Nat) :
    Manner.stoppable.Spares (token.interrupt deadline .stopped) := by
  simp only [Token.interrupt]
  split
  · exact Or.inr rfl
  · exact Or.inl rfl

theorem receiveUnless_receives (token : Token) (deadline : Nat) (net : Network)
    (ha : c.assembler.Holds held) (hidle : c.socket = none → held = []) :
    Receives .stoppable held c net (c.receiveUnless token deadline net).1
      (c.receiveUnless token deadline net).2.1 (c.receiveUnless token deadline net).2.2 := by
  have hens := ensured c (token.limit deadline) net
  simp only [receiveUnless]
  by_cases hfired : token.isFired net.now
  · rw [if_pos hfired]
    cases hs : c.socket with
    | none => exact .unopened hs (Network.quiet_refl net) (Or.inl (Or.inr rfl))
    | some socket =>
      exact .kept (.kept socket hs) [] (Network.reads_nil socket net) (Or.inr rfl)
        (by simpa using ha)
  · rw [if_neg hfired]
    generalize c.ensure (token.limit deadline) net = result at hens ⊢
    rcases result with ⟨_ | ⟨f | socket⟩, c₁, net₁⟩ <;> dsimp only at hens ⊢
    · cases hens with
      | waiting _ hs quiet => exact .unopened hs quiet (Or.inl (spares_interrupt token deadline))
    · cases hens with
      | failed _ fault hs quiet => exact .unopened hs quiet (Or.inr ⟨fault, rfl⟩)
    · obtain ⟨a, hc, hp⟩ := read_progress socket (token.limit deadline) net₁ (hens.holds ha hidle)
      generalize c₁.read socket (token.limit deadline) net₁ = result at hc hp ⊢
      obtain ⟨r, c₂, net₂⟩ := result
      obtain rfl : c₂ = _ := hc
      cases hp with
      | waiting new reads ha => exact .kept hens new reads (spares_interrupt token deadline) ha
      | lost new reads hf ha still ends =>
        have hd : Receives .stoppable held c net _ _ _ :=
          receives_dropped hens reads hf ha still ends
        simpa [fail, hf.isAligned, Manner.loss, Manner.stoppable] using hd
      | frame new reads body hb hl ha =>
        have hout : Receives .stoppable held c net _ _ _ := .frame hens body new reads hb hl ha
        have hid : Manner.stoppable.outcome body =
            ((Frame.decodeBody body).mapError .protocol).map .envelope := rfl
        cases ho : (Frame.decodeBody (α := Envelope.Server) body).mapError Failure.protocol with
        | error f =>
          rw [hid, ho] at hout
          have hf : f.isAligned := (isAligned_of_outcome (hid.trans (by rw [ho]; rfl))).1
          simpa [fail, hf, Except.map] using hout
        | ok e =>
          rw [hid, ho] at hout
          simpa [Except.map] using hout

end Channel
end Gallows
