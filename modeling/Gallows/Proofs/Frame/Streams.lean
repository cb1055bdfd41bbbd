import Gallows.Frame.Codec
import Gallows.Proofs.Envelope.Layout
import Gallows.Proofs.Frame.Assembly
import Gallows.Proofs.Network.Traffic

/-!
Messages over streams. However a stream is cut into reads, and however little of a frame a write
takes, the messages that are read are those that were written.
-/
namespace Gallows

/-! What readers come upon in a stream. -/

namespace Source

variable {source : Source} {limit : Nat}

/-- What a reader comes upon that tries again after transient failures. -/
inductive Mark
  | byte (b : UInt8)
  /-- One read that finds the end. -/
  | ended
  | failed (fault : Fault)

/-- What a reader comes upon in a stream before it has nothing but its end. -/
def marks : Source → List Mark
  | [] => []
  | .data bytes :: rest => bytes.rest.map .byte ++ marks rest
  | .ended :: rest => .ended :: marks rest
  | .failed fault :: rest => if fault.isTransient then marks rest else .failed fault :: marks rest

/-- Whether the reads of a stream give these bytes, in whatever pieces, and then the end. -/
def Gives (source : Source) (bytes : List UInt8) : Prop := source.marks = bytes.map .byte

/-- What comes of a read that is tried again after transient failures. -/
inductive Steady (source : Source) (limit : Nat) : Except Fault ByteArray → Source → Prop
  | piece {rest : Source} (piece : ByteArray) (h0 : 0 < piece.size) (hl : piece.size ≤ limit)
      (hm : source.marks = piece.data.toList.map .byte ++ rest.marks)
      (hw : rest.weight < source.weight) : Steady source limit (.ok piece) rest
  | exhausted (hm : source.marks = []) : Steady source limit (.ok .empty) []
  | ended {rest : Source} (hm : source.marks = .ended :: rest.marks) :
      Steady source limit (.ok .empty) rest
  | failed {rest : Source} (fault : Fault) (hm : source.marks = .failed fault :: rest.marks) :
      Steady source limit (.error fault) rest

theorem Steady.behind {item : Item} {r : Except Fault ByteArray} {rest : Source}
    (h : Steady source limit r rest) (hm : marks (item :: source) = source.marks) :
    Steady (item :: source) limit r rest := by
  cases h with
  | piece piece h0 hl hs hw =>
    refine .piece piece h0 hl (hm.trans hs) ?_
    have hitem : weight (item :: source) = item.weight + source.weight := rfl
    omega
  | exhausted hs => exact .exhausted (hm.trans hs)
  | ended hs => exact .ended (hm.trans hs)
  | failed fault hs => exact .failed fault (hm.trans hs)

theorem read_data {c : Cursor} (hc : 0 < c.remaining) (h0 : 0 < limit) (source : Source) :
    Steady (.data c :: source) limit (read limit (.data c :: source)).1
      (read limit (.data c :: source)).2 := by
  have hk : min limit c.remaining ≤ c.rest.length := by
    rw [Cursor.length_rest]
    exact Nat.min_le_right _ _
  obtain ⟨⟨chunk, left⟩, ht⟩ := Option.isSome_iff_exists.mp (Cursor.take?_isSome_iff.mpr hk)
  obtain ⟨hchunk, hleft⟩ := Cursor.rest_of_take? ht
  have hsplit : c.rest = chunk.data.toList ++ left.rest := by
    rw [hchunk, hleft, List.take_append_drop]
  have hsize : chunk.size = min limit c.remaining := by
    have hlen := congrArg List.length hchunk
    rw [List.length_take_of_le hk] at hlen
    simpa using hlen
  have hlen : c.remaining = chunk.size + left.remaining := by
    rw [← c.length_rest, ← left.length_rest, hsplit]
    simp
  have hweight (item : Item) : weight (item :: source) = item.weight + weight source := rfl
  simp only [read, ht, if_neg (Nat.ne_of_gt hc)]
  by_cases hl : left.remaining = 0
  · have hnil : left.rest = [] := List.eq_nil_of_length_eq_zero (left.length_rest.trans hl)
    rw [if_pos hl]
    refine .piece chunk (by omega) (by omega) ?_ ?_
    · simp [marks, hsplit, hnil]
    · rw [hweight]
      simp only [Item.weight]
      omega
  · rw [if_neg hl]
    refine .piece chunk (by omega) (by omega) ?_ ?_
    · simp [marks, hsplit]
    · rw [hweight, hweight]
      simp only [Item.weight]
      omega

theorem readSteadily_steady (source : Source) (h0 : 0 < limit) :
    Steady source limit (source.readSteadily limit).1 (source.readSteadily limit).2 := by
  induction source with
  | nil => exact .exhausted rfl
  | cons item source ih =>
    cases item with
    | ended => exact .ended rfl
    | failed fault =>
      rw [readSteadily]
      by_cases hf : fault.isTransient
      · rw [if_pos hf]
        exact ih.behind (by simp [marks, hf])
      · rw [if_neg hf]
        exact .failed fault (by simp [marks, hf])
    | data c =>
      rw [readSteadily]
      by_cases hc : c.remaining = 0
      · have hnil : c.rest = [] := List.eq_nil_of_length_eq_zero (c.length_rest.trans hc)
        rw [if_pos hc]
        exact ih.behind (by simp [marks, hnil])
      · rw [if_neg hc]
        exact read_data (Nat.pos_of_ne_zero hc) h0 source

theorem byte_injective : Function.Injective Mark.byte := by
  intro a b h
  cases h
  rfl

/-- A part of some bytes is bytes, and so is what follows it. -/
theorem bytes_of_append {bytes new : List UInt8} {tail : List Mark}
    (h : bytes.map .byte = new.map .byte ++ tail) :
    ∃ t, tail = t.map .byte ∧ bytes = new ++ t := by
  obtain ⟨s, t, rfl, hs, ht⟩ := List.map_eq_append_iff.mp h
  obtain rfl : s = new := List.map_injective_iff.mpr byte_injective hs
  exact ⟨t, ht.symm, rfl⟩

theorem byte_of_append {bytes new : List UInt8} {mark : Mark} {tail : List Mark}
    (h : bytes.map .byte = new.map .byte ++ mark :: tail) : ∃ b, mark = .byte b := by
  have hmem : mark ∈ bytes.map Mark.byte := by
    rw [h]
    exact List.mem_append_right _ List.mem_cons_self
  obtain ⟨b, -, hb⟩ := List.mem_map.mp hmem
  exact ⟨b, hb.symm⟩

end Source

/-! Writing. -/

namespace Sink

variable {sink : Sink}

/-- Whether a write goes on: it takes something, or fails in a way that is passed over. -/
def Step.Advances (passes : Fault → Bool) : Step → Prop
  | takes count => 0 < count
  | fails fault => passes fault

/-- Whether a stream takes everything in the end, in writes as short as they may be. -/
def Patient (passes : Fault → Bool) (sink : Sink) : Prop :=
  ∀ step ∈ sink.script, step.Advances passes

theorem writeRest_patient {passes : Fault → Bool} {script : List Step}
    (h : ∀ step ∈ script, step.Advances passes) (sink : Sink) (c : Cursor) :
    (sink.writeRest passes script c).1 = .ok () ∧
      (sink.writeRest passes script c).2.Patient passes := by
  induction script generalizing sink c with
  | nil =>
    rw [writeRest]
    by_cases h0 : c.remaining = 0
    · rw [if_pos h0]
      exact ⟨rfl, h⟩
    · rw [if_neg h0]
      exact ⟨rfl, h⟩
  | cons step script ih =>
    obtain ⟨hstep, hscript⟩ := List.forall_mem_cons.mp h
    rw [writeRest.eq_def]
    by_cases h0 : c.remaining = 0
    · simp only [h0, if_true, true_and]
      exact h
    · cases step with
      | fails fault =>
        have hf : passes fault := hstep
        simp only [h0, if_false, hf, if_true]
        exact ih hscript sink c
      | takes count =>
        have hcount : 0 < count := hstep
        have hk : min count c.remaining ≤ c.rest.length := by
          rw [c.length_rest]
          exact Nat.min_le_right _ _
        obtain ⟨⟨chunk, left⟩, ht⟩ := Option.isSome_iff_exists.mp (Cursor.take?_isSome_iff.mpr hk)
        simp only [h0, if_false, ht, Nat.ne_of_gt hcount]
        exact ih hscript _ left

theorem write_patient (h : sink.Patient Fault.isTransient) (bytes : ByteArray) :
    (sink.write bytes).1 = .ok () ∧ (sink.write bytes).2.Patient Fault.isTransient ∧
      (sink.write bytes).2.written.data.toList =
        sink.written.data.toList ++ bytes.data.toList := by
  obtain ⟨hok, hp⟩ := writeRest_patient h sink (.ofBytes bytes)
  obtain ⟨sent, -, hw, hall⟩ := write_written sink bytes
  refine ⟨hok, hp, ?_⟩
  rw [hw, hall.mp hok]

theorem push_patient (h : sink.Patient fun _ => false) (bytes : ByteArray) :
    (sink.push bytes).1 = .ok () ∧ (sink.push bytes).2.Patient (fun _ => false) ∧
      (sink.push bytes).2.written.data.toList =
        sink.written.data.toList ++ bytes.data.toList := by
  obtain ⟨hok, hp⟩ := writeRest_patient h sink (.ofBytes bytes)
  obtain ⟨sent, -, hw, hall⟩ := push_written sink bytes
  refine ⟨hok, hp, ?_⟩
  rw [hw, hall.mp hok]

end Sink

namespace Frame

open Wire (Message)

variable {α : Type} [Message α] {sink : Sink} {source : Source} {held : List UInt8}

/-- Writes messages one after another. -/
def writeAll : List α → Sink → List (Except ProtocolError Unit) × Sink
  | [], sink => ([], sink)
  | m :: ms, sink =>
    let (r, sink) := write m sink
    let (rs, sink) := writeAll ms sink
    (r :: rs, sink)

theorem encode_eq_ok {m : α} (h : (Message.encode m).size ≤ sizeLimit) :
    ∃ bytes, encode m = .ok bytes ∧
      bytes.data.toList = frame (Message.encode m).data.toList := by
  have hencode : encode m = .ok (header (Message.encode m).size ++ Message.encode m) := by
    rw [encode, ofBody, if_neg (Nat.not_lt.mpr h)]
  exact ⟨_, hencode, (ofBody_eq_ok hencode).2⟩

/-- An envelope that a frame was made of is found in it. -/
theorem decode_encode (sender : Envelope.Sender) {e : sender.Sent} {bytes : ByteArray}
    (h : encode e = .ok bytes) : decode bytes = .ok e := by
  have hlimit : sizeLimit = 16777216 := rfl
  have hsize := (ofBody_eq_ok h).1
  have hbody := body_ofBody h
  have hdecode := sender.decode_encode e (by omega)
  simp only [decode, hbody, decodeBody, hdecode, bind, Except.bind, Except.mapError]

theorem write_of_fits {m : α} (h : (Message.encode m).size ≤ sizeLimit)
    (hp : sink.Patient Fault.isTransient) :
    (write m sink).1 = .ok () ∧ (write m sink).2.Patient Fault.isTransient ∧
      (write m sink).2.written.data.toList =
        sink.written.data.toList ++ frame (Message.encode m).data.toList := by
  obtain ⟨bytes, hencode, hbytes⟩ := encode_eq_ok h
  obtain ⟨hok, hpatient, hwritten⟩ := Sink.write_patient hp bytes
  simp only [write, hencode]
  refine ⟨?_, hpatient, hwritten.trans (by rw [hbytes])⟩
  rw [hok]
  rfl

theorem encode_of_large {m : α} (h : sizeLimit < (Message.encode m).size) :
    encode m = .error (.tooLarge (min (Message.encode m).size 0xffffffff) sizeLimit) := by
  rw [encode, ofBody, if_pos h]

theorem write_of_large {m : α} (h : sizeLimit < (Message.encode m).size) (sink : Sink) :
    write m sink =
      (.error (.frame (.tooLarge (min (Message.encode m).size 0xffffffff) sizeLimit)), sink) := by
  simp only [write, encode_of_large h]

/-- A message is refused exactly when it is larger than the limit. -/
theorem refused_iff (m : α) (sink : Sink) :
    (∃ size limit, (write m sink).1 = .error (.frame (.tooLarge size limit))) ↔
      sizeLimit < (Message.encode m).size := by
  constructor
  · rintro ⟨size, limit, hr⟩
    by_contra hl
    obtain ⟨bytes, hencode, -⟩ := encode_eq_ok (Nat.le_of_not_lt hl)
    simp only [write, hencode] at hr
    cases hw : (sink.write bytes).1 with
    | ok done => simp [hw, Except.mapError] at hr
    | error fault => simp [hw, Except.mapError] at hr
  · intro hl
    exact ⟨_, _, congrArg Prod.fst (write_of_large hl sink)⟩

theorem writeAll_patient {ms : List α} (h : ∀ m ∈ ms, (Message.encode m).size ≤ sizeLimit)
    (hp : sink.Patient Fault.isTransient) :
    (writeAll ms sink).1 = ms.map (fun _ => .ok ()) ∧
      (writeAll ms sink).2.written.data.toList = sink.written.data.toList ++
        (ms.map fun m => frame (Message.encode m).data.toList).flatten := by
  induction ms generalizing sink with
  | nil => exact ⟨rfl, (List.append_nil _).symm⟩
  | cons m ms ih =>
    obtain ⟨hm, hms⟩ := List.forall_mem_cons.mp h
    obtain ⟨hok, hpatient, hwritten⟩ := write_of_fits hm hp
    obtain ⟨hoks, hall⟩ := ih hms hpatient
    constructor
    · simp only [writeAll, hok, hoks, List.map_cons]
    · simp only [writeAll, hall, hwritten, List.map_cons, List.flatten_cons, List.append_assoc]

/-! Reading. -/

namespace Reader

/-- Reads messages one after another. -/
def readTimes (α : Type) [Message α] :
    Nat → Reader → List (Except ProtocolError (Option α)) × Reader
  | 0, r => ([], r)
  | n + 1, r =>
    let (m, r) : Except ProtocolError (Option α) × Reader := r.read
    let (ms, r) := readTimes α n r
    (m :: ms, r)

/-- What comes of reading on when `held` is at hand of a frame. -/
inductive Reads (held : List UInt8) (source : Source) :
    Except ProtocolError (Option ByteArray) → Reader → Prop
  | frame {r : Reader} (new : List UInt8) (hm : source.marks = new.map .byte ++ r.source.marks)
      (body : ByteArray) (hb : held ++ new = Frame.frame body.data.toList)
      (hl : body.size ≤ sizeLimit) (ha : r.assembler.Holds []) :
      Reads held source (.ok (some body)) r
  | tooLarge {r : Reader} (new : List UInt8) (hm : source.marks = new.map .byte ++ r.source.marks)
      (ho : Oversized (held ++ new)) (ha : r.assembler.Holds []) :
      Reads held source (.error (.frame (.tooLarge (spelled (held ++ new)) sizeLimit))) r
  /-- The stream ends between frames. -/
  | exhausted {r : Reader} (hh : held = [])
      (hm : source.marks = [] ∧ r.source.marks = [] ∨ source.marks = .ended :: r.source.marks)
      (ha : r.assembler.Holds []) : Reads held source (.ok none) r
  /-- The stream ends within a frame. -/
  | cut {r : Reader} (new : List UInt8)
      (hm : source.marks = new.map .byte ∧ r.source.marks = [] ∨
        source.marks = new.map .byte ++ .ended :: r.source.marks)
      (hp : Pending (held ++ new)) (hh : held ++ new ≠ []) (ha : r.assembler.Holds []) :
      Reads held source
        (.error (.frame (.closed (lastPart (held ++ new)).1 (lastPart (held ++ new)).2))) r
  | failed {r : Reader} (new : List UInt8) (fault : Fault)
      (hm : source.marks = new.map .byte ++ .failed fault :: r.source.marks)
      (ha : r.assembler.Holds (held ++ new)) : Reads held source (.error (.transport fault)) r

theorem Reads.behind {rest : Source} {new : List UInt8} {r : Reader}
    {result : Except ProtocolError (Option ByteArray)} (h : Reads (held ++ new) rest result r)
    (hn : new ≠ []) (hs : source.marks = new.map .byte ++ rest.marks) :
    Reads held source result r := by
  cases h with
  | frame more hm body hb hl ha =>
    rw [List.append_assoc] at hb
    exact .frame (new ++ more) (by simp [hs, hm]) body hb hl ha
  | tooLarge more hm ho ha =>
    rw [List.append_assoc] at ho ⊢
    exact .tooLarge (new ++ more) (by simp [hs, hm]) ho ha
  | exhausted hh hm ha => exact absurd (List.append_eq_nil_iff.mp hh).2 hn
  | cut more hm hp hh ha =>
    rw [List.append_assoc] at hp hh ⊢
    refine .cut (new ++ more) ?_ hp hh ha
    rcases hm with ⟨hm, hr⟩ | hm
    · exact Or.inl ⟨by simp [hs, hm], hr⟩
    · exact Or.inr (by simp [hs, hm])
  | failed more fault hm ha =>
    rw [List.append_assoc] at ha
    exact .failed (new ++ more) fault (by simp [hs, hm]) ha

theorem reads_end {a : Assembler} {piece : ByteArray} {rest : Source} (h : a.Holds held)
    (h0 : piece.size = 0) (hh : held ≠ [])
    (hm : source.marks = [] ∧ rest.marks = [] ∨ source.marks = .ended :: rest.marks) :
    ∃ e b, a.feed piece = (.error e, b) ∧ Reads held source (.error (.frame e)) ⟨rest, b⟩ := by
  obtain ⟨he, hb⟩ := h.feed_end h0
  refine ⟨_, (a.feed piece).2, Prod.ext he rfl, ?_⟩
  have hcut : Reads held source
      (.error (.frame (.closed (lastPart (held ++ [])).1 (lastPart (held ++ [])).2)))
      ⟨rest, (a.feed piece).2⟩ :=
    .cut [] (by simpa using hm) (by simpa using h.pending) (by simpa using hh) hb
  simpa using hcut

/-- Reading goes on from the bytes that the assembler holds, up to the end of the frame, or of the
stream, or a failure. -/
theorem readBodyWithin_reads {fuel : Nat} {a : Assembler} (h : a.Holds held)
    (hf : source.weight < fuel) :
    Reads held source (readBodyWithin fuel ⟨source, a⟩).1 (readBodyWithin fuel ⟨source, a⟩).2 := by
  induction fuel generalizing source a held with
  | zero => omega
  | succ fuel ih =>
    have hsteady := source.readSteadily_steady h.unfilled
    have hidle := h.isIdle
    have hend (rest : Source) (hm : source.marks = [] ∧ rest.marks = [] ∨
        source.marks = .ended :: rest.marks) :
        source.readSteadily a.unfilled = (.ok .empty, rest) →
        Reads held source (readBodyWithin (fuel + 1) ⟨source, a⟩).1
          (readBodyWithin (fuel + 1) ⟨source, a⟩).2 := by
      intro hread
      by_cases hh : held = []
      · have ha : a.isIdle = true := hidle.mpr hh
        simp only [readBodyWithin, hread, ByteArray.size_empty, ha, decide_true, Bool.and_self,
          if_true]
        exact .exhausted hh hm (hh ▸ h)
      · have ha : ¬ a.isIdle = true := fun hi => hh (hidle.mp hi)
        obtain ⟨e, b, hfeed, hr⟩ := reads_end h ByteArray.size_empty hh hm
        simp only [readBodyWithin, hread, ha, Bool.and_false, Bool.false_eq_true, if_false, hfeed]
        exact hr
    generalize hread : source.readSteadily a.unfilled = result at hsteady
    obtain ⟨r, rest⟩ := result
    cases hsteady with
    | exhausted hm => exact hend [] (Or.inl ⟨hm, rfl⟩) hread
    | ended hm => exact hend rest (Or.inr hm) hread
    | failed fault hm =>
      simp only [readBodyWithin, hread]
      exact .failed [] fault hm (by simpa using h)
    | piece piece h0 hl hm hw =>
      have hne : piece.data.toList ≠ [] := by
        intro hn
        have hlen : piece.data.toList.length = piece.size := by simp
        rw [hn, List.length_nil] at hlen
        omega
      have hfed := h.feed h0 hl
      simp only [readBodyWithin, hread, Nat.ne_of_gt h0, decide_false, Bool.false_and,
        Bool.false_eq_true, if_false]
      generalize a.feed piece = fed at hfed ⊢
      obtain ⟨r, b⟩ := fed
      cases hfed with
      | more hb =>
        have hfuel : rest.weight < fuel := Nat.lt_of_lt_of_le hw (Nat.le_of_lt_succ hf)
        exact (ih hb hfuel).behind hne hm
      | complete body hs hl hb => exact .frame _ hm body hs hl hb
      | tooLarge ho hb => exact .tooLarge _ hm ho hb

/-- What reading meets between frames in a stream that gives `bytes` and then ends. -/
inductive Meets (bytes : List UInt8) : Except ProtocolError (Option ByteArray) → Reader → Prop
  | frame {r : Reader} (body : ByteArray) (rest : List UInt8)
      (hb : bytes = Frame.frame body.data.toList ++ rest) (hl : body.size ≤ sizeLimit)
      (hs : r.source.Gives rest) (ha : r.assembler.Holds []) : Meets bytes (.ok (some body)) r
  | tooLarge {r : Reader} (header rest : List UInt8) (hb : bytes = header ++ rest)
      (ho : Oversized header) :
      Meets bytes (.error (.frame (.tooLarge (spelled header) sizeLimit))) r
  | exhausted {r : Reader} (hb : bytes = []) (hs : r.source.Gives [])
      (ha : r.assembler.Holds []) : Meets bytes (.ok none) r
  | cut {r : Reader} (hp : Pending bytes) (hn : bytes ≠ []) :
      Meets bytes (.error (.frame (.closed (lastPart bytes).1 (lastPart bytes).2))) r

theorem Reads.meets {bytes : List UInt8} {r : Reader}
    {result : Except ProtocolError (Option ByteArray)} (h : Reads [] source result r)
    (hs : source.Gives bytes) : Meets bytes result r := by
  rw [Source.Gives] at hs
  cases h with
  | frame new hm body hb hl ha =>
    obtain ⟨rest, hrest, rfl⟩ := Source.bytes_of_append (hs.symm.trans hm)
    obtain rfl : new = Frame.frame body.data.toList := hb
    exact .frame body rest rfl hl hrest ha
  | tooLarge new hm ho ha =>
    obtain ⟨rest, -, rfl⟩ := Source.bytes_of_append (hs.symm.trans hm)
    exact .tooLarge new rest rfl ho
  | exhausted hh hm ha =>
    rcases hm with ⟨hm, hr⟩ | hm
    · exact .exhausted (List.map_eq_nil_iff.mp (hs.symm.trans hm)) hr ha
    · have hm : source.marks = ([] : List UInt8).map .byte ++ .ended :: r.source.marks := hm
      obtain ⟨b, hb⟩ := Source.byte_of_append (hs.symm.trans hm)
      cases hb
  | cut new hm hp hh ha =>
    rcases hm with ⟨hm, -⟩ | hm
    · obtain rfl := List.map_injective_iff.mpr Source.byte_injective (hs.symm.trans hm)
      exact .cut hp hh
    · obtain ⟨b, hb⟩ := Source.byte_of_append (hs.symm.trans hm)
      cases hb
  | failed new fault hm ha =>
    obtain ⟨b, hb⟩ := Source.byte_of_append (hs.symm.trans hm)
    cases hb

/-- Between frames, reading meets what the bytes to come start with. -/
theorem readBodyWithin_meets {r : Reader} {bytes : List UInt8} (h : r.assembler.Holds [])
    (hs : r.source.Gives bytes) :
    Meets bytes (r.readBodyWithin (r.source.weight + 1)).1
      (r.readBodyWithin (r.source.weight + 1)).2 :=
  (readBodyWithin_reads h (Nat.lt_succ_self r.source.weight)).meets hs

/-- Between frames, and with a frame to come, reading gives what its body holds. -/
theorem read_body {r : Reader} {body : ByteArray} {t : List UInt8} (h : r.assembler.Holds [])
    (hsize : body.size ≤ sizeLimit) (hs : r.source.Gives (Frame.frame body.data.toList ++ t)) :
    ∃ r' : Reader,
      (r.read : Except ProtocolError (Option α) × Reader) = ((decodeBody body).map some, r') ∧
        r'.assembler.Holds [] ∧ r'.source.Gives t := by
  have hmeets := readBodyWithin_meets h hs
  rw [read]
  generalize readBodyWithin (r.source.weight + 1) r = result at hmeets ⊢
  obtain ⟨body?, r'⟩ := result
  cases hmeets with
  | frame body' rest hb hl hr ha =>
    obtain ⟨rfl, rfl⟩ := frame_append_inj hsize hl hb
    exact ⟨r', rfl, ha, hr⟩
  | tooLarge header rest hb ho => exact absurd hb (frame_ne_oversized hsize ho)
  | exhausted hb hr ha => exact absurd (hb ▸ pending_nil) (not_pending_frame hsize t)
  | cut hp hn => exact absurd hp (not_pending_frame hsize t)

/-- Between frames, and with the frame of a message to come, reading gives that message. -/
theorem read_frame {r : Reader} {m : α} {t : List UInt8} (h : r.assembler.Holds [])
    (hsize : (Message.encode m).size ≤ sizeLimit)
    (hdecode : Wire.decode (Message.encode m) = .ok m)
    (hs : r.source.Gives (Frame.frame (Message.encode m).data.toList ++ t)) :
    ∃ r' : Reader, r.read = (.ok (some m), r') ∧ r'.assembler.Holds [] ∧ r'.source.Gives t := by
  have hbody : decodeBody (Message.encode m) = .ok m := by
    rw [decodeBody, hdecode]
    rfl
  obtain ⟨r', hread, ha, ht⟩ := read_body (α := α) h hsize hs
  rw [hbody] at hread
  exact ⟨r', hread, ha, ht⟩

/-- At the end of the stream reading gives nothing, and so it does from then on. -/
theorem read_end {r : Reader} (h : r.assembler.Holds []) (hs : r.source.Gives []) :
    ∃ r' : Reader, (r.read : Except ProtocolError (Option α) × Reader) = (.ok none, r') ∧
      r'.assembler.Holds [] ∧ r'.source.Gives [] := by
  have hmeets := readBodyWithin_meets h hs
  rw [read]
  generalize readBodyWithin (r.source.weight + 1) r = result at hmeets ⊢
  obtain ⟨body?, r'⟩ := result
  cases hmeets with
  | frame body rest hb hl hr ha => exact absurd (hb ▸ pending_nil) (not_pending_frame hl rest)
  | tooLarge header rest hb ho => exact absurd (hb ▸ pending_nil) (not_pending_oversized ho rest)
  | exhausted hb hr ha => exact ⟨r', rfl, ha, hr⟩
  | cut hp hn => exact absurd rfl hn

theorem readTimes_end {r : Reader} (h : r.assembler.Holds []) (hs : r.source.Gives []) (n : Nat) :
    (r.readTimes α n).1 = List.replicate n (.ok none) := by
  induction n generalizing r with
  | zero => rfl
  | succ n ih =>
    obtain ⟨r', hread, ha, hs'⟩ := read_end (α := α) h hs
    simp only [readTimes, hread, ih ha hs', List.replicate_succ]

/-- Reading gives the messages of the frames that are to come, and goes on behind them. -/
theorem readTimes_frames_append {r : Reader} {ms : List α} {t : List UInt8}
    (h : r.assembler.Holds []) (hsize : ∀ m ∈ ms, (Message.encode m).size ≤ sizeLimit)
    (hdecode : ∀ m ∈ ms, Wire.decode (Message.encode m) = .ok m)
    (hs : r.source.Gives
      ((ms.map fun m => Frame.frame (Message.encode m).data.toList).flatten ++ t)) :
    ∃ r' : Reader, r'.assembler.Holds [] ∧ r'.source.Gives t ∧
      ∀ later, (r.readTimes α (ms.length + later)).1 =
        ms.map (fun m => .ok (some m)) ++ (r'.readTimes α later).1 := by
  induction ms generalizing r with
  | nil =>
    refine ⟨r, h, hs, ?_⟩
    intro later
    rw [List.length_nil, Nat.zero_add]
    rfl
  | cons m ms ih =>
    obtain ⟨hm, hms⟩ := List.forall_mem_cons.mp hsize
    obtain ⟨hd, hds⟩ := List.forall_mem_cons.mp hdecode
    rw [List.map_cons, List.flatten_cons, List.append_assoc] at hs
    obtain ⟨q, hread, ha, hq⟩ := read_frame h hm hd hs
    obtain ⟨r', ha', ht, hrest⟩ := ih ha hms hds hq
    refine ⟨r', ha', ht, ?_⟩
    intro later
    have hlen : (m :: ms).length + later = (ms.length + later) + 1 := by
      simp only [List.length_cons]
      omega
    rw [hlen]
    simp only [readTimes, hread, hrest later, List.map_cons, List.cons_append]

/-- Reading gives the messages of all frames that are to come, and nothing from then on. -/
theorem readTimes_frames {r : Reader} {ms : List α} (h : r.assembler.Holds [])
    (hsize : ∀ m ∈ ms, (Message.encode m).size ≤ sizeLimit)
    (hdecode : ∀ m ∈ ms, Wire.decode (Message.encode m) = .ok m)
    (hs : r.source.Gives (ms.map fun m => Frame.frame (Message.encode m).data.toList).flatten)
    (later : Nat) :
    (r.readTimes α (ms.length + later)).1 =
      ms.map (fun m => .ok (some m)) ++ List.replicate later (.ok none) := by
  obtain ⟨r', ha, hend, hrest⟩ :=
    readTimes_frames_append h hsize hdecode (t := []) (by rwa [List.append_nil])
  rw [hrest later, readTimes_end ha hend later]

end Reader

open Envelope (Sender)

/-- Envelopes that fit into frames are all written, each behind its length, however short the writes
are; and however what was written is cut into reads, reading gives the same envelopes in the same
order, and nothing from then on. An envelope is refused exactly when it is larger than the limit,
and then nothing is written. -/
theorem readTimes_writeAll (sender : Sender) (es : List sender.Sent) (sink : Sink) (source : Source)
    (later : Nat) (hsize : ∀ e ∈ es, (Message.encode e).size ≤ sizeLimit)
    (hp : sink.Patient Fault.isTransient)
    (hsource : source.Gives
      ((writeAll es sink).2.written.data.toList.drop sink.written.data.toList.length)) :
    (writeAll es sink).1 = es.map (fun _ => .ok ()) ∧
      (writeAll es sink).2.written.data.toList = sink.written.data.toList ++
        (es.map fun e =>
          (header (sender.layout e).length).data.toList ++ sender.layout e).flatten ∧
      (Reader.readTimes sender.Sent (es.length + later) ⟨source, {}⟩).1 =
        es.map (fun e => .ok (some e)) ++ List.replicate later (.ok none) ∧
      (∀ n, n ≤ sizeLimit →
        (header n).data.toList.length = 4 ∧ spelled (header n).data.toList = n) ∧
      (∀ e : sender.Sent, (Message.encode e).data.toList = sender.layout e) ∧
      ∀ (e : sender.Sent) (sink : Sink),
        ((∃ size limit, (write e sink).1 = .error (.frame (.tooLarge size limit))) ↔
          sizeLimit < (Message.encode e).size) ∧
        (sizeLimit < (Message.encode e).size → (write e sink).2 = sink) := by
  obtain ⟨hok, hwritten⟩ := writeAll_patient hsize hp
  have hlimit : sizeLimit = 16777216 := rfl
  have hdecode : ∀ e ∈ es, Wire.decode (Message.encode e) = .ok e := by
    intro e he
    have hfits := hsize e he
    exact sender.decode_encode e (by omega)
  refine ⟨hok, ?_, ?_, ?_, sender.encode_eq_layout, ?_⟩
  · simp only [hwritten, frame, sender.encode_eq_layout]
  · rw [hwritten, List.drop_left] at hsource
    exact Reader.readTimes_frames Assembler.holds_initial hsize hdecode hsource later
  · intro n hn
    exact ⟨length_header n, spelled_header hn⟩
  · intro e sink
    refine ⟨refused_iff e sink, ?_⟩
    intro hl
    rw [write_of_large hl]

/-- A negative status, no field at all, and texts beyond ASCII, through writes and reads that stop
within headers and bodies and that fail in between. -/
theorem readTimes_writeAll_piecemeal :
    let es : List Envelope.Server :=
      [⟨-2, "é", .empty⟩, {}, ⟨2000, "", ⟨#[123, 125]⟩⟩]
    let interrupted : Fault := ⟨.interrupted, ""⟩
    let sink : Sink := { script := [.takes 2, .fails interrupted, .takes 5, .takes 1, .takes 90] }
    let source : Source := [.data (.ofBytes ⟨#[0, 0, 0]⟩),
      .data (.ofBytes ⟨#[15, 8, 254, 255, 255, 255]⟩), .failed interrupted,
      .data (.ofBytes ⟨#[255, 255, 255, 255, 255, 1, 18, 2, 195, 169, 0, 0, 0, 0, 0, 0, 0]⟩),
      .data (.ofBytes ⟨#[7, 8, 208, 15, 26, 2, 123, 125]⟩)]
    sink.Patient Fault.isTransient ∧ source.Gives (writeAll es sink).2.written.data.toList ∧
      (Reader.readTimes Envelope.Server 5 ⟨source, {}⟩).1 =
        es.map (fun e => .ok (some e)) ++ [.ok none, .ok none] := by
  intro es interrupted sink source
  have hsize : ∀ e ∈ es, (Message.encode e).size ≤ sizeLimit := by
    simp only [es, List.forall_mem_cons]
    refine ⟨?_, ?_, ?_, List.forall_mem_nil _⟩ <;> cbv
  have hp : sink.Patient Fault.isTransient := by
    simp only [Sink.Patient, sink, List.forall_mem_cons]
    exact ⟨Nat.succ_pos 1, rfl, Nat.succ_pos 4, Nat.succ_pos 0, Nat.succ_pos 89,
      List.forall_mem_nil _⟩
  have hsource : source.Gives (writeAll es sink).2.written.data.toList := by
    simp only [Source.Gives, source, es, sink, interrupted]
    cbv
  obtain ⟨-, -, hread, -⟩ := readTimes_writeAll .server es sink source 2 hsize hp hsource
  exact ⟨hp, hsource, hread⟩

end Frame
end Gallows
