import Gallows.Proofs.Frame.Streams

/-!
Three ways to the message of a frame: from bytes in memory, from a stream of frames, and from the
stream behind a header that has been read. They agree on what the frame holds and on what is wrong
with it, wherever the bytes end and however they are cut into reads.
-/
namespace Gallows.Frame
open Wire (Message)

variable {α : Type} [Message α] {d got : ByteArray} {bytes : List UInt8} {source : Source}
  {size fuel : Nat}

theorem toList_extract (d : ByteArray) (m n : Nat) :
    (d.extract m n).data.toList = (d.data.toList.drop m).take (n - m) := by
  simp [List.extract_eq_take_drop]

theorem announced_extract (d : ByteArray) :
    announced (d.extract 0 headerSize) = spelled (d.data.toList.take headerSize) := by
  rw [announced, toList_extract, List.drop_zero, Nat.sub_zero]

/-- The outcomes of decoding bytes in memory, in the order in which they are looked for. -/
theorem decode_eq (d : ByteArray) : (decode d : Except ProtocolError α) =
    let size := announced (d.extract 0 headerSize)
    if d.size < headerSize then .error (.frame (.incomplete headerSize d.size))
    else if sizeLimit < size then .error (.frame (.tooLarge size sizeLimit))
    else if d.size < headerSize + size then .error (.frame (.incomplete (headerSize + size) d.size))
    else decodeBody (d.extract headerSize (headerSize + size)) := by
  by_cases hshort : d.size < headerSize
  · simp [decode, Frame.body, hshort, bind, Except.bind, Except.mapError, throw, throwThe,
      MonadExceptOf.throw]
  · by_cases hlarge : sizeLimit < announced (d.extract 0 headerSize)
    · simp [decode, Frame.body, checkSize, hshort, hlarge, bind, Except.bind, Except.mapError]
    · by_cases hcut : d.size < headerSize + announced (d.extract 0 headerSize)
      · simp [decode, Frame.body, checkSize, hshort, hlarge, hcut, bind, Except.bind,
          Except.mapError, throw, throwThe, MonadExceptOf.throw]
      · simp [decode, Frame.body, checkSize, hshort, hlarge, hcut, bind, Except.bind,
          Except.mapError, pure, Except.pure]

/-- Reading on behind `got` bytes of a body: they are followed by the next bytes of the stream, or
the stream ends before. -/
theorem readFully_gives (hs : source.Gives bytes) (hf : source.weight < fuel)
    (hg : got.size ≤ size) :
    if size ≤ got.size + bytes.length then
      ∃ rest, readFully size fuel got source =
          (.ok (got.data.toList ++ bytes.take (size - got.size)).toByteArray, rest) ∧
        rest.Gives (bytes.drop (size - got.size))
    else
      (readFully size fuel got source).1 =
        .error (.frame (.closed size (got.size + bytes.length))) := by
  induction fuel generalizing source bytes got with
  | zero => omega
  | succ fuel ih =>
    rw [readFully]
    by_cases hfull : size ≤ got.size
    · have hzero : size - got.size = 0 := Nat.sub_eq_zero_of_le hfull
      have hall : size ≤ got.size + bytes.length := by omega
      simp only [if_pos hall, if_pos hfull, hzero, List.take_zero, List.append_nil, List.drop_zero]
      exact ⟨source, by rw [toByteArray_toList], hs⟩
    · rw [if_neg hfull]
      have hsteady := source.readSteadily_steady (Nat.sub_pos_of_lt (Nat.lt_of_not_le hfull))
      generalize source.readSteadily (size - got.size) = result at hsteady ⊢
      obtain ⟨r, rest⟩ := result
      rw [Source.Gives] at hs
      cases hsteady with
      | failed fault hm =>
        obtain ⟨b, hb⟩ := @Source.byte_of_append bytes [] _ _ (hs.symm.trans hm)
        cases hb
      | ended hm =>
        obtain ⟨b, hb⟩ := @Source.byte_of_append bytes [] _ _ (hs.symm.trans hm)
        cases hb
      | exhausted hm =>
        obtain rfl : bytes = [] := List.map_eq_nil_iff.mp (hs.symm.trans hm)
        simp only [List.length_nil, Nat.add_zero, if_neg hfull, ByteArray.size_empty, if_true]
      | piece piece h0 hl hm hw =>
        obtain ⟨left, hleft, rfl⟩ := Source.bytes_of_append (hs.symm.trans hm)
        have hsize : (got ++ piece).size = got.size + piece.size := ByteArray.size_append
        have hlen : piece.data.toList.length = piece.size := by simp
        have hmore : (got ++ piece).size ≤ size := by omega
        have hrest := ih hleft (by omega) hmore
        have hcount : got.size + (piece.data.toList ++ left).length =
            (got ++ piece).size + left.length := by
          rw [List.length_append]
          omega
        have hlacking :
            size - got.size = piece.data.toList.length + (size - (got ++ piece).size) := by
          omega
        rw [hcount, hlacking, List.take_length_add_append, List.drop_length_add_append]
        simpa [Nat.ne_of_gt h0] using hrest

/-- A body of a size that is no more than the limit is what comes of the stream, or the stream ends
within it. -/
theorem readBody_gives (hl : size ≤ sizeLimit) (hs : source.Gives bytes) :
    if size ≤ bytes.length then
      ∃ rest, readBody size source =
          ((decodeBody (bytes.take size).toByteArray : Except ProtocolError α), rest) ∧
        rest.Gives (bytes.drop size)
    else
      (readBody size source : Except ProtocolError α × Source).1 =
        .error (.frame (.closed size bytes.length)) := by
  have hempty : ByteArray.empty.size ≤ size := Nat.zero_le size
  have hfully := readFully_gives hs (Nat.lt_succ_self source.weight) hempty
  simp only [ByteArray.size_empty, Nat.zero_add, Nat.sub_zero] at hfully
  rw [readBody, checkSize, if_neg (Nat.not_lt.mpr hl)]
  by_cases hall : size ≤ bytes.length
  · rw [if_pos hall] at hfully ⊢
    obtain ⟨rest, hread, hrest⟩ := hfully
    refine ⟨rest, ?_, hrest⟩
    simp only [hread]
    rfl
  · rw [if_neg hall] at hfully ⊢
    simp only [hfully]
    rfl

namespace Reader

variable {r : Reader}

theorem read_pending (h : r.assembler.Holds []) (hs : r.source.Gives bytes) (hp : Pending bytes) :
    (r.read : Except ProtocolError (Option α) × Reader).1 =
      if bytes = [] then .ok none
      else .error (.frame (.closed (lastPart bytes).1 (lastPart bytes).2)) := by
  have hmeets := readBodyWithin_meets h hs
  rw [read]
  generalize readBodyWithin (r.source.weight + 1) r = result at hmeets ⊢
  obtain ⟨body?, r'⟩ := result
  cases hmeets with
  | frame body rest hb hl hr ha => exact absurd (hb ▸ hp) (not_pending_frame hl rest)
  | tooLarge header rest hb ho => exact absurd (hb ▸ hp) (not_pending_oversized ho rest)
  | exhausted hb hr ha => rw [if_pos hb]
  | cut hp hn => rw [if_neg hn]

theorem read_oversized {header rest : List UInt8} (h : r.assembler.Holds [])
    (hs : r.source.Gives (header ++ rest)) (ho : Oversized header) :
    (r.read : Except ProtocolError (Option α) × Reader).1 =
      .error (.frame (.tooLarge (spelled header) sizeLimit)) := by
  have hmeets := readBodyWithin_meets h hs
  rw [read]
  generalize readBodyWithin (r.source.weight + 1) r = result at hmeets ⊢
  obtain ⟨body?, r'⟩ := result
  cases hmeets with
  | frame body rest' hb hl hr ha => exact absurd hb.symm (frame_ne_oversized hl ho)
  | tooLarge header' rest' hb ho' =>
    obtain ⟨rfl, -⟩ := List.append_inj hb (ho.1.trans ho'.1.symm)
    rfl
  | exhausted hb hr ha => exact absurd (hb ▸ pending_nil) (not_pending_oversized ho rest)
  | cut hp hn => exact absurd hp (not_pending_oversized ho rest)

end Reader

/-! The three ways side by side, by what the bytes have of a frame. -/

section Agreement

variable {behind : Source} (hs : source.Gives d.data.toList)
  (hb : behind.Gives (d.data.toList.drop headerSize))

include hs in
theorem short_agree (h : d.size < headerSize) :
    (decode d : Except ProtocolError α) = .error (.frame (.incomplete headerSize d.size)) ∧
      (Reader.read ⟨source, {}⟩ : Except ProtocolError (Option α) × Reader).1 =
        if d.size = 0 then .ok none else .error (.frame (.closed headerSize d.size)) := by
  have hlen : d.data.toList.length = d.size := by simp
  have hnil : d.data.toList = [] ↔ d.size = 0 := by rw [← List.length_eq_zero_iff, hlen]
  have hp : d.data.toList.length < headerSize := by rwa [hlen]
  refine ⟨by simp [decode_eq, h], ?_⟩
  have hread := Reader.read_pending (α := α) (r := ⟨source, {}⟩) Assembler.holds_initial hs
    (Or.inl hp)
  simpa only [lastPart_header hp, hlen, hnil] using hread

include hs in
theorem tooLarge_agree (h : headerSize ≤ d.size)
    (hl : sizeLimit < announced (d.extract 0 headerSize)) :
    let size := announced (d.extract 0 headerSize)
    (decode d : Except ProtocolError α) = .error (.frame (.tooLarge size sizeLimit)) ∧
      (Reader.read ⟨source, {}⟩ : Except ProtocolError (Option α) × Reader).1 =
        .error (.frame (.tooLarge size sizeLimit)) ∧
      (readBody size behind : Except ProtocolError α × Source).1 =
        .error (.frame (.tooLarge size sizeLimit)) := by
  have hlen : (d.data.toList.take headerSize).length = headerSize :=
    List.length_take_of_le (by simpa using h)
  refine ⟨by simp [decode_eq, Nat.not_lt.mpr h, hl], ?_, by simp [readBody, checkSize, hl]⟩
  rw [announced_extract] at hl ⊢
  rw [← List.take_append_drop headerSize d.data.toList] at hs
  exact Reader.read_oversized Assembler.holds_initial hs ⟨hlen, hl⟩

include hs hb in
theorem whole_agree (hl : announced (d.extract 0 headerSize) ≤ sizeLimit)
    (h : headerSize + announced (d.extract 0 headerSize) ≤ d.size) :
    let size := announced (d.extract 0 headerSize)
    let whole : Except ProtocolError α := decode d
    let first : Except ProtocolError (Option α) × Reader := Reader.read ⟨source, {}⟩
    let body : Except ProtocolError α × Source := readBody size behind
    whole = (Wire.decode (d.extract headerSize (headerSize + size))).mapError .envelope ∧
      first.1 = whole.map some ∧ body.1 = whole ∧
      first.2.source.Gives (d.data.toList.drop (headerSize + size)) ∧
      first.2.assembler.isIdle ∧ body.2.Gives (d.data.toList.drop (headerSize + size)) := by
  intro size whole first body
  have hbytes : (d.data.toList.drop headerSize).take size =
      (d.extract headerSize (headerSize + size)).data.toList := by
    rw [toList_extract, Nat.add_sub_cancel_left]
  have hspelled : spelled (d.data.toList.take headerSize) = size := (announced_extract d).symm
  have hwhole : whole = decodeBody (d.extract headerSize (headerSize + size)) := by
    have hlong : ¬ d.size < headerSize := by omega
    simp only [whole, decode_eq, if_neg hlong, if_neg (Nat.not_lt.mpr hl), if_neg (Nat.not_lt.mpr h)]
    rfl
  have hframe := frame_append_drop (s := d.data.toList) (by simpa [hspelled] using h)
  have hfits : (d.extract headerSize (headerSize + size)).size ≤ sizeLimit := by
    rw [ByteArray.size_extract]
    omega
  rw [hspelled, hbytes] at hframe
  rw [← hframe] at hs
  obtain ⟨r, hread, ha, hr⟩ := Reader.read_body (α := α) (r := ⟨source, {}⟩)
    Assembler.holds_initial hfits hs
  have hleft := readBody_gives (α := α) hl hb
  have hall : size ≤ (d.data.toList.drop headerSize).length := by
    rw [List.length_drop]
    simp
    omega
  rw [if_pos hall, hbytes, toByteArray_toList, List.drop_drop, ← hwhole] at hleft
  rw [← hwhole] at hread
  obtain ⟨left, hbody, hgives⟩ := hleft
  have hfirst : first = (whole.map some, r) := hread
  rw [hfirst]
  exact ⟨hwhole, rfl, congrArg Prod.fst hbody, hr, ha.isIdle.mpr rfl,
    (congrArg Prod.snd hbody) ▸ hgives⟩

include hs hb in
theorem cut_agree (h : headerSize ≤ d.size)
    (hl : announced (d.extract 0 headerSize) ≤ sizeLimit)
    (hc : d.size < headerSize + announced (d.extract 0 headerSize)) :
    let size := announced (d.extract 0 headerSize)
    (decode d : Except ProtocolError α) =
        .error (.frame (.incomplete (headerSize + size) d.size)) ∧
      (Reader.read ⟨source, {}⟩ : Except ProtocolError (Option α) × Reader).1 =
        .error (.frame (.closed size (d.size - headerSize))) ∧
      (readBody size behind : Except ProtocolError α × Source).1 =
        .error (.frame (.closed size (d.size - headerSize))) := by
  intro size
  have hlen : d.data.toList.length = d.size := by simp
  have hspelled : spelled (d.data.toList.take headerSize) = size := (announced_extract d).symm
  refine ⟨?_, ?_, ?_⟩
  · simp only [decode_eq, if_neg (Nat.not_lt.mpr h), if_neg (Nat.not_lt.mpr hl), if_pos hc]
    rfl
  · have hne : d.data.toList ≠ [] := by
      intro hn
      rw [hn] at hlen
      simp [headerSize] at hlen h
      omega
    have hlong : ¬ d.data.toList.length < headerSize := by omega
    have hp : Pending d.data.toList := by
      refine Or.inr ?_
      rw [hspelled, hlen]
      exact ⟨hl, hc⟩
    have hread := Reader.read_pending (α := α) (r := ⟨source, {}⟩) Assembler.holds_initial hs hp
    simpa only [if_neg hne, lastPart_body (Nat.le_of_not_lt hlong), hspelled, hlen] using hread
  · have hread := readBody_gives (α := α) hl hb
    have hfew : ¬ size ≤ (d.data.toList.drop headerSize).length := by
      rw [List.length_drop]
      omega
    rwa [if_neg hfew, List.length_drop, hlen] at hread

end Agreement

/-- What is wrong with a message is not what is wrong with its frame. -/
theorem decodeBody_ne (body : ByteArray) (e : Error) :
    (decodeBody body : Except ProtocolError α) ≠ .error (.frame e) ∧
      (decodeBody body : Except ProtocolError α).map some ≠ .error (.frame e) := by
  rw [decodeBody]
  cases Wire.decode (α := α) body <;> simp [Except.mapError, Except.map]

/-- Three ways to the frame that bytes start with: from memory, from a stream of the bytes, and from
a stream of what follows the header, each in whatever pieces. -/
theorem decoders_agree (d : ByteArray) (source behind : Source)
    (hs : source.Gives d.data.toList) (hb : behind.Gives (d.data.toList.drop headerSize)) :
    let size := announced (d.extract 0 headerSize)
    let whole : Except ProtocolError α := decode d
    let first : Except ProtocolError (Option α) × Reader := Reader.read ⟨source, {}⟩
    let body : Except ProtocolError α × Source := readBody size behind
    (d.size < headerSize →
      whole = .error (.frame (.incomplete headerSize d.size)) ∧
        first.1 = if d.size = 0 then .ok none
          else .error (.frame (.closed headerSize d.size))) ∧
      (headerSize ≤ d.size → sizeLimit < size →
        whole = .error (.frame (.tooLarge size sizeLimit)) ∧
          first.1 = .error (.frame (.tooLarge size sizeLimit)) ∧
          body.1 = .error (.frame (.tooLarge size sizeLimit))) ∧
      (size ≤ sizeLimit → headerSize + size ≤ d.size →
        whole = (Wire.decode (d.extract headerSize (headerSize + size))).mapError .envelope ∧
          first.1 = whole.map some ∧ body.1 = whole ∧
          first.2.source.Gives (d.data.toList.drop (headerSize + size)) ∧
          first.2.assembler.isIdle ∧
          body.2.Gives (d.data.toList.drop (headerSize + size))) ∧
      (headerSize ≤ d.size → size ≤ sizeLimit → d.size < headerSize + size →
        whole = .error (.frame (.incomplete (headerSize + size) d.size)) ∧
          first.1 = .error (.frame (.closed size (d.size - headerSize))) ∧
          body.1 = .error (.frame (.closed size (d.size - headerSize)))) ∧
      (headerSize ≤ d.size →
        (whole = .error (.frame (.incomplete (headerSize + size) d.size)) ↔
          first.1 = .error (.frame (.closed size (d.size - headerSize)))) ∧
        (whole = .error (.frame (.incomplete (headerSize + size) d.size)) ↔
          body.1 = .error (.frame (.closed size (d.size - headerSize))))) := by
  intro size whole first body
  refine ⟨short_agree hs, tooLarge_agree hs, whole_agree hs hb, cut_agree hs hb, ?_⟩
  intro h
  rcases Nat.lt_or_ge sizeLimit size with hl | hl
  · obtain ⟨hwhole, hfirst, hbody⟩ : _ ∧ _ ∧ body.1 = _ := tooLarge_agree hs h hl
    simp [whole, first, body, size, hwhole, hfirst, hbody]
  · rcases Nat.lt_or_ge d.size (headerSize + size) with hc | hc
    · obtain ⟨hwhole, hfirst, hbody⟩ := cut_agree (α := α) hs hb h hl hc
      simp [whole, first, body, size, hwhole, hfirst, hbody]
    · obtain ⟨hwhole, hfirst, hbody, -⟩ := whole_agree (α := α) hs hb hl hc
      have hne := decodeBody_ne (α := α) (d.extract headerSize (headerSize + size))
      rw [decodeBody, ← hwhole] at hne
      have hincomplete := (hne (.incomplete (headerSize + size) d.size)).1
      have hclosed := hne (.closed size (d.size - headerSize))
      rw [← hfirst] at hclosed
      exact ⟨iff_of_false hincomplete hclosed.2, iff_of_false hincomplete (hbody ▸ hclosed.1)⟩

/-- A frame of two bytes and two bytes behind it, in reads that end within the header and within the
body, one of them interrupted. -/
theorem decoders_agree_trailing :
    let d : ByteArray := ⟨#[0, 0, 0, 2, 8, 5, 9, 9]⟩
    let interrupted : Fault := ⟨.interrupted, ""⟩
    let source : Source := [.data (.ofBytes ⟨#[0, 0, 0]⟩), .failed interrupted,
      .data (.ofBytes ⟨#[2, 8]⟩), .data (.ofBytes ⟨#[5, 9, 9]⟩)]
    let behind : Source := [.data (.ofBytes ⟨#[8]⟩), .data (.ofBytes ⟨#[5, 9]⟩),
      .data (.ofBytes ⟨#[9]⟩)]
    source.Gives d.data.toList ∧ behind.Gives (d.data.toList.drop headerSize) ∧
      (decode d : Except ProtocolError Envelope.Server) = .ok { status := 5 } ∧
      (Reader.read ⟨source, {}⟩ : Except ProtocolError (Option Envelope.Server) × Reader).1 =
        .ok (some { status := 5 }) ∧
      (readBody 2 behind : Except ProtocolError Envelope.Server × Source).1 =
        .ok { status := 5 } := by
  intro d interrupted source behind
  have hs : source.Gives d.data.toList := by
    simp only [Source.Gives, source, interrupted, d]
    cbv
  have hb : behind.Gives (d.data.toList.drop headerSize) := by
    simp only [Source.Gives, behind, d]
    cbv
  have hsize : announced (d.extract 0 headerSize) = 2 := by
    simp only [d]
    cbv
  have hdecode : (Wire.decode (d.extract headerSize (headerSize + 2)) :
      Except Wire.Error Envelope.Server) = .ok { status := 5 } := by
    simp only [d]
    cbv
  have hwhole := (decoders_agree (α := Envelope.Server) d source behind hs hb).2.2.1
  rw [hsize] at hwhole
  obtain ⟨hmemory, hfirst, hbody, -⟩ := hwhole (by decide) (by decide)
  rw [hdecode] at hmemory
  rw [hmemory] at hfirst hbody
  exact ⟨hs, hb, hmemory, hfirst, hbody⟩

end Gallows.Frame
