import Gallows.Frame.Assembler
import Gallows.Proofs.Frame.Grammar

/-!
An assembler against the splitting of the stream that it reads. What it holds is a function of the
unfinished part of the stream, up to bytes in its header's buffer that do not count, and every piece
takes that function from the stream before to the stream after.
-/
namespace Gallows.Frame

theorem toByteArray_toList (bytes : ByteArray) : bytes.data.toList.toByteArray = bytes := by
  apply ByteArray.ext
  simp

theorem zeros_eq (n : Nat) : zeros n = (List.replicate n 0).toByteArray := by
  induction n using Nat.strong_induction_on with
  | h n ih =>
    rw [zeros]
    by_cases hn : n = 0
    · simp [hn]
    · have hh := ih (n / 2) (by omega)
      apply ByteArray.ext
      by_cases he : n % 2 = 0
      · have hs : List.replicate n (0 : UInt8) =
            List.replicate (n / 2) 0 ++ List.replicate (n / 2) 0 := by
          rw [← List.replicate_add]
          congr 1
          omega
        simp [hn, he, hh, hs]
      · have hs : List.replicate n (0 : UInt8) =
            List.replicate (n / 2) 0 ++ List.replicate (n / 2) 0 ++ [0] := by
          rw [← List.replicate_add, ← List.replicate_succ']
          congr 1
          omega
        simp [hn, he, hh, hs, ByteArray.push]

/-- Writing over the part of a buffer behind `s`. -/
theorem copySlice_append (piece : ByteArray) (s u : List UInt8) :
    piece.copySlice 0 (s ++ u).toByteArray s.length piece.size =
      (s ++ piece.data.toList ++ u.drop piece.size).toByteArray := by
  apply ByteArray.ext
  apply Array.toList_inj.mp
  simp [ByteArray.copySlice_eq_append, List.extract_eq_take_drop]
  omega

namespace Assembler

variable {stale s t : List UInt8} {piece : ByteArray} {a b : Assembler}

/-- The assembler that holds the bytes `s` of an unfinished frame. The part of the header's buffer
that is not filled has what `stale` has there. -/
def holding (stale s : List UInt8) : Assembler :=
  if s.length < headerSize then
    { header := (s ++ stale.drop s.length).toByteArray, headerFilled := s.length }
  else
    let lacking := headerSize + spelled (s.take headerSize) - s.length
    { phase := .awaitingBody
      header := (s.take headerSize).toByteArray
      headerFilled := headerSize
      body := (s.drop headerSize ++ List.replicate lacking 0).toByteArray
      bodyFilled := s.length - headerSize }

/-- What a piece completes. -/
def completed : Except Error (Option ByteArray) → List (Except Error (List UInt8))
  | .ok none => []
  | .ok (some body) => [.ok body.data.toList]
  | .error e => [.error e]

/-- The header of what came out of a stream. -/
def headerOf : Except Error (List UInt8) → List UInt8
  | .ok body => (Frame.header body.length).data.toList
  | .error (.tooLarge size _) => (Frame.header size).data.toList
  | .error _ => []

/-- The last header of a stream that gave `rs`, or else `stale`. -/
def lastHeader (stale : List UInt8) (rs : List (Except Error (List UInt8))) : List UInt8 :=
  rs.foldl (fun _ r => headerOf r) stale

theorem holding_header (h : s.length < headerSize) : holding stale s =
    ⟨.awaitingHeader, (s ++ stale.drop s.length).toByteArray, s.length, .empty, 0⟩ := by
  rw [holding, if_pos h]

theorem holding_body (h : headerSize ≤ s.length) : holding stale s =
    ⟨.awaitingBody, (s.take headerSize).toByteArray, headerSize, (s.drop headerSize ++
      List.replicate (headerSize + spelled (s.take headerSize) - s.length) 0).toByteArray,
      s.length - headerSize⟩ := by
  rw [holding, if_neg (Nat.not_lt.mpr h)]

theorem holding_nil (stale : List UInt8) :
    holding stale [] = ⟨.awaitingHeader, stale.toByteArray, 0, .empty, 0⟩ := by
  rw [holding_header (by decide)]
  simp

theorem initial_eq_holding : ({} : Assembler) = holding (List.replicate headerSize 0) [] := by
  rw [holding_nil]
  simp [zeros_eq]

theorem buffered_holding (stale s : List UInt8) : (holding stale s).buffered = s.length := by
  by_cases h : s.length < headerSize
  · simp [holding_header h, buffered]
  · simp [holding_body (Nat.le_of_not_lt h), buffered]
    omega

theorem isIdle_holding (stale s : List UInt8) : (holding stale s).isIdle ↔ s = [] := by
  by_cases h : s.length < headerSize
  · simp [holding_header h, isIdle]
  · have hs : s ≠ [] := by
      intro he
      simp [he, headerSize] at h
    simp [holding_body (Nat.le_of_not_lt h), isIdle, hs]

theorem phase_holding (stale s : List UInt8) : (holding stale s).phase =
    if s.length < headerSize then .awaitingHeader else .awaitingBody := by
  by_cases h : s.length < headerSize
  · rw [holding_header h, if_pos h]
  · rw [holding_body (Nat.le_of_not_lt h), if_neg h]

/-- The room behind `s` is what its header, or its body, lacks. -/
theorem unfilled_holding (h : stale.length = headerSize) : (holding stale s).unfilled =
    if s.length < headerSize then headerSize - s.length
    else headerSize + spelled (s.take headerSize) - s.length := by
  by_cases hs : s.length < headerSize
  · simp [holding_header hs, unfilled, hs, h]
  · simp only [holding_body (Nat.le_of_not_lt hs), unfilled, hs, if_false, List.size_toByteArray,
      List.length_append, List.length_drop, List.length_replicate]
    omega

theorem unfilled_pos (h : stale.length = headerSize) (hs : Pending s) :
    0 < (holding stale s).unfilled := by
  rw [unfilled_holding h]
  rcases hs with hs | ⟨-, hs⟩ <;> split <;> omega

theorem progress_holding (stale : List UInt8) (h : Pending s) :
    (holding stale s).progress = lastPart s := by
  by_cases hs : s.length < headerSize
  · simp [holding_header hs, progress, lastPart_header hs]
  · have hl := (h.resolve_left hs).2
    simp only [holding_body (Nat.le_of_not_lt hs), progress, lastPart_body (Nat.le_of_not_lt hs),
      List.size_toByteArray, List.length_append, List.length_drop, List.length_replicate]
    congr 1
    omega

theorem length_headerOf_split (h : stale.length = headerSize) (s : List UInt8) :
    (lastHeader stale (split s).1).length = headerSize := by
  induction s using split_induction generalizing stale with
  | pending s hs => simpa [split_pending hs, lastHeader] using h
  | tooLarge s hs hl ih =>
    rw [split_tooLarge hs hl]
    exact ih (length_header _)
  | complete s hl hs ih =>
    rw [split_complete hl hs]
    exact ih (length_header _)

theorem reset_holding (h : stale.length = headerSize) :
    (holding stale s).reset = holding (s.take headerSize ++ stale.drop s.length) [] := by
  by_cases hs : s.length < headerSize
  · rw [holding_header hs, holding_nil, List.take_of_length_le (by omega)]
    rfl
  · rw [holding_body (by omega), holding_nil,
      List.drop_eq_nil_of_le (by omega : stale.length ≤ s.length), List.append_nil]
    rfl

/-- A full header: its frame is refused, or complete because it has no body, or goes on. -/
theorem beginBody_eq (h : s.length = headerSize) (stale : List UInt8) :
    let a : Assembler := ⟨.awaitingHeader, s.toByteArray, headerSize, .empty, 0⟩
    completed a.beginBody.1 = (split s).1 ∧
      a.beginBody.2 = holding (lastHeader stale (split s).1) (split s).2 := by
  have ht : s.take headerSize = s := List.take_of_length_le (Nat.le_of_eq h)
  have hd : s.drop headerSize = [] := List.drop_eq_nil_of_le (Nat.le_of_eq h)
  have hn : split ([] : List UInt8) = ([], []) := split_pending pending_nil
  simp only [beginBody, announced, List.data_toByteArray, checkSize]
  by_cases hl : sizeLimit < spelled s
  · rw [split_tooLarge (Nat.le_of_eq h.symm) (by rwa [ht]), ht, hd, hn]
    simp only [if_pos hl, completed, lastHeader, headerOf, List.foldl_cons, List.foldl_nil,
      header_spelled h, holding_nil, true_and]
    rfl
  · by_cases h0 : spelled s = 0
    · rw [split_complete (by rw [ht]; omega) (by rw [ht]; omega), ht, h0, Nat.add_zero, hd, hn]
      have hs : (Frame.header 0).data.toList = s := by rw [← h0, header_spelled h]
      simp [completed, lastHeader, headerOf, hs, holding_nil, reset]
    · have hp : Pending s := Or.inr (by rw [ht]; omega)
      rw [split_pending hp, holding_body (Nat.le_of_eq h.symm), ht, hd]
      simp [hl, h0, completed, zeros_eq, h]

theorem feed_of_header (hst : stale.length = headerSize) (hs : s.length < headerSize)
    (h0 : 0 < piece.size) (hfit : s.length + piece.size ≤ headerSize) :
    (holding stale s).feed piece =
      if s.length + piece.size < headerSize then (.ok none, holding stale (s ++ piece.data.toList))
      else beginBody
        ⟨.awaitingHeader, (s ++ piece.data.toList).toByteArray, headerSize, .empty, 0⟩ := by
  have hx : piece.extract 0 (holding stale s).unfilled = piece := by
    rw [unfilled_holding hst, if_pos hs]
    apply ByteArray.ext
    simp
    omega
  simp only [feed, put, hx, advance, if_neg (Nat.ne_of_gt h0)]
  rw [holding_header hs]
  simp only [copySlice_append, List.drop_drop]
  by_cases hlt : s.length + piece.size < headerSize
  · rw [if_pos hlt, if_pos hlt, holding_header (by simpa using hlt)]
    simp
  · have he : s.length + piece.size = headerSize := by omega
    rw [if_neg hlt, if_neg hlt, he, List.drop_eq_nil_of_le (Nat.le_of_eq hst), List.append_nil]

theorem feed_of_body (hst : stale.length = headerSize) (hs : headerSize ≤ s.length)
    (h0 : 0 < piece.size)
    (hfit : s.length + piece.size ≤ headerSize + spelled (s.take headerSize)) :
    (holding stale s).feed piece =
      if s.length + piece.size < headerSize + spelled (s.take headerSize) then
        (.ok none, holding stale (s ++ piece.data.toList))
      else
        (.ok (some ((s ++ piece.data.toList).drop headerSize).toByteArray),
          holding (s.take headerSize) []) := by
  have hx : piece.extract 0 (holding stale s).unfilled = piece := by
    rw [unfilled_holding hst, if_neg (by omega)]
    apply ByteArray.ext
    simp
    omega
  have hd : (s.drop headerSize).length = s.length - headerSize := List.length_drop
  simp only [feed, put, hx, advance, if_neg (Nat.ne_of_gt h0)]
  rw [holding_body hs]
  simp only [← hd, copySlice_append, List.drop_replicate]
  have hb : s.drop headerSize ++ piece.data.toList = (s ++ piece.data.toList).drop headerSize :=
    (List.drop_append_of_le_length hs).symm
  by_cases hlt : s.length + piece.size < headerSize + spelled (s.take headerSize)
  · rw [if_pos hlt, if_pos (by simp; omega), holding_body (by simp; omega),
      take_header_append hs, hb]
    simp
    omega
  · have he : headerSize + spelled (s.take headerSize) - s.length - piece.size = 0 := by omega
    rw [if_neg hlt, if_neg (by simp; omega), holding_nil, he, hb]
    simp [reset]

/-- A piece that fits takes what is held of the stream before it to what is held behind it. -/
theorem feed_holding (hst : stale.length = headerSize) (hp : Pending s) (h0 : 0 < piece.size)
    (hfit : piece.size ≤ (holding stale s).unfilled) :
    completed ((holding stale s).feed piece).1 = (split (s ++ piece.data.toList)).1 ∧
      ((holding stale s).feed piece).2 =
        holding (lastHeader stale (split (s ++ piece.data.toList)).1)
          (split (s ++ piece.data.toList)).2 := by
  have hlen : (s ++ piece.data.toList).length = s.length + piece.size := by simp
  rw [unfilled_holding hst] at hfit
  by_cases hs : s.length < headerSize
  · rw [if_pos hs] at hfit
    rw [feed_of_header hst hs h0 (by omega)]
    by_cases hlt : s.length + piece.size < headerSize
    · rw [if_pos hlt, split_pending (Or.inl (by omega))]
      exact ⟨rfl, rfl⟩
    · rw [if_neg hlt]
      exact beginBody_eq (by omega) stale
  · rw [if_neg hs] at hfit
    have hh : headerSize ≤ s.length := Nat.le_of_not_lt hs
    have ht := take_header_append hh piece.data.toList
    have hl : spelled (s.take headerSize) ≤ sizeLimit ∧
        s.length < headerSize + spelled (s.take headerSize) := hp.resolve_left hs
    rw [feed_of_body hst hh h0 (by omega)]
    by_cases hlt : s.length + piece.size < headerSize + spelled (s.take headerSize)
    · rw [if_pos hlt, split_pending (Or.inr (by rw [ht]; omega))]
      exact ⟨rfl, rfl⟩
    · have hb : ((s ++ piece.data.toList).drop headerSize).length =
          spelled (s.take headerSize) := by
        simp
        omega
      have hr : (s ++ piece.data.toList).drop (headerSize + spelled (s.take headerSize)) = [] :=
        List.drop_eq_nil_of_le (by omega)
      rw [if_neg hlt, split_complete (by rw [ht]; omega) (by rw [ht]; omega), ht, hr,
        split_pending pending_nil, List.take_of_length_le (Nat.le_of_eq hb)]
      simp only [completed, lastHeader, headerOf, List.foldl_cons, List.foldl_nil, hb,
        header_spelled (List.length_take_of_le hh), List.data_toByteArray, List.toList_toArray,
        and_self]

theorem put_empty (h : piece.size = 0) : (holding stale s).put piece = holding stale s := by
  obtain rfl := ByteArray.size_eq_zero_iff.mp h
  have hx (n : Nat) : ByteArray.empty.extract 0 n = .empty := by
    apply ByteArray.ext
    simp
  simp only [put, hx]
  by_cases hs : s.length < headerSize
  · rw [holding_header hs]
    simp only [copySlice_append]
    simp
  · have hd : s.length - headerSize = (s.drop headerSize).length := List.length_drop.symm
    rw [holding_body (Nat.le_of_not_lt hs), hd]
    simp only [copySlice_append]
    simp

/-- Whether an assembler holds the bytes `s` of an unfinished frame, whatever stands behind them
in its buffers. -/
def Holds (a : Assembler) (s : List UInt8) : Prop :=
  ∃ stale, stale.length = headerSize ∧ Pending s ∧ a = holding stale s

/-- What comes of a piece that brings what is held of a frame to `s`. -/
inductive Fed (s : List UInt8) : Except Error (Option ByteArray) → Assembler → Prop
  | more {a : Assembler} (h : a.Holds s) : Fed s (.ok none) a
  | complete {a : Assembler} (body : ByteArray) (hs : s = frame body.data.toList)
      (hl : body.size ≤ sizeLimit) (h : a.Holds []) : Fed s (.ok (some body)) a
  | tooLarge {a : Assembler} (hs : Oversized s) (h : a.Holds []) :
      Fed s (.error (.tooLarge (spelled s) sizeLimit)) a

/-- The bytes that have been read of a frame. -/
def contents (a : Assembler) : List UInt8 :=
  a.header.data.toList.take a.headerFilled ++ a.body.data.toList.take a.bodyFilled

theorem contents_holding (stale s : List UInt8) : (holding stale s).contents = s := by
  by_cases h : s.length < headerSize
  · simp [holding_header h, contents]
  · have hd : s.length - headerSize = (s.drop headerSize).length := List.length_drop.symm
    rw [holding_body (Nat.le_of_not_lt h), contents, hd]
    simp only [List.data_toByteArray, List.take_left, List.take_take, Nat.min_self,
      List.take_append_drop]

theorem holds_initial : ({} : Assembler).Holds [] :=
  ⟨_, List.length_replicate, pending_nil, initial_eq_holding⟩

namespace Holds

theorem contents_eq (h : a.Holds s) : a.contents = s := by
  obtain ⟨stale, -, -, rfl⟩ := h
  exact contents_holding stale s

theorem unique (h : a.Holds s) (ht : a.Holds t) : s = t :=
  h.contents_eq.symm.trans ht.contents_eq

theorem buffered (h : a.Holds s) : a.buffered = s.length := by
  obtain ⟨stale, -, -, rfl⟩ := h
  exact buffered_holding stale s

theorem isIdle (h : a.Holds s) : a.isIdle ↔ s = [] := by
  obtain ⟨stale, -, -, rfl⟩ := h
  exact isIdle_holding stale s

theorem pending (h : a.Holds s) : Pending s := by
  obtain ⟨stale, -, hp, -⟩ := h
  exact hp

theorem unfilled (h : a.Holds s) : 0 < a.unfilled := by
  obtain ⟨stale, hst, hp, rfl⟩ := h
  exact unfilled_pos hst hp

/-- An assembler that holds nothing is as new, but for what stands in its header's buffer. -/
theorem as_new (h : a.Holds []) :
    ∃ header : ByteArray, header.size = headerSize ∧ a = { header } := by
  obtain ⟨stale, hst, -, rfl⟩ := h
  exact ⟨stale.toByteArray, by simpa using hst, holding_nil stale⟩

theorem reset (h : a.Holds s) : a.reset.Holds [] := by
  obtain ⟨stale, hst, hp, rfl⟩ := h
  exact ⟨_, by simp; omega, pending_nil, reset_holding hst⟩

theorem feed (h : a.Holds s) (h0 : 0 < piece.size) (hfit : piece.size ≤ a.unfilled) :
    Fed (s ++ piece.data.toList) (a.feed piece).1 (a.feed piece).2 := by
  obtain ⟨stale, hst, hp, rfl⟩ := h
  obtain ⟨hc, ha⟩ := feed_holding hst hp h0 hfit
  rw [unfilled_holding hst] at hfit
  have hlast := length_headerOf_split hst (s ++ piece.data.toList)
  generalize (holding stale s).feed piece = fed at hc ha
  obtain ⟨r, b⟩ := fed
  rcases pending_append (t := piece.data.toList) hp hfit with hq | ⟨body, hb, hl⟩ | ho
  · rw [split_pending hq] at hc ha hlast
    obtain rfl : r = .ok none := by cases r with
      | error e => simp [completed] at hc
      | ok r => cases r <;> simp_all [completed]
    exact .more ⟨_, hlast, hq, ha⟩
  · rw [hb, split_frame hl] at hc ha hlast
    obtain ⟨body', rfl, rfl⟩ : ∃ body', r = .ok (some body') ∧ body'.data.toList = body := by
      cases r with
      | error e => simp [completed] at hc
      | ok r => cases r <;> simp_all [completed]
    exact .complete body' hb (by simpa using hl) ⟨_, hlast, pending_nil, ha⟩
  · rw [split_oversized ho] at hc ha hlast
    obtain rfl : r = .error (.tooLarge (spelled (s ++ piece.data.toList)) sizeLimit) := by
      cases r with
      | error e => simpa [completed] using hc
      | ok r => cases r <;> simp [completed] at hc
    exact .tooLarge ho ⟨_, hlast, pending_nil, ha⟩

theorem progress (h : a.Holds s) : a.progress = lastPart s := by
  obtain ⟨stale, -, hp, rfl⟩ := h
  exact progress_holding stale hp

theorem feed_end (h : a.Holds s) (h0 : piece.size = 0) :
    (a.feed piece).1 = .error (.closed (lastPart s).1 (lastPart s).2) ∧
      (a.feed piece).2.Holds [] := by
  have hput : (a.put piece).Holds s := by
    obtain ⟨stale, hst, hp, rfl⟩ := h
    rw [put_empty h0]
    exact ⟨stale, hst, hp, rfl⟩
  simp only [Assembler.feed, advance, h0, if_true, hput.progress]
  exact ⟨trivial, hput.reset⟩

end Holds

/-- Takes in pieces one after another. -/
def feedAll (a : Assembler) : List ByteArray → List (Except Error (List UInt8)) × Assembler
  | [] => ([], a)
  | piece :: pieces =>
    let (rs, b) := (a.feed piece).2.feedAll pieces
    (completed (a.feed piece).1 ++ rs, b)

/-- Whether pieces come from reads into the room that is left: each takes a byte or more, and no
more than there is room for. -/
def Fits (a : Assembler) : List ByteArray → Prop
  | [] => True
  | piece :: pieces =>
    0 < piece.size ∧ piece.size ≤ a.unfilled ∧ (a.feed piece).2.Fits pieces

/-- The bytes of pieces. -/
def joined (pieces : List ByteArray) : List UInt8 := (pieces.map (·.data.toList)).flatten

theorem feedAll_holding {pieces : List ByteArray} (hst : stale.length = headerSize)
    (hp : Pending s) (hf : (holding stale s).Fits pieces) :
    (holding stale s).feedAll pieces =
      ((split (s ++ joined pieces)).1,
        holding (lastHeader stale (split (s ++ joined pieces)).1)
          (split (s ++ joined pieces)).2) := by
  induction pieces generalizing stale s with
  | nil => simp [feedAll, joined, split_pending hp, lastHeader]
  | cons piece pieces ih =>
    obtain ⟨h0, hfit, hf⟩ := hf
    obtain ⟨hc, ha⟩ := feed_holding hst hp h0 hfit
    rw [ha] at hf
    have hj : s ++ joined (piece :: pieces) = (s ++ piece.data.toList) ++ joined pieces := by
      simp [joined]
    rw [feedAll, hc, ha, ih (length_headerOf_split hst _) (pending_split _) hf, hj,
      split_append (s ++ piece.data.toList)]
    simp [lastHeader]

/-- However a stream is cut into reads, what completes is what the stream falls into, and the
assembler shows the unfinished rest. Another cut of the stream leaves the very same assembler. -/
theorem feedAll_eq_split {pieces : List ByteArray} (hf : ({} : Assembler).Fits pieces) :
    let (rs, a) := ({} : Assembler).feedAll pieces
    let rest := (split (joined pieces)).2
    rs = (split (joined pieces)).1 ∧
      a.buffered = rest.length ∧ (a.isIdle ↔ rest = []) ∧
      a.phase = (if rest.length < headerSize then .awaitingHeader else .awaitingBody) ∧
      ∀ others : List ByteArray, ({} : Assembler).Fits others → joined others = joined pieces →
        ({} : Assembler).feedAll others = (rs, a) := by
  have hst : (List.replicate headerSize (0 : UInt8)).length = headerSize := List.length_replicate
  rw [initial_eq_holding] at hf ⊢
  rw [feedAll_holding hst pending_nil hf, List.nil_append]
  refine ⟨rfl, buffered_holding _ _, isIdle_holding _ _, phase_holding _ _, ?_⟩
  intro others ho hj
  rw [feedAll_holding hst pending_nil ho, List.nil_append, hj]

/-- An empty frame, a frame of two bytes, a header that announces too much and half a header, with
reads that end within a header, at its end, within a body and at its end. -/
theorem feedAll_mixed_stream :
    let pieces := [[0, 0], [0, 0], [0, 0, 0], [2], [7], [9], [1, 0, 0, 1], [0, 5]].map
      List.toByteArray
    ({} : Assembler).Fits pieces ∧
      (({} : Assembler).feedAll pieces).1 =
        [.ok [], .ok [7, 9], .error (.tooLarge 16777217 16777216)] ∧
      (({} : Assembler).feedAll pieces).2.buffered = 2 := by
  intro pieces
  have hf : ({} : Assembler).Fits pieces := by
    simp only [pieces]
    cbv
  have hs : split (joined pieces) =
      ([.ok [], .ok [7, 9], .error (.tooLarge 16777217 16777216)], [0, 5]) := by
    simp only [pieces]
    cbv
  obtain ⟨hr, hb, -⟩ := feedAll_eq_split hf
  rw [hs] at hr hb
  exact ⟨hf, hr, hb⟩

end Assembler
end Gallows.Frame
