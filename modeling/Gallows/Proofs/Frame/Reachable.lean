import Gallows.Proofs.Frame.Assembly

/-!
The states of an assembler. Whatever is written into its room, however much of that is counted and
whenever it is reset, it awaits a byte, and what it holds agrees with its phase. Behind a body, an
error and a reset it goes on as a new one does, though its header's buffer keeps its bytes.
-/
namespace Gallows.Frame.Assembler

variable {a b : Assembler} {n : Nat} {r : Except Error (Option ByteArray)}

/-- The states that writing, counting and resetting lead to. What is written is what the room starts
with afterwards; whoever leaves out a part of the room puts there what it had. -/
inductive Reachable : Assembler → Prop
  | new : Reachable {}
  | put {a : Assembler} (h : Reachable a) (bytes : ByteArray) : Reachable (a.put bytes)
  | advance {a : Assembler} (h : Reachable a) (n : Nat) (hn : n ≤ a.unfilled) :
      Reachable (a.advance n).2
  | reset {a : Assembler} (h : Reachable a) : Reachable a.reset

/-! What an assembler holds. -/

/-- Whether what is held agrees with the phase. -/
inductive WellFormed : Assembler → Prop
  | header {header : ByteArray} {filled : Nat} (hs : header.size = headerSize)
      (hf : filled < headerSize) : WellFormed ⟨.awaitingHeader, header, filled, .empty, 0⟩
  | body {header body : ByteArray} {filled : Nat} (hs : header.size = headerSize)
      (hb : body.size = announced header) (hl : body.size ≤ sizeLimit) (hf : filled < body.size) :
      WellFormed ⟨.awaitingBody, header, headerSize, body, filled⟩

/-- What comes of counting `n` bytes. Either the frame goes on, or it is over and nothing is
held. -/
inductive Advanced (a : Assembler) (n : Nat) :
    Except Error (Option ByteArray) → Assembler → Prop
  | more {b : Assembler} (h : b.WellFormed) (hb : b.buffered = a.buffered + n) :
      Advanced a n (.ok none) b
  | done {r : Except Error (Option ByteArray)} (hr : r ≠ .ok none) : Advanced a n r a.reset

theorem toList_copySlice (piece buffer : ByteArray) (filled : Nat) :
    (piece.copySlice 0 buffer filled piece.size).data.toList =
      buffer.data.toList.take filled ++ piece.data.toList ++
        buffer.data.toList.drop (filled + piece.size) := by
  simp [ByteArray.copySlice_eq_append, List.extract_eq_take_drop]

/-- What is cut to the room that a buffer has leaves the buffer's size. -/
theorem size_copySlice (bytes buffer : ByteArray) (filled : Nat) (h : filled ≤ buffer.size) :
    let piece := bytes.extract 0 (buffer.size - filled)
    (piece.copySlice 0 buffer filled piece.size).size = buffer.size := by
  intro piece
  have hp : piece.size ≤ buffer.size - filled := by
    simp only [piece, ByteArray.size_extract]
    omega
  have hlen := congrArg List.length (toList_copySlice piece buffer filled)
  simp only [Array.length_toList, ByteArray.size_data, List.length_append, List.length_take,
    List.length_drop] at hlen
  omega

theorem wellFormed_new : ({} : Assembler).WellFormed :=
  .header (by rw [zeros_eq]; simp) (by decide)

namespace WellFormed

theorem size_header (h : a.WellFormed) : a.header.size = headerSize := by
  cases h <;> assumption

theorem reset (h : a.WellFormed) : a.reset.WellFormed := .header h.size_header (by decide)

theorem put (h : a.WellFormed) (bytes : ByteArray) : (a.put bytes).WellFormed := by
  cases h with
  | @header header filled hs hf =>
    have hsize := size_copySlice bytes header filled (by omega)
    exact .header (hsize.trans hs) hf
  | @body header body filled hs hb hl hf =>
    have hsize := size_copySlice bytes body filled (by omega)
    exact .body hs (hsize.trans hb) (hsize.symm ▸ hl) (hsize.symm ▸ hf)

theorem unfilled_pos (h : a.WellFormed) : 0 < a.unfilled := by
  cases h with
  | header hs hf =>
    simp only [unfilled]
    omega
  | body hs hb hl hf =>
    simp only [unfilled]
    omega

theorem isIdle_iff (h : a.WellFormed) : a.isIdle ↔ a.buffered = 0 := by
  cases h with
  | header hs hf => simp [isIdle, buffered]
  | body hs hb hl hf => simp [isIdle, buffered, headerSize]

theorem size_body_le (h : a.WellFormed) : a.body.size ≤ sizeLimit := by
  cases h with
  | header hs hf => exact Nat.zero_le _
  | body hs hb hl hf => exact hl

/-- A full header is refused, or has no body, or announces the body that is awaited from then on. -/
theorem beginBody {header : ByteArray} (hs : header.size = headerSize) {filled : Nat}
    (hn : filled + n = headerSize) :
    Advanced ⟨.awaitingHeader, header, filled, .empty, 0⟩ n
      (Assembler.beginBody ⟨.awaitingHeader, header, filled + n, .empty, 0⟩).1
      (Assembler.beginBody ⟨.awaitingHeader, header, filled + n, .empty, 0⟩).2 := by
  simp only [Assembler.beginBody, checkSize]
  by_cases hl : sizeLimit < announced header
  · rw [if_pos hl]
    exact .done (by simp)
  · rw [if_neg hl]
    by_cases h0 : announced header = 0
    · simp only [h0, if_true]
      exact .done (by simp)
    · have hz : (zeros (announced header)).size = announced header := by
        rw [zeros_eq]
        simp
      simp only [h0, if_false, hn]
      refine .more (.body hs hz (by omega) (by omega)) ?_
      simp only [buffered]
      omega

theorem advance (h : a.WellFormed) (hn : n ≤ a.unfilled) :
    Advanced a n (a.advance n).1 (a.advance n).2 := by
  by_cases h0 : n = 0
  · simp only [Assembler.advance, if_pos h0]
    exact .done (by simp)
  · cases h with
    | @header header filled hs hf =>
      simp only [Assembler.advance, if_neg h0]
      by_cases hlt : filled + n < headerSize
      · rw [if_pos hlt]
        refine .more (.header hs hlt) ?_
        simp only [buffered]
        omega
      · rw [if_neg hlt]
        simp only [unfilled] at hn
        exact beginBody hs (by omega)
    | @body header body filled hs hb hl hf =>
      simp only [Assembler.advance, if_neg h0]
      by_cases hlt : filled + n < body.size
      · rw [if_pos hlt]
        refine .more (.body hs hb hl hlt) ?_
        simp only [buffered]
        omega
      · rw [if_neg hlt]
        exact .done (by simp)

end WellFormed

namespace Advanced

theorem wellFormed (h : Advanced a n r b) (ha : a.WellFormed) : b.WellFormed := by
  cases h with
  | more hb => exact hb
  | done => exact ha.reset

theorem buffered_eq (h : Advanced a n r b) (hr : r = .ok none) :
    b.buffered = a.buffered + n := by
  cases h with
  | more _ hb => exact hb
  | done hne => exact absurd hr hne

theorem eq_reset (h : Advanced a n r b) (hr : r ≠ .ok none) : b = a.reset := by
  cases h with
  | more => exact absurd rfl hr
  | done => rfl

end Advanced

theorem Reachable.wellFormed (h : a.Reachable) : a.WellFormed := by
  induction h with
  | new => exact wellFormed_new
  | put _ bytes ih => exact ih.put bytes
  | advance _ n hn ih => exact (ih.advance hn).wellFormed ih
  | reset _ ih => exact ih.reset

/-! Assemblers that differ in bytes that do not count. -/

/-- Whether two assemblers are the same but for what stands in their headers' buffers behind the
bytes that they hold. With the whole header held nothing stands there. -/
inductive Alike : Assembler → Assembler → Prop
  | same (a : Assembler) : Alike a a
  | header {left right : ByteArray} {filled : Nat} (hl : left.size = headerSize)
      (hr : right.size = headerSize) (hf : filled < headerSize)
      (held : left.data.toList.take filled = right.data.toList.take filled) :
      Alike ⟨.awaitingHeader, left, filled, .empty, 0⟩ ⟨.awaitingHeader, right, filled, .empty, 0⟩

/-- What an assembler shows of itself: its phase, whether it is idle, how much it holds and how much
room it has. -/
def shown (a : Assembler) : Phase × Bool × Nat × Nat :=
  (a.phase, a.isIdle, a.buffered, a.unfilled)

/-- What comes of pieces one after another, an empty one being the end of the stream, and what the
assembler shows behind each. -/
def answers (a : Assembler) :
    List ByteArray → List (Except Error (Option ByteArray) × Phase × Bool × Nat × Nat)
  | [] => []
  | piece :: pieces => ((a.feed piece).1, (a.feed piece).2.shown) :: (a.feed piece).2.answers pieces

/-- Whether no bytes that are fed from here on tell an assembler from a new one. -/
def IsAsNew (a : Assembler) : Prop :=
  a.shown = ({} : Assembler).shown ∧ ∀ pieces, a.answers pieces = ({} : Assembler).answers pieces

namespace Alike

theorem shown_eq (h : Alike a b) : a.shown = b.shown := by
  cases h with
  | same => rfl
  | header hl hr hf held => simp only [shown, isIdle, buffered, unfilled, hl, hr]

/-- A piece that leaves the header unfinished is held by both; one that completes it leaves nothing
in which they differ. -/
theorem feed (h : Alike a b) (piece : ByteArray) :
    (a.feed piece).1 = (b.feed piece).1 ∧ Alike (a.feed piece).2 (b.feed piece).2 := by
  cases h with
  | same => exact ⟨rfl, .same _⟩
  | @header left right filled hl hr hf held =>
    have hleft := size_copySlice piece left filled (by omega)
    have hright := size_copySlice piece right filled (by omega)
    simp only [Assembler.feed, Assembler.put, unfilled, hl, hr] at hleft hright ⊢
    have hsize : (piece.extract 0 (headerSize - filled)).size =
        min (headerSize - filled) piece.size := by simp
    have hput := toList_copySlice (piece.extract 0 (headerSize - filled))
    generalize piece.extract 0 (headerSize - filled) = written at hleft hright hput hsize ⊢
    by_cases hlt : filled + piece.size < headerSize
    · have htake (buffer : ByteArray) (hb : buffer.size = headerSize) :
          (written.copySlice 0 buffer filled written.size).data.toList.take
            (filled + piece.size) = buffer.data.toList.take filled ++ written.data.toList := by
        rw [hput buffer filled]
        apply List.take_left'
        simp
        omega
      by_cases h0 : piece.size = 0
      · simp only [advance, if_pos h0]
        exact ⟨rfl, .header hleft hright (by decide) rfl⟩
      · simp only [advance, if_neg h0, if_pos hlt, true_and]
        refine .header hleft hright hlt ?_
        rw [htake left hl, htake right hr, held]
    · have hdrop (buffer : ByteArray) (hb : buffer.size = headerSize) :
          buffer.data.toList.drop (filled + written.size) = [] := by
        apply List.drop_eq_nil_of_le
        simp
        omega
      have heq : written.copySlice 0 left filled written.size =
          written.copySlice 0 right filled written.size := by
        apply ByteArray.ext
        apply Array.toList_inj.mp
        rw [hput left filled, hput right filled, hdrop left hl, hdrop right hr, held]
      rw [heq]
      exact ⟨rfl, .same _⟩

theorem answers_eq (h : Alike a b) (pieces : List ByteArray) :
    a.answers pieces = b.answers pieces := by
  induction pieces generalizing a b with
  | nil => rfl
  | cons piece pieces ih =>
    obtain ⟨hr, ha⟩ := h.feed piece
    simp only [answers, hr, ha.shown_eq, ih ha]

end Alike

theorem WellFormed.isAsNew_reset (h : a.WellFormed) : a.reset.IsAsNew := by
  have halike : Alike a.reset {} :=
    .header h.size_header wellFormed_new.size_header (by decide) rfl
  exact ⟨halike.shown_eq, halike.answers_eq⟩

/-- In every state that writing, counting and resetting lead to, there is room for a byte; in the
header fewer bytes are held than it has, and none of a body; in the body the whole header is held,
and the body has the length that it announces, at least one byte and no more than the limit, and is
not yet complete. Counting adds what it counts to what is held, or ends the frame. Behind its end,
and behind a reset, the assembler is as new, though its header's buffer is as it was. -/
theorem reachable_agrees (h : a.Reachable) :
    0 < a.unfilled ∧ a.header.size = headerSize ∧ a.body.size ≤ sizeLimit ∧
      (a.phase = .awaitingHeader → a.headerFilled < headerSize ∧ a.bodyFilled = 0) ∧
      (a.phase = .awaitingBody → a.headerFilled = headerSize ∧
        a.body.size = announced a.header ∧ 1 ≤ a.body.size ∧ a.body.size ≤ sizeLimit ∧
        a.bodyFilled < a.body.size) ∧
      (a.isIdle ↔ a.buffered = 0) ∧
      (∀ n ≤ a.unfilled, (a.advance n).1 = .ok none →
        (a.advance n).2.buffered = a.buffered + n) ∧
      (∀ n ≤ a.unfilled, (a.advance n).1 ≠ .ok none →
        (a.advance n).2.IsAsNew ∧ (a.advance n).2.header = a.header) ∧
      a.reset.IsAsNew ∧ a.reset.header = a.header := by
  have hw := h.wellFormed
  refine ⟨hw.unfilled_pos, hw.size_header, hw.size_body_le, ?_, ?_, hw.isIdle_iff, ?_, ?_,
    hw.isAsNew_reset, rfl⟩
  · intro hp
    cases hw with
    | header hs hf => exact ⟨hf, rfl⟩
    | body => cases hp
  · intro hp
    cases hw with
    | header => cases hp
    | body hs hb hl hf => exact ⟨rfl, hb, by simp only; omega, hl, hf⟩
  · intro n hn hr
    exact (hw.advance hn).buffered_eq hr
  · intro n hn hr
    rw [(hw.advance hn).eq_reset hr]
    exact ⟨hw.isAsNew_reset, rfl⟩

/-- A header that announces too much, in two pieces, of which the second is not yet counted. -/
theorem reachable_agrees_oversized :
    let a := ((({} : Assembler).put ⟨#[1, 0]⟩).advance 2).2.put ⟨#[0, 1]⟩
    a.Reachable ∧ a.unfilled = 2 ∧ (a.advance 2).1 = .error (.tooLarge 16777217 16777216) ∧
      (a.advance 2).2.IsAsNew ∧ (a.advance 2).2.header = ⟨#[1, 0, 0, 1]⟩ := by
  intro a
  have hreach : a.Reachable :=
    .put (.advance (.put .new _) 2 (by cbv)) _
  have hunfilled : a.unfilled = 2 := by
    simp only [a]
    cbv
  have herror : (a.advance 2).1 = .error (.tooLarge 16777217 16777216) := by
    simp only [a]
    cbv
  have hheader : a.header = ⟨#[1, 0, 0, 1]⟩ := by
    simp only [a]
    cbv
  obtain ⟨-, -, -, -, -, -, -, hover, -⟩ := reachable_agrees hreach
  obtain ⟨hnew, hkept⟩ := hover 2 (by omega) (by simp [herror])
  exact ⟨hreach, hunfilled, herror, hnew, hkept.trans hheader⟩

end Gallows.Frame.Assembler
