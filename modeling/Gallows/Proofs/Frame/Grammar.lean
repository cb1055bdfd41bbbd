import Gallows.Frame.Split
import Mathlib

/-!
Streams of frames. A stream falls into complete frames and a part that ends within a frame, and so
it does in the same way when more of it arrives.
-/
namespace Gallows.Frame

variable {s t : List UInt8} {m n : Nat}

/-- A stream that ends within its first frame, which announces no more than the limit. -/
def Pending (s : List UInt8) : Prop :=
  s.length < headerSize ∨
    spelled (s.take headerSize) ≤ sizeLimit ∧
      s.length < headerSize + spelled (s.take headerSize)

/-- The bytes of the frame of a body. -/
def frame (body : List UInt8) : List UInt8 := (header body.length).data.toList ++ body

theorem pending_nil : Pending [] := Or.inl (by decide)

theorem splitWithin_congr (hm : s.length < m) (hn : s.length < n) :
    splitWithin m s = splitWithin n s := by
  induction m generalizing n s with
  | zero => omega
  | succ m ih =>
    cases n with
    | zero => omega
    | succ n =>
      have hd : headerSize = 4 := rfl
      simp only [splitWithin]
      by_cases hs : s.length < headerSize
      · simp [hs]
      · have hr : (s.drop headerSize).length < m ∧ (s.drop headerSize).length < n := by
          simp only [List.length_drop]
          omega
        have hb (k : Nat) : ((s.drop headerSize).drop k).length < m ∧
            ((s.drop headerSize).drop k).length < n := by
          simp only [List.length_drop]
          omega
        rw [ih hr.1 hr.2, ih (hb _).1 (hb _).2]

theorem split_pending (h : Pending s) : split s = ([], s) := by
  rcases h with hs | ⟨hl, hs⟩
  · simp [split, splitWithin, hs]
  · by_cases hh : s.length < headerSize
    · simp [split, splitWithin, hh]
    · have hr : (s.drop headerSize).length < spelled (s.take headerSize) := by
        simp only [List.length_drop]
        omega
      simp only [split, splitWithin, hh, if_false, if_neg (Nat.not_lt.mpr hl), if_pos hr]

theorem split_tooLarge (h : headerSize ≤ s.length) (hl : sizeLimit < spelled (s.take headerSize)) :
    split s = (.error (.tooLarge (spelled (s.take headerSize)) sizeLimit) ::
      (split (s.drop headerSize)).1, (split (s.drop headerSize)).2) := by
  have hd : headerSize = 4 := rfl
  have hc : splitWithin s.length (s.drop headerSize) = split (s.drop headerSize) := by
    apply splitWithin_congr <;> simp only [List.length_drop] <;> omega
  simp only [split, splitWithin, if_neg (Nat.not_lt.mpr h), if_pos hl, hc]

theorem split_complete (hl : spelled (s.take headerSize) ≤ sizeLimit)
    (h : headerSize + spelled (s.take headerSize) ≤ s.length) :
    split s = (.ok ((s.drop headerSize).take (spelled (s.take headerSize))) ::
      (split (s.drop (headerSize + spelled (s.take headerSize)))).1,
      (split (s.drop (headerSize + spelled (s.take headerSize)))).2) := by
  have hd : headerSize = 4 := rfl
  have hr : ¬ (s.drop headerSize).length < spelled (s.take headerSize) := by
    simp only [List.length_drop]
    omega
  have hc : splitWithin s.length (s.drop (headerSize + spelled (s.take headerSize))) =
      split (s.drop (headerSize + spelled (s.take headerSize))) := by
    apply splitWithin_congr <;> simp only [List.length_drop] <;> omega
  simp only [split, splitWithin, if_neg (show ¬ s.length < headerSize by omega),
    if_neg (Nat.not_lt.mpr hl), if_neg hr, List.drop_drop, hc]

/-- A stream is unfinished, starts with a header that announces too much, or starts with a frame. -/
theorem split_induction {motive : List UInt8 → Prop}
    (pending : ∀ s, Pending s → motive s)
    (tooLarge : ∀ s, headerSize ≤ s.length → sizeLimit < spelled (s.take headerSize) →
      motive (s.drop headerSize) → motive s)
    (complete : ∀ s, spelled (s.take headerSize) ≤ sizeLimit →
      headerSize + spelled (s.take headerSize) ≤ s.length →
      motive (s.drop (headerSize + spelled (s.take headerSize))) → motive s)
    (s : List UInt8) : motive s := by
  have hd : headerSize = 4 := rfl
  induction hn : s.length using Nat.strong_induction_on generalizing s with
  | h n ih =>
    by_cases hp : Pending s
    · exact pending s hp
    · simp only [Pending, not_or, not_and, Nat.not_lt] at hp
      obtain ⟨hh, hs⟩ := hp
      have smaller (k : Nat) : (s.drop (headerSize + k)).length < n := by
        simp only [List.length_drop]
        omega
      by_cases hl : spelled (s.take headerSize) ≤ sizeLimit
      · exact complete s hl (hs hl) (ih _ (smaller _) _ rfl)
      · exact tooLarge s hh (Nat.lt_of_not_le hl) (ih _ (smaller 0) _ rfl)

/-- What is left of a stream is unfinished. -/
theorem pending_split (s : List UInt8) : Pending (split s).2 := by
  induction s using split_induction with
  | pending s h => simpa [split_pending h] using h
  | tooLarge s h hl ih => simpa [split_tooLarge h hl] using ih
  | complete s hl h ih => simpa [split_complete hl h] using ih

theorem take_header_append (h : headerSize ≤ s.length) (t : List UInt8) :
    (s ++ t).take headerSize = s.take headerSize := List.take_append_of_le_length h

/-- More of a stream continues what was left of it. -/
theorem split_append (s t : List UInt8) :
    split (s ++ t) =
      ((split s).1 ++ (split ((split s).2 ++ t)).1, (split ((split s).2 ++ t)).2) := by
  induction s using split_induction with
  | pending s h => simp [split_pending h]
  | tooLarge s h hl ih =>
    have ht : (s ++ t).take headerSize = s.take headerSize := take_header_append h t
    rw [split_tooLarge h hl, split_tooLarge (by simp; omega) (by rwa [ht]), ht,
      List.drop_append_of_le_length h, ih]
    rfl
  | complete s hl h ih =>
    have ht : (s ++ t).take headerSize = s.take headerSize := take_header_append (by omega) t
    rw [split_complete hl h, split_complete (by rwa [ht]) (by rw [ht]; simp; omega), ht,
      List.drop_append_of_le_length h, ih, List.drop_append_of_le_length (by omega),
      List.take_append_of_le_length (by simp only [List.length_drop]; omega)]
    rfl

/-! What the frame of a body looks like to the splitting. -/

theorem header_toList (size : Nat) : (header size).data.toList =
    [(size / 0x1000000).toUInt8, (size / 0x10000).toUInt8, (size / 0x100).toUInt8,
      size.toUInt8] := by
  simp [header]

theorem length_header (size : Nat) : (header size).data.toList.length = headerSize := by
  simp [header_toList, headerSize]

theorem length_frame (body : List UInt8) : (frame body).length = headerSize + body.length := by
  simp only [frame, List.length_append, length_header]

theorem spelled_header (h : n ≤ sizeLimit) : spelled (header n).data.toList = n := by
  have hl : sizeLimit = 16777216 := rfl
  rw [header_toList]
  simp only [spelled, List.foldl_cons, List.foldl_nil, Nat.toUInt8, UInt8.toNat_ofNat']
  omega

/-- Bytes of a header are the header of the length that they spell. -/
theorem header_spelled (h : s.length = headerSize) : (header (spelled s)).data.toList = s := by
  match s, h with
  | [a, b, c, d], _ =>
    have ha := a.toNat_lt
    have hb := b.toNat_lt
    have hc := c.toNat_lt
    have hd := d.toNat_lt
    simp only [header_toList, spelled, List.foldl_cons, List.foldl_nil, List.cons.injEq, and_true,
      ← UInt8.toNat_inj, Nat.toUInt8, UInt8.toNat_ofNat']
    omega

theorem take_frame (body t : List UInt8) :
    (frame body ++ t).take headerSize = (header body.length).data.toList := by
  rw [frame, List.append_assoc, ← length_header body.length, List.take_left]

theorem drop_frame (body t : List UInt8) :
    (frame body ++ t).drop headerSize = body ++ t := by
  rw [frame, List.append_assoc, ← length_header body.length, List.drop_left]

/-- A complete frame at the start of a stream is the first that it falls into. -/
theorem split_frame_append {body : List UInt8} (h : body.length ≤ sizeLimit) (t : List UInt8) :
    split (frame body ++ t) = (.ok body :: (split t).1, (split t).2) := by
  have hs : spelled ((frame body ++ t).take headerSize) = body.length := by
    rw [take_frame, spelled_header h]
  rw [split_complete (by rwa [hs]) (by rw [hs, List.length_append, length_frame]; omega), hs,
    drop_frame, List.take_left, ← List.drop_drop, drop_frame, List.drop_left]

/-- Frames at the start of a stream are the first that it falls into. -/
theorem split_frames {bodies : List (List UInt8)} (hb : ∀ body ∈ bodies, body.length ≤ sizeLimit)
    (t : List UInt8) :
    split ((bodies.map frame).flatten ++ t) = (bodies.map .ok ++ (split t).1, (split t).2) := by
  induction bodies with
  | nil => simp
  | cons body bodies ih =>
    obtain ⟨h, hb⟩ := List.forall_mem_cons.mp hb
    simp only [List.map_cons, List.flatten_cons, List.append_assoc, split_frame_append h, ih hb,
      List.cons_append]

theorem ofBody_eq_ok {body bytes : ByteArray} (h : ofBody body = .ok bytes) :
    body.size ≤ sizeLimit ∧ bytes.data.toList = frame body.data.toList := by
  simp only [ofBody] at h
  split at h
  · cases h
  · cases h
    refine ⟨by omega, ?_⟩
    simp [frame]

/-- The frame of a body holds that body. -/
theorem body_ofBody {body bytes : ByteArray} (h : ofBody body = .ok bytes) :
    Frame.body bytes = .ok body := by
  simp only [ofBody] at h
  split at h
  · cases h
  · rename_i hl
    cases h
    have hsize : (header body.size).size = headerSize := by simpa using length_header body.size
    have hhead : (header body.size ++ body).extract 0 headerSize = header body.size :=
      ByteArray.extract_append_eq_left hsize.symm
    have hrest : (header body.size ++ body).extract headerSize (headerSize + body.size) = body :=
      ByteArray.extract_append_eq_right hsize.symm (by rw [hsize])
    have hannounced : announced (header body.size) = body.size := spelled_header (by omega)
    have hall : (header body.size ++ body).size = headerSize + body.size := by
      rw [ByteArray.size_append, hsize]
    have hchecked : checkSize body.size = .ok () := by
      rw [checkSize, if_neg hl]
    have hlong : ¬ headerSize + body.size < headerSize := by omega
    simp only [Frame.body, hhead, hrest, hannounced, hall, hchecked, if_neg hlong, bind,
      Except.bind, pure, Except.pure, Nat.lt_irrefl, if_false]

/-- A stream that starts with a header announcing more than the limit, and nothing behind it. -/
def Oversized (s : List UInt8) : Prop := s.length = headerSize ∧ sizeLimit < spelled s

/-- More of an unfinished frame, by no more than what it lacks, leaves it unfinished, or completes
it, or shows that it announces too much. -/
theorem pending_append (hs : Pending s) (hfit : t.length ≤
    if s.length < headerSize then headerSize - s.length
    else headerSize + spelled (s.take headerSize) - s.length) :
    Pending (s ++ t) ∨ (∃ body, s ++ t = frame body ∧ body.length ≤ sizeLimit) ∨
      Oversized (s ++ t) := by
  have hd : headerSize = 4 := rfl
  have hlen : (s ++ t).length = s.length + t.length := List.length_append
  by_cases hsh : (s ++ t).length < headerSize
  · exact Or.inl (Or.inl hsh)
  · have htake : ((s ++ t).take headerSize).length = headerSize := List.length_take_of_le (by omega)
    by_cases hlt : (s ++ t).length < headerSize + spelled ((s ++ t).take headerSize) ∧
        spelled ((s ++ t).take headerSize) ≤ sizeLimit
    · exact Or.inl (Or.inr hlt.symm)
    · have hfull : (s ++ t).length ≤ headerSize ∨
          (s ++ t).take headerSize = s.take headerSize ∧
            (s ++ t).length ≤ headerSize + spelled (s.take headerSize) ∧
            spelled (s.take headerSize) ≤ sizeLimit := by
        by_cases hss : s.length < headerSize
        · rw [if_pos hss] at hfit
          exact Or.inl (by omega)
        · rw [if_neg hss] at hfit
          obtain ⟨hl, hs⟩ := hs.resolve_left hss
          exact Or.inr ⟨take_header_append (Nat.le_of_not_lt hss) t, by omega, hl⟩
      by_cases hl : spelled ((s ++ t).take headerSize) ≤ sizeLimit
      · refine Or.inr (Or.inl ⟨(s ++ t).drop headerSize, ?_, ?_⟩)
        · have hb : ((s ++ t).drop headerSize).length = spelled ((s ++ t).take headerSize) := by
            rw [List.length_drop]
            rcases hfull with hf | ⟨he, hf, hb⟩
            · omega
            · rw [he] at hlt ⊢
              omega
          rw [frame, hb, header_spelled htake, List.take_append_drop]
        · rw [List.length_drop]
          rcases hfull with hf | ⟨he, hf, hb⟩ <;> omega
      · rcases hfull with hf | ⟨he, -, hb⟩
        · have ht : (s ++ t).take headerSize = s ++ t := List.take_of_length_le hf
          rw [ht] at hl
          exact Or.inr (Or.inr ⟨by omega, Nat.lt_of_not_le hl⟩)
        · rw [he] at hl
          exact absurd hb hl

theorem split_oversized (h : Oversized s) :
    split s = ([.error (.tooLarge (spelled s) sizeLimit)], []) := by
  have ht : s.take headerSize = s := List.take_of_length_le (Nat.le_of_eq h.1)
  have hd : s.drop headerSize = [] := List.drop_eq_nil_of_le (Nat.le_of_eq h.1)
  rw [split_tooLarge (Nat.le_of_eq h.1.symm) (by rw [ht]; exact h.2), ht, hd,
    split_pending pending_nil]

theorem split_frame {body : List UInt8} (h : body.length ≤ sizeLimit) :
    split (frame body) = ([.ok body], []) := by
  simpa [split_pending pending_nil] using split_frame_append h []

/-! A stream starts in one way only. -/

section Starts

variable {body body' : ByteArray} {rest rest' header : List UInt8}

/-- A stream has only one first frame. -/
theorem frame_append_inj (hl : body.size ≤ sizeLimit) (hl' : body'.size ≤ sizeLimit)
    (h : frame body.data.toList ++ rest = frame body'.data.toList ++ rest') :
    body = body' ∧ rest = rest' := by
  have hs := congrArg split h
  rw [split_frame_append (by simpa using hl), split_frame_append (by simpa using hl')] at hs
  have hbody : body.data.toList = body'.data.toList := by
    have hcons := congrArg Prod.fst hs
    simp only [List.cons.injEq, Except.ok.injEq] at hcons
    exact hcons.1
  rw [hbody] at h
  exact ⟨ByteArray.ext (Array.toList_inj.mp hbody), List.append_cancel_left h⟩

theorem not_pending_frame (hl : body.size ≤ sizeLimit) (rest : List UInt8) :
    ¬ Pending (frame body.data.toList ++ rest) := by
  intro hp
  have hs := split_pending hp
  rw [split_frame_append (by simpa using hl)] at hs
  cases hs

theorem split_oversized_append (h : Oversized header) (rest : List UInt8) :
    (split (header ++ rest)).1 =
      .error (.tooLarge (spelled header) sizeLimit) :: (split rest).1 := by
  rw [split_append, split_oversized h]
  rfl

theorem not_pending_oversized (h : Oversized header) (rest : List UInt8) :
    ¬ Pending (header ++ rest) := by
  intro hp
  have hs := split_oversized_append h rest
  rw [split_pending hp] at hs
  cases hs

theorem frame_ne_oversized (hl : body.size ≤ sizeLimit) (h : Oversized header) :
    frame body.data.toList ++ rest ≠ header ++ rest' := by
  intro he
  have hs := split_oversized_append h rest'
  rw [← he, split_frame_append (by simpa using hl)] at hs
  cases hs

end Starts

/-- Bytes that have all of what their header announces are a frame and what follows it. -/
theorem frame_append_drop (h : headerSize + spelled (s.take headerSize) ≤ s.length) :
    frame ((s.drop headerSize).take (spelled (s.take headerSize))) ++
      s.drop (headerSize + spelled (s.take headerSize)) = s := by
  have hlen : ((s.drop headerSize).take (spelled (s.take headerSize))).length =
      spelled (s.take headerSize) := by
    rw [List.length_take_of_le]
    rw [List.length_drop]
    omega
  rw [frame, hlen, header_spelled (List.length_take_of_le (by omega)), ← List.drop_drop,
    List.append_assoc, List.take_append_drop, List.take_append_drop]

/-- How many bytes the part of a frame has within which a stream ends, and how many of them it
has. -/
def lastPart (s : List UInt8) : Nat × Nat :=
  if s.length < headerSize then (headerSize, s.length)
  else (spelled (s.take headerSize), s.length - headerSize)

theorem lastPart_header (h : s.length < headerSize) : lastPart s = (headerSize, s.length) :=
  if_pos h

theorem lastPart_body (h : headerSize ≤ s.length) :
    lastPart s = (spelled (s.take headerSize), s.length - headerSize) := if_neg (Nat.not_lt.mpr h)

end Gallows.Frame
