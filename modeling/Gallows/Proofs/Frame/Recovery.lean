import Gallows.Proofs.Frame.Agreement

/-!
Reading across failures. What a reader holds of a frame and what it still comes upon in its stream
settle all that it will give; a failed read takes nothing from either, so that the next one goes on
where it stopped.
-/
namespace Gallows

namespace Source

variable {source : Source} {a b : List UInt8} {x y : List Mark}

/-- Whether an item is a failure. -/
def Item.isFailure : Item → Bool
  | failed _ => true
  | _ => false

/-- Whether an item is a failure that goes away when the read is tried again. -/
def Item.isTransient : Item → Bool
  | failed fault => fault.isTransient
  | _ => false

/-- The failure that an item is, unless it goes away when the read is tried again. -/
def Item.fault? : Item → Option Fault
  | failed fault => if fault.isTransient then none else some fault
  | _ => none

/-- A script without its failures. -/
def calm (source : Source) : Source := source.filter (!·.isFailure)

/-- A script without the failures that go away when the read is tried again. -/
def steadied (source : Source) : Source := source.filter (!·.isTransient)

/-- The failures of a script that do not go away, in order. -/
def faults (source : Source) : List Fault := source.filterMap Item.fault?

/-- The failure that a reader comes upon. -/
def Mark.fault? : Mark → Option Fault
  | failed fault => some fault
  | _ => none

/-- What a reader comes upon, without the failures. -/
def Mark.calm (x : List Mark) : List Mark := x.filter (·.fault?.isNone)

theorem calm_bytes (bytes : List UInt8) (x : List Mark) :
    Mark.calm (bytes.map .byte ++ x) = bytes.map .byte ++ Mark.calm x := by
  rw [Mark.calm, List.filter_append, List.filter_eq_self.mpr (by simp [Mark.fault?]), Mark.calm]

theorem calm_ended (x : List Mark) : Mark.calm (.ended :: x) = .ended :: Mark.calm x := rfl

theorem calm_failed (fault : Fault) (x : List Mark) :
    Mark.calm (.failed fault :: x) = Mark.calm x := rfl

theorem filterMap_bytes (bytes : List UInt8) (x : List Mark) :
    (bytes.map Mark.byte ++ x).filterMap Mark.fault? = x.filterMap Mark.fault? := by
  rw [List.filterMap_append, List.filterMap_eq_nil_iff.mpr (by simp [Mark.fault?]), List.nil_append]

theorem marks_calm (source : Source) :
    source.calm.marks = Mark.calm source.marks := by
  induction source with
  | nil => rfl
  | cons item source ih =>
    rw [calm] at ih ⊢
    cases item with
    | data bytes => rw [List.filter_cons_of_pos rfl, marks, marks, calm_bytes, ih]
    | ended => rw [List.filter_cons_of_pos rfl, marks, marks, calm_ended, ih]
    | failed fault =>
      rw [List.filter_cons_of_neg (by simp [Item.isFailure]), ih, marks]
      by_cases hf : fault.isTransient
      · rw [if_pos hf]
      · rw [if_neg hf, calm_failed]

theorem marks_steadied (source : Source) : source.steadied.marks = source.marks := by
  induction source with
  | nil => rfl
  | cons item source ih =>
    rw [steadied] at ih ⊢
    cases item with
    | data bytes => rw [List.filter_cons_of_pos rfl, marks, marks, ih]
    | ended => rw [List.filter_cons_of_pos rfl, marks, marks, ih]
    | failed fault =>
      by_cases hf : fault.isTransient
      · rw [List.filter_cons_of_neg (by simp [Item.isTransient, hf]), marks, if_pos hf, ih]
      · rw [List.filter_cons_of_pos (by simp [Item.isTransient, hf]), marks, marks, if_neg hf,
          if_neg hf, ih]

theorem faults_eq (source : Source) : source.faults = source.marks.filterMap Mark.fault? := by
  induction source with
  | nil => rfl
  | cons item source ih =>
    rw [faults] at ih ⊢
    cases item with
    | data bytes => rw [List.filterMap_cons_none rfl, marks, filterMap_bytes, ih]
    | ended => rw [List.filterMap_cons_none rfl, marks, List.filterMap_cons_none rfl, ih]
    | failed fault =>
      by_cases hf : fault.isTransient
      · rw [List.filterMap_cons_none (by simp [Item.fault?, hf]), marks, if_pos hf, ih]
      · have hitem : (Item.failed fault).fault? = some fault := if_neg hf
        rw [List.filterMap_cons_some hitem, marks, if_neg hf, ih]
        rfl

theorem not_isTransient_of_mem_faults {fault : Fault} (h : fault ∈ source.faults) :
    ¬ fault.isTransient := by
  obtain ⟨item, -, hitem⟩ := List.mem_filterMap.mp h
  cases item with
  | data bytes => cases hitem
  | ended => cases hitem
  | failed fault' =>
    rw [Item.fault?] at hitem
    split at hitem
    · cases hitem
    · rename_i hf
      obtain rfl := Option.some.inj hitem
      exact hf

/-- Whether there is no byte in front. -/
def Stops (x : List Mark) : Prop := ∀ b rest, x ≠ .byte b :: rest

theorem exists_stops (x : List Mark) :
    ∃ (bytes : List UInt8) (y : List Mark), x = bytes.map .byte ++ y ∧ Stops y := by
  induction x with
  | nil => exact ⟨[], [], rfl, by simp [Stops]⟩
  | cons mark x ih =>
    cases mark with
    | byte b =>
      obtain ⟨bytes, y, rfl, hy⟩ := ih
      exact ⟨b :: bytes, y, rfl, hy⟩
    | ended => exact ⟨[], _, rfl, by simp [Stops]⟩
    | failed fault => exact ⟨[], _, rfl, by simp [Stops]⟩

/-- The bytes in front of a stop are all there is in front of it. -/
theorem bytes_of_stops (hy : Stops y) (h : a.map Mark.byte ++ x = b.map Mark.byte ++ y) :
    ∃ t, b = a ++ t ∧ x = t.map .byte ++ y := by
  induction a generalizing b with
  | nil => exact ⟨b, rfl, h⟩
  | cons first a ih =>
    cases b with
    | nil => exact absurd h.symm (hy _ _)
    | cons second b =>
      simp only [List.map_cons, List.cons_append, List.cons.injEq, Mark.byte.injEq] at h
      obtain ⟨rfl, h⟩ := h
      obtain ⟨t, rfl, hx⟩ := ih h
      exact ⟨t, rfl, hx⟩

theorem eq_of_stops (hx : Stops x) (hy : Stops y)
    (h : a.map Mark.byte ++ x = b.map Mark.byte ++ y) : a = b ∧ x = y := by
  obtain ⟨t, rfl, rfl⟩ := bytes_of_stops hy h
  cases t with
  | nil => exact ⟨(List.append_nil a).symm, rfl⟩
  | cons first t => exact absurd rfl (hx first _)

end Source

namespace Frame

open Wire (Message)
open Source (Mark Stops)

variable {α : Type} [Message α] {source : Source} {held s : List UInt8}
  {m rest rest' tail : List Mark} {result result' : Except ProtocolError (Option ByteArray)}

namespace Reader

variable {r q : Reader}

/-- What is ahead of a reader: what it holds of a frame, and what it comes upon in its stream. -/
def ahead (r : Reader) : List Mark := r.assembler.contents.map .byte ++ r.source.marks

/-- Whether a reader holds a part of a frame and nothing else. -/
def IsWithin (r : Reader) : Prop := ∃ held, r.assembler.Holds held

theorem ahead_of_holds (h : r.assembler.Holds held) :
    r.ahead = held.map .byte ++ r.source.marks := by
  rw [ahead, h.contents_eq]

theorem ahead_new (source : Source) : ahead ⟨source, {}⟩ = source.marks := by
  rw [ahead_of_holds Assembler.holds_initial]
  rfl

theorem faults_ahead (r : Reader) : r.ahead.filterMap Mark.fault? = r.source.faults := by
  rw [ahead, Source.filterMap_bytes, Source.faults_eq]

theorem isWithin_new (source : Source) : IsWithin ⟨source, {}⟩ := ⟨[], Assembler.holds_initial⟩

/-- What is given at the end of a stream when `s` is at hand of a frame. -/
inductive Ends (s : List UInt8) : Except ProtocolError (Option ByteArray) → Prop
  | between (h : s = []) : Ends s (.ok none)
  | within (h : s ≠ []) : Ends s (.error (.frame (.closed (lastPart s).1 (lastPart s).2)))

/-- What is given at a stop behind the bytes `s`, and what is ahead then. A failure leaves the bytes
where they are. -/
inductive Halts (s : List UInt8) :
    (tail : List Mark) → Except ProtocolError (Option ByteArray) → (rest : List Mark) → Prop
  | exhausted {result : Except ProtocolError (Option ByteArray)} (h : Ends s result) :
      Halts s [] result []
  | ended {result : Except ProtocolError (Option ByteArray)} (h : Ends s result)
      (rest : List Mark) : Halts s (.ended :: rest) result rest
  | failed (fault : Fault) (rest : List Mark) :
      Halts s (.failed fault :: rest) (.error (.transport fault)) (s.map .byte ++ rest)

/-- What a call gives, by what is ahead of it, and what is ahead of the next one. -/
inductive Finds : List Mark → Except ProtocolError (Option ByteArray) → List Mark → Prop
  | frame (body : ByteArray) (hl : body.size ≤ sizeLimit) (rest : List Mark) :
      Finds ((Frame.frame body.data.toList).map .byte ++ rest) (.ok (some body)) rest
  | tooLarge (header : List UInt8) (ho : Oversized header) (rest : List Mark) :
      Finds (header.map .byte ++ rest) (.error (.frame (.tooLarge (spelled header) sizeLimit))) rest
  | halt {s : List UInt8} {tail rest : List Mark} {result : Except ProtocolError (Option ByteArray)}
      (hp : Pending s) (h : Halts s tail result rest) : Finds (s.map .byte ++ tail) result rest

theorem Ends.unique (h : Ends s result) (h' : Ends s result') : result = result' := by
  cases h with
  | between hs =>
    cases h' with
    | between => rfl
    | within hn => exact absurd hs hn
  | within hn =>
    cases h' with
    | between hs => exact absurd hs hn
    | within => rfl

theorem Halts.stops (h : Halts s tail result rest) : Stops tail := by
  cases h <;> simp [Stops]

theorem Halts.unique (h : Halts s tail result rest) (h' : Halts s tail result' rest') :
    result = result' ∧ rest = rest' := by
  cases h with
  | exhausted he =>
    obtain ⟨he'⟩ := h'
    exact ⟨he.unique he', rfl⟩
  | ended he rest =>
    obtain _ | ⟨he', _⟩ := h'
    exact ⟨he.unique he', rfl⟩
  | failed fault rest =>
    cases h'
    exact ⟨rfl, rfl⟩

/-- A frame ahead is found, and nothing else. -/
theorem Finds.of_frame {body : ByteArray} (hl : body.size ≤ sizeLimit)
    (h : Finds m result rest)
    (hm : m = (Frame.frame body.data.toList).map .byte ++ rest') :
    result = .ok (some body) ∧ rest = rest' := by
  obtain ⟨t, y, rfl, hy⟩ := Source.exists_stops rest'
  rw [← List.append_assoc, ← List.map_append] at hm
  cases h with
  | frame body' hl' _ =>
    obtain ⟨t', ht, rfl⟩ := Source.bytes_of_stops hy hm
    obtain ⟨rfl, rfl⟩ := frame_append_inj hl hl' ht
    exact ⟨rfl, rfl⟩
  | tooLarge header ho _ =>
    obtain ⟨t', ht, -⟩ := Source.bytes_of_stops hy hm
    exact absurd ht (frame_ne_oversized hl ho)
  | halt hp h =>
    obtain ⟨rfl, -⟩ := Source.eq_of_stops h.stops hy hm
    exact absurd hp (not_pending_frame hl t)

theorem Finds.of_oversized {header : List UInt8} (ho : Oversized header)
    (h : Finds m result rest) (hm : m = header.map .byte ++ rest') :
    result = .error (.frame (.tooLarge (spelled header) sizeLimit)) ∧ rest = rest' := by
  obtain ⟨t, y, rfl, hy⟩ := Source.exists_stops rest'
  rw [← List.append_assoc, ← List.map_append] at hm
  cases h with
  | frame body hl _ =>
    obtain ⟨t', ht, -⟩ := Source.bytes_of_stops hy hm
    exact absurd ht.symm (frame_ne_oversized hl ho)
  | tooLarge header' ho' _ =>
    obtain ⟨t', ht, rfl⟩ := Source.bytes_of_stops hy hm
    obtain ⟨rfl, rfl⟩ := List.append_inj ht (ho.1.trans ho'.1.symm)
    exact ⟨rfl, rfl⟩
  | halt hp h =>
    obtain ⟨rfl, -⟩ := Source.eq_of_stops h.stops hy hm
    exact absurd hp (not_pending_oversized ho t)

theorem Finds.of_halt (hp : Pending s) (hh : Halts s tail result' rest')
    (h : Finds m result rest) (hm : m = s.map .byte ++ tail) :
    result = result' ∧ rest = rest' := by
  cases h with
  | frame body hl _ =>
    obtain ⟨t, rfl, -⟩ := Source.bytes_of_stops hh.stops hm
    exact absurd hp (not_pending_frame hl t)
  | tooLarge header ho _ =>
    obtain ⟨t, rfl, -⟩ := Source.bytes_of_stops hh.stops hm
    exact absurd hp (not_pending_oversized ho t)
  | halt _ h =>
    obtain ⟨rfl, rfl⟩ := Source.eq_of_stops h.stops hh.stops hm
    exact h.unique hh

/-- What is ahead settles what is found. -/
theorem Finds.unique (h : Finds m result rest) (h' : Finds m result' rest') :
    result = result' ∧ rest = rest' := by
  cases h' with
  | frame body hl _ => exact h.of_frame hl rfl
  | tooLarge header ho _ => exact h.of_oversized ho rfl
  | halt hp hh => exact h.of_halt hp hh rfl

theorem Reads.finds (h : Reads held source result r) :
    Finds (held.map .byte ++ source.marks) result r.ahead := by
  cases h with
  | frame new hm body hb hl ha =>
    rw [hm, ← List.append_assoc, ← List.map_append, hb, ahead_of_holds ha]
    exact .frame body hl _
  | tooLarge new hm ho ha =>
    rw [hm, ← List.append_assoc, ← List.map_append, ahead_of_holds ha]
    exact .tooLarge _ ho _
  | exhausted hh hm ha =>
    rw [ahead_of_holds ha]
    rcases hm with ⟨hm, hr⟩ | hm
    · rw [hm, hr]
      exact .halt (hh ▸ pending_nil) (.exhausted (.between hh))
    · rw [hm]
      exact .halt (hh ▸ pending_nil) (.ended (.between hh) _)
  | cut new hm hp hh ha =>
    rw [ahead_of_holds ha]
    rcases hm with ⟨hm, hr⟩ | hm
    · rw [hm, hr, ← List.map_append, ← List.append_nil (List.map _ _)]
      exact .halt hp (.exhausted (.within hh))
    · rw [hm, ← List.append_assoc, ← List.map_append]
      exact .halt hp (.ended (.within hh) _)
  | failed new fault hm ha =>
    rw [hm, ← List.append_assoc, ← List.map_append, ahead_of_holds ha]
    exact .halt ha.pending (.failed fault _)

/-- The failure that is reported. -/
def fault? {β : Type} : Except ProtocolError β → Option Fault
  | .error (.transport fault) => some fault
  | _ => none

theorem Ends.fault?_eq (h : Ends s result) : fault? result = none := by
  cases h <;> rfl

/-- A part of a frame is held behind a failure only. -/
theorem Reads.holds (h : Reads held source result r) :
    ∃ held', r.assembler.Holds held' ∧ (fault? result = none → held' = []) := by
  cases h with
  | frame new hm body hb hl ha => exact ⟨[], ha, fun _ => rfl⟩
  | tooLarge new hm ho ha => exact ⟨[], ha, fun _ => rfl⟩
  | exhausted hh hm ha => exact ⟨[], ha, fun _ => rfl⟩
  | cut new hm hp hh ha => exact ⟨[], ha, fun _ => rfl⟩
  | failed new fault hm ha => exact ⟨_, ha, nofun⟩

/-- The failures ahead are the one that is reported and those that are ahead then. -/
theorem Finds.faults (h : Finds m result rest) :
    m.filterMap Mark.fault? = (fault? result).toList ++ rest.filterMap Mark.fault? := by
  cases h with
  | frame body hl _ => exact Source.filterMap_bytes _ _
  | tooLarge header ho _ => exact Source.filterMap_bytes _ _
  | halt hp hh =>
    rw [Source.filterMap_bytes]
    cases hh with
    | exhausted he => rw [he.fault?_eq]; rfl
    | ended he => rw [he.fault?_eq]; rfl
    | failed fault rest => rw [Source.filterMap_bytes]; rfl

/-- Without the failures ahead the same is found, unless a failure is reported; and then the same is
ahead as before. -/
theorem Finds.calm (h : Finds m result rest) :
    fault? result = none ∧ Finds (Mark.calm m) result (Mark.calm rest) ∨
      (∃ fault, fault? result = some fault) ∧ Mark.calm rest = Mark.calm m := by
  cases h with
  | frame body hl _ =>
    rw [Source.calm_bytes]
    exact Or.inl ⟨rfl, .frame body hl _⟩
  | tooLarge header ho _ =>
    rw [Source.calm_bytes]
    exact Or.inl ⟨rfl, .tooLarge header ho _⟩
  | halt hp hh =>
    rw [Source.calm_bytes]
    cases hh with
    | exhausted he => exact Or.inl ⟨he.fault?_eq, .halt hp (.exhausted he)⟩
    | ended he rest => exact Or.inl ⟨he.fault?_eq, .halt hp (.ended he _)⟩
    | failed fault rest =>
      rw [Source.calm_bytes, Source.calm_failed]
      exact Or.inr ⟨⟨fault, rfl⟩, rfl⟩

/-- What a call makes of what it found. -/
def told (α : Type) [Message α] :
    Except ProtocolError (Option ByteArray) → Except ProtocolError (Option α)
  | .error e => .error e
  | .ok none => .ok none
  | .ok (some body) => (decodeBody body).map some

theorem fault?_told (result : Except ProtocolError (Option ByteArray)) :
    fault? (told α result) = fault? result := by
  match result with
  | .error e => cases e <;> rfl
  | .ok none => rfl
  | .ok (some body) =>
    rw [told, decodeBody]
    cases Wire.decode (α := α) body <;> rfl

/-- A call tells what is ahead. -/
theorem read_finds (h : r.IsWithin) :
    ∃ result, (r.read (α := α)).1 = told α result ∧ Finds r.ahead result (r.read (α := α)).2.ahead ∧
      (r.read (α := α)).2.IsWithin ∧
      (fault? result = none → (r.read (α := α)).2.assembler.Holds []) := by
  obtain ⟨held, h⟩ := h
  have hreads := readBodyWithin_reads h (Nat.lt_succ_self r.source.weight)
  have hfinds := hreads.finds
  obtain ⟨held', hholds, hnil⟩ := hreads.holds
  rw [← ahead_of_holds h] at hfinds
  have hnew (hf : fault? (r.readBodyWithin (r.source.weight + 1)).1 = none) :
      (r.readBodyWithin (r.source.weight + 1)).2.assembler.Holds [] := by
    rw [← hnil hf]
    exact hholds
  have htold : r.read (α := α) = (told α (r.readBodyWithin (r.source.weight + 1)).1,
      (r.readBodyWithin (r.source.weight + 1)).2) := by
    rw [read]
    rcases r.readBodyWithin (r.source.weight + 1) with ⟨_ | _ | body, r'⟩ <;> rfl
  rw [htold]
  exact ⟨_, rfl, hfinds, ⟨held', hholds⟩, hnew⟩

/-- Readers with the same ahead of them give the same. -/
theorem read_congr (hr : r.IsWithin) (hq : q.IsWithin) (h : r.ahead = q.ahead) :
    (r.read (α := α)).1 = (q.read (α := α)).1 ∧
      (r.read (α := α)).2.ahead = (q.read (α := α)).2.ahead := by
  obtain ⟨result, hresult, hfinds, -⟩ := read_finds (α := α) hr
  obtain ⟨result', hresult', hfinds', -⟩ := read_finds (α := α) hq
  rw [h] at hfinds
  obtain ⟨rfl, hahead⟩ := hfinds.unique hfinds'
  exact ⟨hresult.trans hresult'.symm, hahead⟩

theorem isWithin_read (h : r.IsWithin) : (r.read (α := α)).2.IsWithin := by
  obtain ⟨result, -, -, hwithin, -⟩ := read_finds (α := α) h
  exact hwithin

theorem isWithin_readTimes (h : r.IsWithin) (n : Nat) : (r.readTimes α n).2.IsWithin := by
  induction n generalizing r with
  | zero => exact h
  | succ n ih => exact ih (isWithin_read h)

theorem readTimes_congr (hr : r.IsWithin) (hq : q.IsWithin) (h : r.ahead = q.ahead) (n : Nat) :
    (r.readTimes α n).1 = (q.readTimes α n).1 := by
  induction n generalizing r q with
  | zero => rfl
  | succ n ih =>
    obtain ⟨hresult, hahead⟩ := read_congr (α := α) hr hq h
    simp only [readTimes, hresult, ih (isWithin_read hr) (isWithin_read hq) hahead]

theorem readTimes_prefix (q : Reader) {k n : Nat} (h : k ≤ n) :
    (q.readTimes α k).1 <+: (q.readTimes α n).1 := by
  induction k generalizing q n with
  | zero => exact List.nil_prefix
  | succ k ih =>
    obtain ⟨n, rfl⟩ : ∃ n', n = n' + 1 := Nat.exists_eq_succ_of_ne_zero (by omega)
    exact List.cons_prefix_cons.mpr ⟨rfl, ih _ (by omega)⟩

/-- The failures ahead are those that calls report and those that are ahead behind them. -/
theorem readTimes_faults (h : r.IsWithin) (n : Nat) :
    r.ahead.filterMap Mark.fault? = (r.readTimes α n).1.filterMap fault? ++
      (r.readTimes α n).2.ahead.filterMap Mark.fault? := by
  induction n generalizing r with
  | zero => rfl
  | succ n ih =>
    obtain ⟨result, hresult, hfinds, hwithin, -⟩ := read_finds (α := α) h
    rw [hfinds.faults, ih hwithin]
    simp only [readTimes, hresult, List.filterMap_cons, fault?_told]
    cases fault? result <;> rfl

/-- Behind a failure the calls go on as the reader of the script without failures does; all other
calls give what that reader gives. -/
theorem readTimes_calm (hr : r.IsWithin) (hq : q.IsWithin) (h : q.ahead = Mark.calm r.ahead)
    (n : Nat) : ∃ k ≤ n, (r.readTimes α n).1.filter (fault? · |>.isNone) = (q.readTimes α k).1 := by
  induction n generalizing r q with
  | zero => exact ⟨0, Nat.le_refl 0, rfl⟩
  | succ n ih =>
    obtain ⟨result, hresult, hfinds, hwithin, -⟩ := read_finds (α := α) hr
    have htold : fault? (r.read (α := α)).1 = fault? result := by rw [hresult, fault?_told]
    rcases hfinds.calm with ⟨hfault, hcalm⟩ | ⟨⟨fault, hfault⟩, hcalm⟩
    · obtain ⟨result', hresult', hfinds', hwithin', -⟩ := read_finds (α := α) hq
      rw [h] at hfinds'
      obtain ⟨rfl, hahead⟩ := hfinds'.unique hcalm
      obtain ⟨k, hk, hrest⟩ := ih hwithin hwithin' hahead
      refine ⟨k + 1, by omega, ?_⟩
      rw [readTimes, readTimes, List.filter_cons_of_pos (by rw [htold, hfault]; rfl)]
      exact congrArg₂ List.cons (hresult.trans hresult'.symm) hrest
    · obtain ⟨k, hk, hrest⟩ := ih hwithin hq (h.trans hcalm.symm)
      refine ⟨k, by omega, ?_⟩
      rw [readTimes, List.filter_cons_of_neg (by rw [htold, hfault]; simp)]
      exact hrest

/-- Whether a reader holds nothing and goes on as a new one would from where the stream is. -/
def IsAfresh (α : Type) [Message α] (r : Reader) : Prop :=
  r.assembler.buffered = 0 ∧ ∀ n, (r.readTimes α n).1 = (readTimes α n ⟨r.source, {}⟩).1

theorem isAfresh_of_holds (h : r.assembler.Holds []) : r.IsAfresh α := by
  refine ⟨h.buffered, readTimes_congr ⟨[], h⟩ (isWithin_new _) ?_⟩
  rw [ahead_of_holds h, ahead_new]
  rfl

theorem Finds.of_transport {fault : Fault} (h : Finds m (.error (.transport fault)) rest) :
    ∃ (bytes : List UInt8) (rest' : List Mark),
      m = bytes.map .byte ++ .failed fault :: rest' ∧ rest = bytes.map .byte ++ rest' := by
  cases h with
  | halt hp hh =>
    cases hh with
    | exhausted he => cases he
    | ended he => cases he
    | failed fault rest => exact ⟨_, rest, rfl, rfl⟩

theorem Finds.of_closed {expected received : Nat}
    (h : Finds m (.error (.frame (.closed expected received))) rest) :
    ∃ cut : List UInt8, lastPart cut = (expected, received) ∧
      (m = cut.map .byte ∧ rest = [] ∨ m = cut.map .byte ++ .ended :: rest) := by
  cases h with
  | halt hp hh =>
    cases hh with
    | exhausted he =>
      cases he
      exact ⟨_, rfl, Or.inl ⟨List.append_nil _, rfl⟩⟩
    | ended he rest =>
      cases he
      exact ⟨_, rfl, Or.inr rfl⟩

theorem eq_of_fault? {result : Except ProtocolError (Option ByteArray)} {fault : Fault}
    (h : fault? result = some fault) : result = .error (.transport fault) := by
  match result with
  | .error (.transport fault') => cases h; rfl

/-- What is wrong with a frame is told as it was found. -/
theorem eq_of_told_frame {result : Except ProtocolError (Option ByteArray)} {e : Error}
    (h : told α result = .error (.frame e)) : result = .error (.frame e) := by
  match result with
  | .error e' => cases h; rfl
  | .ok (some body) => exact absurd h (decodeBody_ne body e).2

/-- A malformed message is found in a frame. -/
theorem Finds.of_malformed {e : Wire.Error} (h : Finds m result rest)
    (ht : told α result = .error (.envelope e)) :
    ∃ body : ByteArray, body.size ≤ sizeLimit ∧ Wire.decode (α := α) body = .error e ∧
      m = (Frame.frame body.data.toList).map .byte ++ rest := by
  cases h with
  | frame body hl rest =>
    refine ⟨body, hl, ?_, rfl⟩
    rw [told, decodeBody] at ht
    cases hd : Wire.decode (α := α) body with
    | ok m => rw [hd] at ht; cases ht
    | error e' => rw [hd] at ht; cases ht; rfl
  | tooLarge header ho rest => cases ht
  | halt hp hh =>
    cases hh with
    | exhausted he => cases he <;> cases ht
    | ended he => cases he <;> cases ht
    | failed => cases ht

/-! One call. -/

/-- A failure that is reported does not go away, and takes nothing but itself from the stream. -/
theorem read_failed (h : r.IsWithin) {fault : Fault}
    (hf : (r.read (α := α)).1 = .error (.transport fault)) :
    ¬ fault.isTransient ∧ ∃ (bytes : List UInt8) (rest : List Mark),
      r.ahead = bytes.map .byte ++ .failed fault :: rest ∧
        (r.read (α := α)).2.ahead = bytes.map .byte ++ rest := by
  obtain ⟨result, hresult, hfinds, -, -⟩ := read_finds (α := α) h
  have hfound : result = .error (.transport fault) := by
    apply eq_of_fault?
    rw [← fault?_told (α := α), ← hresult]
    exact congrArg fault? hf
  rw [hfound] at hfinds
  obtain ⟨bytes, rest, hahead, hrest⟩ := hfinds.of_transport
  refine ⟨?_, bytes, rest, hahead, hrest⟩
  have hmem : fault ∈ r.source.faults := by
    rw [← faults_ahead, hahead, Source.filterMap_bytes]
    exact List.mem_cons_self
  exact Source.not_isTransient_of_mem_faults hmem

/-- Behind a malformed message stands the next frame. -/
theorem read_malformed (h : r.IsWithin) {e : Wire.Error}
    (he : (r.read (α := α)).1 = .error (.envelope e)) :
    (r.read (α := α)).2.IsAfresh α ∧ ∃ body : ByteArray,
      body.size ≤ sizeLimit ∧ Wire.decode (α := α) body = .error e ∧
        r.ahead = (frame body.data.toList).map .byte ++ (r.read (α := α)).2.source.marks := by
  obtain ⟨result, hresult, hfinds, -, hholds⟩ := read_finds (α := α) h
  have htold : told α result = .error (.envelope e) := hresult.symm.trans he
  have hnone : fault? result = none := by
    rw [← fault?_told (α := α), htold]
    rfl
  obtain ⟨body, hl, hdecode, hahead⟩ := hfinds.of_malformed htold
  rw [ahead_of_holds (hholds hnone)] at hahead
  exact ⟨isAfresh_of_holds (hholds hnone), body, hl, hdecode, hahead⟩

/-- Of a frame that is cut off nothing is left. -/
theorem read_closed (h : r.IsWithin) {expected received : Nat}
    (hc : (r.read (α := α)).1 = .error (.frame (.closed expected received))) :
    (r.read (α := α)).2.IsAfresh α ∧ ∃ cut : List UInt8, lastPart cut = (expected, received) ∧
      (r.ahead = cut.map .byte ∧ (r.read (α := α)).2.source.marks = [] ∨
        r.ahead = cut.map .byte ++ .ended :: (r.read (α := α)).2.source.marks) := by
  obtain ⟨result, hresult, hfinds, -, hholds⟩ := read_finds (α := α) h
  have hfound := eq_of_told_frame (hresult.symm.trans hc)
  rw [hfound] at hfinds hholds
  obtain ⟨cut, hcut, hahead⟩ := hfinds.of_closed
  rw [ahead_of_holds (hholds rfl)] at hahead
  exact ⟨isAfresh_of_holds (hholds rfl), cut, hcut, hahead⟩

end Reader

/-- Failed reads lose nothing: a failure that goes away is not seen, every other one that is reached
is reported by one call, and all other calls give what they would on the script without failures. A
call behind a malformed message starts at the next frame, and one behind the end of the stream
within a frame starts afresh. -/
theorem readTimes_recovers (script : Source) (n : Nat) :
    let run := Reader.readTimes α n ⟨script, {}⟩
    let next : Except ProtocolError (Option α) × Reader := run.2.read
    run.1 = (Reader.readTimes α n ⟨script.steadied, {}⟩).1 ∧
      script.faults = run.1.filterMap Reader.fault? ++ run.2.source.faults ∧
      run.1.filter (Reader.fault? · |>.isNone) <+: (Reader.readTimes α n ⟨script.calm, {}⟩).1 ∧
      (∀ fault, next.1 = .error (.transport fault) →
        ¬ fault.isTransient ∧ ∃ (bytes : List UInt8) (rest : List Mark),
          run.2.ahead = bytes.map .byte ++ .failed fault :: rest ∧
            next.2.ahead = bytes.map .byte ++ rest) ∧
      (∀ e, next.1 = .error (.envelope e) →
        next.2.IsAfresh α ∧ ∃ body : ByteArray,
          body.size ≤ sizeLimit ∧ Wire.decode (α := α) body = .error e ∧
            run.2.ahead = (frame body.data.toList).map .byte ++ next.2.source.marks) ∧
      ∀ expected received, next.1 = .error (.frame (.closed expected received)) →
        next.2.IsAfresh α ∧ ∃ cut : List UInt8, lastPart cut = (expected, received) ∧
          (run.2.ahead = cut.map .byte ∧ next.2.source.marks = [] ∨
            run.2.ahead = cut.map .byte ++ .ended :: next.2.source.marks) := by
  intro run next
  have hnew := Reader.isWithin_new script
  have hwithin : run.2.IsWithin := Reader.isWithin_readTimes hnew n
  have hfaults := Reader.readTimes_faults (α := α) hnew n
  rw [Reader.ahead_new, ← Source.faults_eq, Reader.faults_ahead] at hfaults
  refine ⟨?_, hfaults, ?_, fun _ => Reader.read_failed hwithin,
    fun _ => Reader.read_malformed hwithin, fun _ _ => Reader.read_closed hwithin⟩
  · refine Reader.readTimes_congr hnew (Reader.isWithin_new _) ?_ n
    rw [Reader.ahead_new, Reader.ahead_new, Source.marks_steadied]
  · obtain ⟨k, hk, hcalm⟩ := Reader.readTimes_calm (α := α) hnew
      (Reader.isWithin_new script.calm)
      (by rw [Reader.ahead_new, Reader.ahead_new, Source.marks_calm]) n
    rw [hcalm]
    exact Reader.readTimes_prefix _ hk

/-- Failures within the header and within the body, one of which goes away. -/
example :
    let reset : Fault := .ofSystem .connectionReset
    let script : Source := [.data (.ofBytes ⟨#[0, 0]⟩), .failed reset,
      .data (.ofBytes ⟨#[0, 2, 8]⟩), .failed ⟨.interrupted, ""⟩, .failed reset,
      .data (.ofBytes ⟨#[5, 0]⟩), .ended]
    (Reader.readTimes Envelope.Server 5 ⟨script, {}⟩).1 =
      [.error (.transport reset), .error (.transport reset), .ok (some { status := 5 }),
        .error (.frame (.closed 4 1)), .ok none] := by
  cbv

end Frame
end Gallows
