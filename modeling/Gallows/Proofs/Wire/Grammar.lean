import Gallows.Proofs.Except
import Gallows.Proofs.Wire.RoundTrip

/-!
The grammar of protobuf messages, whoever wrote them: integers with zeros on top, fields in any
order, and groups within groups. What the grammar lays out is read or skipped as a whole.
-/
namespace Gallows.Wire

variable {c d : Cursor} {bs t : List UInt8} {n budget depth fuel number : Nat} {k : Key}

/-- The number that bytes spell in base 128, the least significant first, each but the last with its
top bit set. There may be zeros on top. -/
inductive Base128 : Nat → List UInt8 → Prop
  | last (b : UInt8) (h : b < 128) : Base128 b.toNat [b]
  | more (b : UInt8) (h : ¬ b < 128) {n : Nat} {bs : List UInt8} (rest : Base128 n bs) :
      Base128 (b.toNat - 128 + 128 * n) (b :: bs)

/-- The ways to write an integer of 64 bits: in ten bytes at most. -/
structure Integer (n : Nat) (bs : List UInt8) : Prop where
  digits : Base128 n bs
  length_le : bs.length ≤ 10
  lt : n < 2 ^ 64

/-- The ways to write a key: an integer of 32 bits. -/
structure Key.Written (k : Key) (bs : List UInt8) : Prop where
  pos : 0 < k.number
  lt : 8 * k.number + k.wireType.code < 2 ^ 32
  integer : Integer (8 * k.number + k.wireType.code) bs

/-- What may stand behind a key. -/
inductive Value
  | varint (n : Nat)
  | fixed64 (bytes : List UInt8)
  | chunk (bytes : List UInt8)
  | group (fields : List (Nat × Value))
  | fixed32 (bytes : List UInt8)

/-- The number of a field, and its value. -/
abbrev Field := Nat × Value

/-- How a value is laid out. -/
def Value.wireType : Value → WireType
  | varint _ => .varint
  | fixed64 _ => .fixed64
  | chunk _ => .lengthDelimited
  | group _ => .groupStart
  | fixed32 _ => .fixed32

/-- The key of a field. -/
def Field.key (f : Field) : Key := ⟨f.1, f.2.wireType⟩

mutual

/-- The ways to write the value of the field `number`, with values at most `depth` deep. A group
ends with a key of its own. -/
inductive Value.Laid : (depth number : Nat) → Value → List UInt8 → Prop
  | varint {depth number n : Nat} {bs : List UInt8} (h : Integer n bs) :
      Value.Laid (depth + 1) number (.varint n) bs
  | fixed64 {depth number : Nat} {bytes : List UInt8} (h : bytes.length = 8) :
      Value.Laid (depth + 1) number (.fixed64 bytes) bytes
  | chunk {depth number : Nat} {size bytes : List UInt8} (h : Integer bytes.length size) :
      Value.Laid (depth + 1) number (.chunk bytes) (size ++ bytes)
  | group {depth number : Nat} {fields : List Field} {inner last : List UInt8}
      (h : Laid depth fields inner) (hlast : Key.Written ⟨number, .groupEnd⟩ last) :
      Value.Laid (depth + 1) number (.group fields) (inner ++ last)
  | fixed32 {depth number : Nat} {bytes : List UInt8} (h : bytes.length = 4) :
      Value.Laid (depth + 1) number (.fixed32 bytes) bytes

/-- The ways to write fields one after another. -/
inductive Laid : (depth : Nat) → List Field → List UInt8 → Prop
  | nil {depth : Nat} : Laid depth [] []
  | cons {depth : Nat} {f : Field} {fields : List Field} {key value rest : List UInt8}
      (hkey : f.key.Written key) (hvalue : Value.Laid depth f.1 f.2 value)
      (hrest : Laid depth fields rest) : Laid depth (f :: fields) (key ++ (value ++ rest))

end

theorem Base128.ne_nil (h : Base128 n bs) : bs ≠ [] := by
  cases h <;> simp

theorem Key.Written.ne_nil (h : k.Written bs) : bs ≠ [] := h.integer.digits.ne_nil

/-! What is laid out is read. -/

theorem readVarintWithin_base128 (h : Base128 n bs) (hl : bs.length ≤ budget + 1)
    (hn : n < 2 * 128 ^ budget) (hc : c.rest = bs ++ t) :
    ∃ d, readVarintWithin (budget + 1) c = some (n, d) ∧ d.rest = t := by
  induction h generalizing budget c with
  | last b hb =>
    obtain ⟨d, hd, ht⟩ := Cursor.next?_of_rest hc
    have hbit : ¬ (budget = 0 ∧ 1 < b) := by
      rintro ⟨rfl, h1⟩
      rw [UInt8.lt_iff_toNat_lt] at h1
      simp at hn h1
      omega
    refine ⟨d, ?_, ht⟩
    simp only [readVarintWithin, hd, Option.bind_eq_bind, Option.bind_some, hb, if_true, hbit,
      if_false]
  | @more b hb n bs rest ih =>
    obtain ⟨d, hd, ht⟩ := Cursor.next?_of_rest hc
    have hsome : 0 < bs.length := List.length_pos_iff.mpr rest.ne_nil
    rw [List.length_cons] at hl
    obtain ⟨budget, rfl⟩ : ∃ m, budget = m + 1 := Nat.exists_eq_succ_of_ne_zero (by omega)
    have hhigh : n < 2 * 128 ^ budget := by
      rw [Nat.pow_succ] at hn
      omega
    obtain ⟨e, he, ht'⟩ := ih (by omega) hhigh ht
    refine ⟨e, ?_, ht'⟩
    rw [readVarintWithin]
    simp only [hd, Option.bind_eq_bind, Option.bind_some, hb, if_false, he]

theorem Integer.read (h : Integer n bs) (hc : c.rest = bs ++ t) :
    ∃ d, readInteger c = .ok (n, d) ∧ d.rest = t := by
  have hlt := h.lt
  obtain ⟨d, hd, ht⟩ :=
    readVarintWithin_base128 h.digits h.length_le (show n < 2 * 128 ^ 9 by omega) hc
  exact ⟨d, by simp only [readInteger, readVarint, hd], ht⟩

theorem Key.Written.read (h : k.Written bs) (hc : c.rest = bs ++ t) :
    ∃ d, readKey c = .ok (k, d) ∧ d.rest = t := by
  obtain ⟨d, hd, ht⟩ := h.integer.read hc
  have hcode : k.wireType.code < 8 := by cases k.wireType <;> decide
  have hsize : ¬ 0x100000000 ≤ 8 * k.number + k.wireType.code := Nat.not_le.mpr h.lt
  have hmod : (8 * k.number + k.wireType.code) % 8 = k.wireType.code := by omega
  have hdiv : (8 * k.number + k.wireType.code) / 8 = k.number := by omega
  refine ⟨d, ?_, ht⟩
  simp [readKey, hd, bind, Except.bind, hsize, hmod, hdiv, WireType.ofCode?_code,
    Nat.ne_of_gt h.pos, pure, Except.pure]

theorem readChunk_integer {size bytes : List UInt8} (h : Integer bytes.length size)
    (hc : c.rest = size ++ (bytes ++ t)) :
    ∃ d, readChunk c = .ok (bytes.toByteArray, d) ∧ d.rest = t := by
  obtain ⟨d, hd, ht⟩ := h.read hc
  obtain ⟨e, he, ht'⟩ := Cursor.take?_of_rest ht
  exact ⟨e, by simp [readChunk, hd, he, bind, Except.bind], ht'⟩

theorem skipBytes_of_rest (hc : c.rest = bs ++ t) :
    ∃ d, skipBytes bs.length c = .ok d ∧ d.rest = t := by
  have hle : bs.length ≤ c.remaining := by
    rw [← c.length_rest, hc]
    simp
  obtain ⟨d, hd⟩ : ∃ d, c.skip? bs.length = some d := ⟨_, if_pos hle⟩
  refine ⟨d, by rw [skipBytes, hd], ?_⟩
  rw [Cursor.rest_of_skip? hd, hc, List.drop_left]

mutual

/-- A value that is laid out is skipped as a whole. -/
theorem Value.Laid.skip {depth number : Nat} {value : Value} {bs t : List UInt8} {c : Cursor}
    (h : Value.Laid depth number value bs) (hc : c.rest = bs ++ t) :
    ∃ d, skipValue depth ⟨number, value.wireType⟩ c = .ok d ∧ d.rest = t := by
  cases h with
  | varint h =>
    obtain ⟨d, hd, ht⟩ := h.read hc
    exact ⟨d, by simp [skipValue, Value.wireType, hd, bind, Except.bind, pure, Except.pure], ht⟩
  | fixed64 h =>
    obtain ⟨d, hd, ht⟩ := skipBytes_of_rest hc
    exact ⟨d, by simpa [skipValue, Value.wireType, h] using hd, ht⟩
  | chunk h =>
    rw [List.append_assoc] at hc
    obtain ⟨d, hd, ht⟩ := h.read hc
    obtain ⟨e, he, ht'⟩ := skipBytes_of_rest ht
    exact ⟨e, by simp [skipValue, Value.wireType, hd, he, bind, Except.bind], ht'⟩
  | group h hlast =>
    rw [List.append_assoc] at hc
    exact Laid.skipGroup h hlast hc (Nat.lt_succ_self c.remaining)
  | fixed32 h =>
    obtain ⟨d, hd, ht⟩ := skipBytes_of_rest hc
    exact ⟨d, by simpa [skipValue, Value.wireType, h] using hd, ht⟩

/-- Fields that are laid out are skipped up to the end of their group. -/
theorem Laid.skipGroup {depth number fuel : Nat} {fields : List Field} {bs last t : List UInt8}
    {c : Cursor} (h : Laid depth fields bs) (hlast : Key.Written ⟨number, .groupEnd⟩ last)
    (hc : c.rest = bs ++ (last ++ t)) (hf : c.remaining < fuel) :
    ∃ d, Wire.skipGroup (skipValue depth) number fuel c = .ok d ∧ d.rest = t := by
  obtain ⟨fuel, rfl⟩ : ∃ m, fuel = m + 1 := Nat.exists_eq_succ_of_ne_zero (by omega)
  cases h with
  | nil =>
    obtain ⟨d, hd, ht⟩ := hlast.read hc
    exact ⟨d, by simp [Wire.skipGroup, hd, bind, Except.bind, pure, Except.pure], ht⟩
  | @cons _ f fields key value rest hkey hvalue hrest =>
    rw [List.append_assoc, List.append_assoc] at hc
    obtain ⟨d, hd, ht⟩ := hkey.read hc
    obtain ⟨e, he, ht'⟩ := Value.Laid.skip hvalue ht
    have hsome : 0 < key.length := List.length_pos_iff.mpr hkey.ne_nil
    have hfewer : e.remaining < fuel := by
      have hlen := congrArg List.length hc
      rw [c.length_rest, List.length_append, List.length_append, ← ht', e.length_rest] at hlen
      omega
    obtain ⟨g, hg, ht''⟩ := Laid.skipGroup hrest hlast ht' hfewer
    have hinner : f.key.wireType ≠ .groupEnd := by
      rw [Field.key]
      cases f.2 <;> simp [Value.wireType]
    refine ⟨g, ?_, ht''⟩
    simp only [Wire.skipGroup, hd, bind, Except.bind, if_neg hinner]
    rw [Field.key, he]
    exact hg

end

/-! What has been read stays read when more follows. -/

section Stable

variable {ε α β : Type}

/-- Whether what a reader has read stays read when more follows. -/
def Stable (read : Cursor → Except ε (α × Cursor)) : Prop :=
  ∀ (c c' d : Cursor) (x : α) (t : List UInt8), read c = .ok (x, d) → c'.rest = c.rest ++ t →
    ∃ d', read c' = .ok (x, d') ∧ d'.rest = d.rest ++ t

/-- Whether what has been skipped stays skipped when more follows. -/
def StableSkip (skip : Cursor → Except ε Cursor) : Prop :=
  ∀ (c c' d : Cursor) (t : List UInt8), skip c = .ok d → c'.rest = c.rest ++ t →
    ∃ d', skip c' = .ok d' ∧ d'.rest = d.rest ++ t

theorem stable_ok (x : α) : Stable (ε := ε) fun c => .ok (x, c) := by
  intro c c' d y t h hc
  cases h
  exact ⟨c', rfl, hc⟩

theorem stable_error (e : ε) : Stable (α := α) fun _ => .error e := nofun

theorem Stable.bind {read : Cursor → Except ε (α × Cursor)} (h : Stable read)
    (next : α → Cursor → Except ε (β × Cursor)) (hn : ∀ x, Stable (next x)) :
    Stable fun c => read c >>= fun r => next r.1 r.2 := by
  intro c c' d y t hr hc
  obtain ⟨⟨x, e⟩, hx, hy⟩ := bind_eq_ok hr
  obtain ⟨e', hx', ht⟩ := h c c' e x t hx hc
  obtain ⟨d', hy', ht'⟩ := hn x e e' d y t hy ht
  exact ⟨d', by simp only [hx', Bind.bind, Except.bind, hy'], ht'⟩

theorem Stable.skip {read : Cursor → Except ε (α × Cursor)} (h : Stable read)
    (next : α → Cursor → Except ε Cursor) (hn : ∀ x, StableSkip (next x)) :
    StableSkip fun c => read c >>= fun r => next r.1 r.2 := by
  intro c c' d t hr hc
  obtain ⟨⟨x, e⟩, hx, hd⟩ := bind_eq_ok hr
  obtain ⟨e', hx', ht⟩ := h c c' e x t hx hc
  obtain ⟨d', hd', ht'⟩ := hn x e e' d t hd ht
  exact ⟨d', by simp only [hx', Bind.bind, Except.bind, hd'], ht'⟩

theorem StableSkip.read {skip : Cursor → Except ε Cursor} (h : StableSkip skip) (x : α) :
    Stable fun c => skip c >>= fun d => .ok (x, d) := by
  intro c c' d y t hr hc
  obtain ⟨e, he, hd⟩ := bind_eq_ok hr
  cases hd
  obtain ⟨e', he', ht⟩ := h c c' d t he hc
  exact ⟨e', by simp only [he', Bind.bind, Except.bind], ht⟩

theorem StableSkip.mapError {ε' : Type} {skip : Cursor → Except ε Cursor} (h : StableSkip skip)
    (f : ε → ε') : StableSkip fun c => (skip c).mapError f := by
  intro c c' d t hr hc
  obtain ⟨d', hd', ht⟩ := h c c' d t (mapError_eq_ok.mp hr) hc
  exact ⟨d', mapError_eq_ok.mpr hd', ht⟩

theorem Stable.mapError {ε' : Type} {read : Cursor → Except ε (α × Cursor)} (h : Stable read)
    (f : ε → ε') : Stable fun c => (read c).mapError f := by
  intro c c' d x t hr hc
  obtain ⟨d', hd', ht⟩ := h c c' d x t (mapError_eq_ok.mp hr) hc
  exact ⟨d', mapError_eq_ok.mpr hd', ht⟩

end Stable

theorem readVarintWithin_stable {c' : Cursor} (h : readVarintWithin budget c = some (n, d))
    (hc : c'.rest = c.rest ++ t) :
    ∃ d', readVarintWithin budget c' = some (n, d') ∧ d'.rest = d.rest ++ t := by
  induction budget generalizing n c c' d with
  | zero => cases h
  | succ budget ih =>
    simp only [readVarintWithin, Option.bind_eq_bind, Option.bind_eq_some_iff, Prod.exists] at h ⊢
    obtain ⟨b, e, hb, h⟩ := h
    rw [Cursor.rest_of_next? hb] at hc
    obtain ⟨e', he', ht⟩ := Cursor.next?_of_rest hc
    split at h
    · rename_i hlast
      split at h
      · cases h
      · rename_i hbit
        cases h
        exact ⟨e', ⟨b, e', he', by rw [if_pos hlast, if_neg hbit]⟩, ht⟩
    · rename_i hmore
      simp only [Option.bind_eq_some_iff, Prod.exists] at h
      obtain ⟨high, g, hg, h⟩ := h
      cases h
      obtain ⟨g', hg', ht'⟩ := ih hg ht
      exact ⟨g', ⟨b, e', he', by rw [if_neg hmore, hg']; rfl⟩, ht'⟩

theorem readInteger_stable : Stable readInteger := by
  intro c c' d n t h hc
  rw [readInteger, readVarint] at h
  split at h
  · rename_i hr
    cases h
    obtain ⟨d', hd', ht⟩ := readVarintWithin_stable hr hc
    exact ⟨d', by simp only [readInteger, readVarint, hd'], ht⟩
  · cases h

theorem readKey_stable : Stable readKey := by
  intro c c' d k t h hc
  obtain ⟨⟨value, e⟩, hr, h⟩ := bind_eq_ok h
  obtain ⟨e', hr', ht⟩ := readInteger_stable c c' e value t hr hc
  simp only [readKey, hr', bind, Except.bind] at h ⊢
  split at h
  · cases h
  · rename_i hsize
    split at h
    · split at h
      · cases h
      · rename_i hnumber
        cases h
        exact ⟨e', by simp only [if_neg hsize, if_neg hnumber]; rfl, ht⟩
    · cases h

theorem take?_stable {c' : Cursor} {chunk : ByteArray} (h : c.take? n = some (chunk, d))
    (hc : c'.rest = c.rest ++ t) :
    ∃ d', c'.take? n = some (chunk, d') ∧ d'.rest = d.rest ++ t := by
  obtain ⟨hchunk, hd⟩ := Cursor.rest_of_take? h
  have hle : n ≤ c.rest.length := Cursor.take?_isSome_iff.mp (by rw [h]; rfl)
  have hlen : (c.rest.take n).length = n := List.length_take_of_le hle
  have hsplit : c'.rest = c.rest.take n ++ (d.rest ++ t) := by
    rw [hc, hd, ← List.append_assoc, List.take_append_drop]
  obtain ⟨d', hd', ht⟩ := Cursor.take?_of_rest hsplit
  have hbytes : (c.rest.take n).toByteArray = chunk := by
    apply ByteArray.ext
    simp [← hchunk]
  rw [hlen, hbytes] at hd'
  exact ⟨d', hd', ht⟩

theorem readChunk_stable : Stable readChunk := by
  intro c c' d chunk t h hc
  obtain ⟨⟨size, e⟩, hsize, h⟩ := bind_eq_ok h
  obtain ⟨e', hsize', ht⟩ := readInteger_stable c c' e size t hsize hc
  cases hr : e.take? size with
  | none => simp [hr] at h
  | some r =>
    simp only [hr, Except.ok.injEq] at h
    subst h
    obtain ⟨d', hd', ht'⟩ := take?_stable hr ht
    exact ⟨d', by simp only [readChunk, hsize', hd', bind, Except.bind], ht'⟩

theorem skipBytes_stable (n : Nat) : StableSkip (skipBytes n) := by
  intro c c' d t h hc
  rw [skipBytes] at h
  split at h
  · rename_i hr
    cases h
    have hle : n ≤ c.rest.length := by
      rw [c.length_rest]
      by_contra hlt
      rw [Cursor.skip?, if_neg hlt] at hr
      cases hr
    have hlen : (c.rest.take n).length = n := List.length_take_of_le hle
    have hsplit : c'.rest = c.rest.take n ++ (d.rest ++ t) := by
      rw [hc, Cursor.rest_of_skip? hr, ← List.append_assoc, List.take_append_drop]
    obtain ⟨d', hd', ht⟩ := skipBytes_of_rest hsplit
    rw [hlen] at hd'
    exact ⟨d', hd', ht⟩
  · cases h

theorem skipGroup_stable {skip : Key → Cursor → Except Cause Cursor}
    (hs : ∀ key, StableSkip (skip key)) {c' : Cursor} {fuel' : Nat} (hf : fuel ≤ fuel')
    (h : skipGroup skip number fuel c = .ok d) (hc : c'.rest = c.rest ++ t) :
    ∃ d', skipGroup skip number fuel' c' = .ok d' ∧ d'.rest = d.rest ++ t := by
  induction fuel generalizing c c' fuel' with
  | zero => cases h
  | succ fuel ih =>
    obtain ⟨fuel', rfl⟩ : ∃ m, fuel' = m + 1 := Nat.exists_eq_succ_of_ne_zero (by omega)
    obtain ⟨⟨key, e⟩, hkey, h⟩ := bind_eq_ok h
    obtain ⟨e', hkey', ht⟩ := readKey_stable c c' e key t hkey hc
    simp only [skipGroup, hkey', Bind.bind, Except.bind]
    by_cases hend : key.wireType = .groupEnd
    · simp only [if_pos hend] at h ⊢
      by_cases hnumber : key.number = number
      · rw [if_pos hnumber] at h ⊢
        cases h
        exact ⟨e', rfl, ht⟩
      · rw [if_neg hnumber] at h
        cases h
    · simp only [if_neg hend] at h ⊢
      obtain ⟨g, hg, h⟩ := bind_eq_ok h
      obtain ⟨g', hg', ht'⟩ := hs key e e' g t hg ht
      simp only [hg']
      exact ih (Nat.le_of_succ_le_succ hf) h ht'

theorem skipValue_stable (depth : Nat) (key : Key) : StableSkip (skipValue depth key) := by
  induction depth generalizing key with
  | zero => exact nofun
  | succ depth ih =>
    obtain ⟨number, wireType⟩ := key
    cases wireType with
    | varint =>
      exact readInteger_stable.skip (fun _ c => .ok c) fun _ c c' d t h hc => by
        cases h
        exact ⟨c', rfl, hc⟩
    | fixed64 => exact skipBytes_stable 8
    | fixed32 => exact skipBytes_stable 4
    | lengthDelimited => exact readInteger_stable.skip skipBytes skipBytes_stable
    | groupStart =>
      intro c c' d t h hc
      have hle : c.remaining + 1 ≤ c'.remaining + 1 := by
        rw [← c.length_rest, ← c'.length_rest, hc, List.length_append]
        omega
      exact skipGroup_stable ih hle h hc
    | groupEnd => exact nofun

theorem Stable.expecting {α : Type} {read : Read α} (h : Stable read) (wireType : WireType)
    (key : Key) : Stable fun c => expect wireType key >>= fun _ => read c := by
  cases hk : expect wireType key with
  | error cause => exact stable_error cause
  | ok => exact h

theorem readInt32_stable (key : Key) : Stable (readInt32 key) :=
  (readInteger_stable.bind (fun value c => .ok (value.toUInt32.toInt32, c)) fun value =>
    stable_ok value.toUInt32.toInt32).expecting .varint key

theorem readBytes_stable (key : Key) : Stable (readBytes key) :=
  readChunk_stable.expecting .lengthDelimited key

theorem readText_stable (key : Key) : Stable (readText key) := by
  intro c c' d text t h hc
  obtain ⟨_, hkey, h⟩ := bind_eq_ok h
  obtain ⟨⟨bytes, e⟩, hbytes, h⟩ := bind_eq_ok h
  obtain ⟨e', hbytes', ht⟩ := readChunk_stable c c' e bytes t hbytes hc
  cases htext : String.fromUTF8? bytes with
  | none => simp [htext] at h
  | some read =>
    simp only [htext] at h
    cases h
    exact ⟨e', by simp only [readText, hkey, hbytes', htext, bind, Except.bind], ht⟩

theorem merging_stable {α β : Type} {read : Read β} (h : Stable read) (message field : String)
    (put : β → α) : Stable (merging message field read put) :=
  (h.mapError _).bind (fun value c => .ok (put value, c)) fun value => stable_ok (put value)

section Fields

variable {α : Type} [Message α] {m m' : α} {written part rest : List UInt8}

/-- A message whose readers are all stable takes in a field in the same way when more follows. -/
theorem mergeField_stable (hm : ∀ key merge, Message.merge? m key = some merge → Stable merge) :
    Stable (mergeField m) := by
  intro c c' d m' t h hc
  obtain ⟨⟨key, e⟩, hkey, h⟩ := bind_eq_ok h
  obtain ⟨e', hkey', ht⟩ := readKey_stable.mapError _ c c' e key t hkey hc
  cases hk : Message.merge? m key with
  | some merge =>
    simp only [hk] at h
    obtain ⟨d', hd', ht'⟩ := hm key merge hk e e' d m' t h ht
    exact ⟨d', by simp only [mergeField, hkey', hk, hd', bind, Except.bind], ht'⟩
  | none =>
    simp only [hk] at h
    have hskip :=
      ((skipValue_stable depthLimit key).mapError fun cause => ({ cause } : Error)).read m
    obtain ⟨d', hd', ht'⟩ := hskip e e' d m' t h ht
    refine ⟨d', ?_, ht'⟩
    simp only [mergeField, hkey', hk, bind, Except.bind]
    exact hd'

/-- A field that ends too soon is not taken in. -/
theorem Merges.cut (hm : ∀ key merge, Message.merge? m key = some merge → Stable merge)
    (h : Merges m (part ++ rest) m') (hr : rest ≠ []) (hc : c.rest = part) :
    ∃ e, mergeField m c = .error e := by
  cases hx : mergeField m c with
  | error e => exact ⟨e, rfl⟩
  | ok r =>
    let whole := Cursor.ofBytes (part ++ rest).toByteArray
    have hwhole : whole.rest = c.rest ++ rest := by
      rw [Cursor.rest_ofBytes, hc]
      simp
    obtain ⟨d', hd', ht⟩ := mergeField_stable hm c whole r.2 r.1 rest hx hwhole
    obtain ⟨d'', hd'', ht''⟩ := h whole [] (by rw [hwhole, hc, List.append_nil])
    rw [hd'] at hd''
    cases hd''
    rw [ht''] at ht
    exact absurd (List.append_eq_nil_iff.mp ht.symm).2 hr

/-- A field that the message does not know leaves it as it is. -/
theorem merges_unknown {f : Field} {key value : List UInt8} (hkey : f.key.Written key)
    (hvalue : Value.Laid depthLimit f.1 f.2 value) (hm : Message.merge? m f.key = none) :
    Merges m (key ++ value) m := by
  intro c t hc
  rw [List.append_assoc] at hc
  obtain ⟨d, hd, ht⟩ := hkey.read hc
  obtain ⟨e, he, ht'⟩ := hvalue.skip ht
  have hskip : skipValue depthLimit f.key d = .ok e := he
  exact ⟨e, by simp [mergeField, hd, hm, hskip, bind, Except.bind, pure, Except.pure,
    Except.mapError], ht'⟩

/-- Where a message cannot take in what follows, no bytes that go on like this can be read. -/
theorem Absorbs.decode_error {bytes : ByteArray} {bad : List UInt8}
    (h : Absorbs Message.empty written m) (hb : bytes.data.toList = written ++ bad)
    (hne : bad ≠ []) (hbad : ∀ c : Cursor, c.rest = bad → ∃ e, mergeField m c = .error e) :
    ∃ e, (Wire.decode bytes : Except Error α) = .error e := by
  have hrest : (Cursor.ofBytes bytes).rest = written ++ bad := by
    rw [Cursor.rest_ofBytes, hb]
  have hsize : (Cursor.ofBytes bytes).remaining ≤ bytes.size := Nat.le_of_eq (Nat.sub_zero _)
  obtain ⟨d, fuel, hd, hf, heq⟩ := h _ _ _ hrest hsize
  obtain ⟨e, he⟩ := hbad d hd
  have hsome : 0 < d.remaining := by
    rw [← d.length_rest, hd]
    exact List.length_pos_iff.mpr hne
  obtain ⟨fuel, rfl⟩ : ∃ n, fuel = n + 1 := Nat.exists_eq_succ_of_ne_zero (by omega)
  refine ⟨e, ?_⟩
  rw [Wire.decode, heq, mergeFields.eq_def]
  simp only [if_neg (Nat.ne_of_gt hsome), he, bind, Except.bind]

end Fields

end Gallows.Wire
