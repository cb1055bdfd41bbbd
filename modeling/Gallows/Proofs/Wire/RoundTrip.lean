import Gallows.Envelope
import Mathlib

/-!
What is written of a message reads back, whatever follows it. A message takes in the parts of its
written form one after another, and what it is when they are used up is what was written.
-/
namespace Gallows

variable {c d : Cursor} {b : UInt8} {s t : List UInt8} {n : Nat}

namespace Cursor

theorem next?_of_rest (h : c.rest = b :: t) : ∃ d, c.next? = some (b, d) ∧ d.rest = t := by
  cases hn : c.next? with
  | none =>
    rw [next?_eq_none_iff.mp hn] at h
    cases h
  | some r =>
    obtain ⟨b', d⟩ := r
    have hr := rest_of_next? hn
    rw [h] at hr
    obtain ⟨rfl, rfl⟩ := List.cons.inj hr
    exact ⟨d, rfl, rfl⟩

theorem take?_of_rest (h : c.rest = s ++ t) :
    ∃ d, c.take? s.length = some (s.toByteArray, d) ∧ d.rest = t := by
  have hs : (c.take? s.length).isSome := take?_isSome_iff.mpr (by rw [h]; simp)
  obtain ⟨⟨chunk, d⟩, ht⟩ := Option.isSome_iff_exists.mp hs
  obtain ⟨hchunk, hd⟩ := rest_of_take? ht
  rw [h, List.take_left] at hchunk
  rw [h, List.drop_left] at hd
  have hbytes : chunk = s.toByteArray := by
    apply ByteArray.ext
    simp [← hchunk]
  exact ⟨d, by rw [ht, hbytes], hd⟩

end Cursor

namespace Wire

/-! Values. -/

/-- The last byte of a full budget adds one bit, and every byte before it seven. -/
theorem readVarintWithin_varint {budget : Nat} (hn : n < 2 * 128 ^ budget)
    (hc : c.rest = varint n ++ t) :
    ∃ d, readVarintWithin (budget + 1) c = some (n, d) ∧ d.rest = t := by
  induction budget generalizing n c with
  | zero =>
    have hsmall : n < 128 := by omega
    rw [varint, if_pos hsmall] at hc
    obtain ⟨d, hd, ht⟩ := Cursor.next?_of_rest hc
    have hb : n.toUInt8.toNat = n := by simp; omega
    have hlast : n.toUInt8 < 128 := by simp [UInt8.lt_iff_toNat_lt, hb]; omega
    have hbit : ¬ 1 < n.toUInt8 := by simp [UInt8.lt_iff_toNat_lt, hb]; omega
    exact ⟨d, by simp [readVarintWithin, hd, hlast, hbit, hb], ht⟩
  | succ budget ih =>
    by_cases hsmall : n < 128
    · rw [varint, if_pos hsmall] at hc
      obtain ⟨d, hd, ht⟩ := Cursor.next?_of_rest hc
      have hb : n.toUInt8.toNat = n := by simp; omega
      have hlast : n.toUInt8 < 128 := by simp [UInt8.lt_iff_toNat_lt, hb]; omega
      refine ⟨d, ?_, ht⟩
      rw [readVarintWithin]
      simp [hd, hlast, hb]
    · rw [varint, if_neg hsmall] at hc
      obtain ⟨d, hd, ht⟩ := Cursor.next?_of_rest hc
      have hhigh : n / 128 < 2 * 128 ^ budget := by
        rw [Nat.pow_succ] at hn
        omega
      obtain ⟨e, he, ht'⟩ := ih hhigh ht
      have hb : (n % 128 + 128).toUInt8.toNat = n % 128 + 128 := by simp; omega
      have hmore : ¬ (n % 128 + 128).toUInt8 < 128 := by
        rw [UInt8.lt_iff_toNat_lt, hb]
        simp
      refine ⟨e, ?_, ht'⟩
      rw [readVarintWithin]
      simp only [hd, Option.bind_eq_bind, Option.bind_some, hmore, if_false, he, hb]
      congr 2
      omega

theorem readInteger_varint (hn : n < 2 ^ 64) (hc : c.rest = varint n ++ t) :
    ∃ d, readInteger c = .ok (n, d) ∧ d.rest = t := by
  obtain ⟨d, hd, ht⟩ := readVarintWithin_varint (show n < 2 * 128 ^ 9 by omega) hc
  exact ⟨d, by simp only [readInteger, readVarint, hd], ht⟩

theorem readKey_encode {k : Key} (h0 : 0 < k.number) (hk : k.number < 2 ^ 28)
    (hc : c.rest = k.encode ++ t) : ∃ d, readKey c = .ok (k, d) ∧ d.rest = t := by
  have hcode : k.wireType.code < 8 := by cases k.wireType <;> decide
  obtain ⟨d, hd, ht⟩ := readInteger_varint (by omega) hc
  have hsize : ¬ 0x100000000 ≤ 8 * k.number + k.wireType.code := by omega
  have hmod : (8 * k.number + k.wireType.code) % 8 = k.wireType.code := by omega
  have hdiv : (8 * k.number + k.wireType.code) / 8 = k.number := by omega
  refine ⟨d, ?_, ht⟩
  simp [readKey, hd, bind, Except.bind, hsize, hmod, hdiv, WireType.ofCode?_code,
    Nat.ne_of_gt h0, pure, Except.pure]

theorem readChunk_varint (hs : s.length < 2 ^ 64) (hc : c.rest = varint s.length ++ (s ++ t)) :
    ∃ d, readChunk c = .ok (s.toByteArray, d) ∧ d.rest = t := by
  obtain ⟨d, hd, ht⟩ := readInteger_varint hs hc
  obtain ⟨e, he, ht'⟩ := Cursor.take?_of_rest ht
  exact ⟨e, by simp [readChunk, hd, he, bind, Except.bind], ht'⟩

/-- A value is written as its remainder modulo 2^64, so that a negative one comes out large. -/
theorem extended_eq (value : Int32) :
    (value.toInt64.toUInt64.toNat : Int) = value.toInt % 2 ^ 64 := by
  have hlow : value.toInt64.toBitVec.toInt = value.toInt := value.toInt_toInt64
  have hlt := value.toInt64.toBitVec.isLt
  have hnat : value.toInt64.toUInt64.toNat = value.toInt64.toBitVec.toNat := rfl
  rw [BitVec.toInt_eq_toNat_cond] at hlow
  rw [hnat, ← hlow]
  split <;> omega

/-- The low half of a value that was extended to 64 bits is the value. -/
theorem toInt32_extended (value : Int32) :
    value.toInt64.toUInt64.toNat.toUInt32.toInt32 = value := by
  have hextended := extended_eq value
  have hlt := value.toInt_lt
  have hle := value.le_toInt
  have hlow : value.toInt64.toUInt64.toNat.toUInt32.toInt32.toBitVec.toNat =
      value.toInt64.toUInt64.toNat % 2 ^ 32 := by
    change value.toInt64.toUInt64.toNat.toUInt32.toNat = _
    simp
  apply Int32.toInt_inj.mp
  change value.toInt64.toUInt64.toNat.toUInt32.toInt32.toBitVec.toInt = _
  rw [BitVec.toInt_eq_toNat_cond, hlow]
  split <;> omega

/-! Fields. -/

section Fields

variable {α : Type} [Message α] {m m' m'' : α} {written written' : List UInt8}
  {message field : String} {number : Nat}

/-- Whether a message that meets the bytes `written` has become `m'` behind them, whatever
follows. -/
def Absorbs (m : α) (written : List UInt8) (m' : α) : Prop :=
  ∀ (c : Cursor) (t : List UInt8) (fuel : Nat), c.rest = written ++ t → c.remaining ≤ fuel →
    ∃ (d : Cursor) (fuel' : Nat), d.rest = t ∧ d.remaining ≤ fuel' ∧
      mergeFields fuel m c = mergeFields fuel' m' d

theorem mergeFields_end {fuel : Nat} (h : c.remaining = 0) :
    mergeFields fuel m c = .ok m := by
  rw [mergeFields.eq_def]
  exact if_pos h

theorem mergeFields_step {fuel : Nat} (h : c.remaining ≠ 0) (hf : mergeField m c = .ok (m', d)) :
    mergeFields (fuel + 1) m c = mergeFields fuel m' d := by
  rw [mergeFields.eq_def]
  simp only [if_neg h, hf, bind, Except.bind]

theorem absorbs_nil (m : α) : Absorbs m [] m := by
  intro c t fuel hc hf
  exact ⟨c, fuel, hc, hf, rfl⟩

theorem Absorbs.append (h : Absorbs m written m') (h' : Absorbs m' written' m'') :
    Absorbs m (written ++ written') m'' := by
  intro c t fuel hc hf
  rw [List.append_assoc] at hc
  obtain ⟨d, fuel', hd, hf', heq⟩ := h c _ fuel hc hf
  obtain ⟨e, fuel'', he, hf'', heq'⟩ := h' d t fuel' hd hf'
  exact ⟨e, fuel'', he, hf'', heq.trans heq'⟩

/-- A message that has taken in all of `bytes` is what they hold. -/
theorem Absorbs.decode {bytes : ByteArray} (h : Absorbs Message.empty bytes.data.toList m) :
    decode bytes = .ok m := by
  have hrest : (Cursor.ofBytes bytes).rest = bytes.data.toList ++ [] := by
    rw [Cursor.rest_ofBytes, List.append_nil]
  have hsize : (Cursor.ofBytes bytes).remaining ≤ bytes.size := Nat.le_of_eq (Nat.sub_zero _)
  obtain ⟨d, fuel, hd, -, heq⟩ := h _ _ _ hrest hsize
  have hend : d.remaining = 0 := by rw [← d.length_rest, hd]; rfl
  rw [Wire.decode, heq, mergeFields_end hend]

/-- Whether a message that meets one field, the bytes `written`, has become `m'` behind it, whatever
follows. -/
def Merges (m : α) (written : List UInt8) (m' : α) : Prop :=
  ∀ (c : Cursor) (t : List UInt8), c.rest = written ++ t →
    ∃ d, mergeField m c = .ok (m', d) ∧ d.rest = t

theorem Merges.absorbs (h : Merges m written m') (hne : written ≠ []) : Absorbs m written m' := by
  intro c t fuel hc hf
  obtain ⟨d, hfield, ht⟩ := h c t hc
  have hsome : 0 < written.length := List.length_pos_iff.mpr hne
  have hlen : c.remaining = written.length + d.remaining := by
    rw [← c.length_rest, ← d.length_rest, hc, ht]
    simp
  obtain ⟨fuel, rfl⟩ : ∃ n, fuel = n + 1 := Nat.exists_eq_succ_of_ne_zero (by omega)
  exact ⟨d, fuel, ht, by omega, mergeFields_step (by omega) hfield⟩

/-- A field that the message knows: a key, and a value that is read as `value`. -/
theorem merges_known {β : Type} {k : Key} {read : Read β} {value : β} {key spelled : List UInt8}
    (put : β → α)
    (hkey : ∀ c t, c.rest = key ++ t → ∃ d, readKey c = .ok (k, d) ∧ d.rest = t)
    (hmerge : Message.merge? m k = some (merging message field read put))
    (hread : ∀ c t, c.rest = spelled ++ t → ∃ d, read c = .ok (value, d) ∧ d.rest = t) :
    Merges m (key ++ spelled) (put value) := by
  intro c t hc
  rw [List.append_assoc] at hc
  obtain ⟨d, hd, ht⟩ := hkey c _ hc
  obtain ⟨e, he, ht'⟩ := hread d t ht
  refine ⟨e, ?_, ht'⟩
  simp [mergeField, hd, hmerge, merging, he, inField, Except.mapError, bind, Except.bind, pure,
    Except.pure]

/-- One field: its key, and a value that is read as `value`. -/
theorem absorbs_field {β : Type} {k : Key} {read : Read β} {put : β → α} {value : β}
    {spelled : List UInt8} (h0 : 0 < k.number) (hk : k.number < 2 ^ 28)
    (hmerge : Message.merge? m k = some (merging message field read put))
    (hread : ∀ c t, c.rest = spelled ++ t → ∃ d, read c = .ok (value, d) ∧ d.rest = t) :
    Absorbs m (k.encode ++ spelled) (put value) := by
  have hne : k.encode ++ spelled ≠ [] := List.append_ne_nil_of_left_ne_nil (varint_ne_nil _) _
  exact (merges_known put (fun _ _ hc => readKey_encode h0 hk hc) hmerge hread).absorbs hne

/-- A text or byte string field that is not empty. -/
theorem absorbs_chunk {β : Type} {read : Key → Read β} {put : β → α} {value : β}
    {bytes : ByteArray} (h0 : 0 < number) (hk : number < 2 ^ 28) (hsize : bytes.size < 2 ^ 64)
    (hmerge : Message.merge? m ⟨number, .lengthDelimited⟩ =
      some (merging message field (read ⟨number, .lengthDelimited⟩) put))
    (hread : ∀ c d, readChunk c = .ok (bytes, d) →
      read ⟨number, .lengthDelimited⟩ c = .ok (value, d))
    (hempty : bytes.size = 0 → put value = m) :
    Absorbs m (writeBytes number bytes).data.toList (put value) := by
  by_cases hz : bytes.size = 0
  · rw [hempty hz, writeBytes, if_pos hz]
    exact absorbs_nil m
  · have hspelled : (writeBytes number bytes).data.toList =
        Key.encode ⟨number, .lengthDelimited⟩ ++
          (varint bytes.data.toList.length ++ bytes.data.toList) := by
      rw [writeBytes, if_neg hz]
      simp
    rw [hspelled]
    refine absorbs_field h0 hk hmerge ?_
    intro c t hc
    have hlen : bytes.data.toList.length < 2 ^ 64 := by
      rw [Array.length_toList, ByteArray.size_data]
      exact hsize
    obtain ⟨d, hd, ht⟩ := readChunk_varint hlen (by rwa [List.append_assoc] at hc)
    have hbytes : bytes.data.toList.toByteArray = bytes := by
      apply ByteArray.ext
      simp
    rw [hbytes] at hd
    exact ⟨d, hread c d hd, ht⟩

theorem absorbs_writeBytes (put : ByteArray → α) (number : Nat) (value : ByteArray)
    (h0 : 0 < number) (hk : number < 2 ^ 28) (hsize : value.size < 2 ^ 64)
    (hmerge : Message.merge? m ⟨number, .lengthDelimited⟩ =
      some (merging message field (readBytes ⟨number, .lengthDelimited⟩) put))
    (hempty : put .empty = m) :
    Absorbs m (writeBytes number value).data.toList (put value) := by
  refine absorbs_chunk h0 hk hsize hmerge ?_ ?_
  · intro c d hc
    simpa [readBytes, expect, bind, Except.bind] using hc
  · intro hz
    rw [ByteArray.size_eq_zero_iff.mp hz, hempty]

theorem absorbs_writeText (put : String → α) (number : Nat) (value : String) (h0 : 0 < number)
    (hk : number < 2 ^ 28) (hsize : value.toUTF8.size < 2 ^ 64)
    (hmerge : Message.merge? m ⟨number, .lengthDelimited⟩ =
      some (merging message field (readText ⟨number, .lengthDelimited⟩) put))
    (hempty : put "" = m) :
    Absorbs m (writeText number value).data.toList (put value) := by
  refine absorbs_chunk h0 hk hsize hmerge ?_ ?_
  · intro c d hc
    have htext : String.fromUTF8? value.toUTF8 = some value := dif_pos value.isValidUTF8
    simp only [readText, expect, if_true, hc, htext, bind, Except.bind]
  · intro hz
    obtain rfl : value = "" := by simpa using hz
    exact hempty

theorem absorbs_writeInt32 (put : Int32 → α) (number : Nat) (value : Int32) (h0 : 0 < number)
    (hk : number < 2 ^ 28)
    (hmerge : Message.merge? m ⟨number, .varint⟩ =
      some (merging message field (readInt32 ⟨number, .varint⟩) put))
    (hempty : put 0 = m) :
    Absorbs m (writeInt32 number value).data.toList (put value) := by
  by_cases hz : value = 0
  · rw [hz, hempty]
    exact absorbs_nil m
  · have hspelled : (writeInt32 number value).data.toList =
        Key.encode ⟨number, .varint⟩ ++ varint value.toInt64.toUInt64.toNat := by
      rw [writeInt32, if_neg hz]
      simp
    rw [hspelled]
    refine absorbs_field h0 hk hmerge ?_
    intro c t hc
    obtain ⟨d, hd, ht⟩ := readInteger_varint (UInt64.toNat_lt _) hc
    refine ⟨d, ?_, ht⟩
    simp only [readInt32, expect, if_true, hd, toInt32_extended, bind, Except.bind, pure,
      Except.pure]

end Fields

end Wire
end Gallows
