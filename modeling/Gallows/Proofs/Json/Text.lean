import Gallows.Json.Reader
import Gallows.Json.Value
import Mathlib

/-!
Strings of JSON texts. What is written of a string reads back as that string, whatever characters it
has and whatever follows.
-/
namespace Gallows.Json

variable {bs t seen : List UInt8} {fuel : Nat} {c : Char}

/-- The bytes of a text. -/
def utf8 (s : String) : List UInt8 := s.toUTF8.data.toList

theorem utf8_append (s t : String) : utf8 (s ++ t) = utf8 s ++ utf8 t := by
  simp [utf8, String.toByteArray_append]

theorem utf8_eq_flatMap (s : String) : utf8 s = s.toList.flatMap String.utf8EncodeChar := by
  have hs : s.toByteArray = s.toList.utf8Encode := by
    rw [← String.toByteArray_ofList, String.ofList_toList]
  rw [utf8, String.toUTF8, hs, List.utf8Encode, List.data_toByteArray]

theorem utf8_singleton (c : Char) : utf8 (String.singleton c) = String.utf8EncodeChar c := by
  simp [utf8_eq_flatMap]

theorem fromUTF8?_utf8 (s : String) : String.fromUTF8? (utf8 s).toByteArray = some s := by
  have hs : (utf8 s).toByteArray = s.toByteArray := by
    apply ByteArray.ext
    simp [utf8]
  rw [hs]
  exact dif_pos s.isValidUTF8

/-- The bytes that are written of a character. -/
def written (c : Char) : List UInt8 := utf8 (escapeChar c)

/-- Whether a byte stands for itself within a string. -/
def Plain (b : UInt8) : Prop := b ≠ 34 ∧ b ≠ 92 ∧ ¬ b < 32

theorem plain_ofNat {n : Nat} (h32 : 32 ≤ n) (h256 : n < 256) (h34 : n ≠ 34) (h92 : n ≠ 92) :
    Plain (UInt8.ofNat n) := by
  have hn : (UInt8.ofNat n).toNat = n := by
    simp
    omega
  refine ⟨?_, ?_, ?_⟩
  · intro h
    rw [h] at hn
    exact h34 hn.symm
  · intro h
    rw [h] at hn
    exact h92 hn.symm
  · rw [UInt8.lt_iff_toNat_lt, hn]
    exact Nat.not_lt.mpr h32

theorem plain_of_mem_utf8EncodeChar (h32 : 32 ≤ c.toNat) (h34 : c.toNat ≠ 34)
    (h92 : c.toNat ≠ 92) : ∀ b ∈ String.utf8EncodeChar c, Plain b := by
  have hc : c.val.toNat = c.toNat := rfl
  simp only [String.utf8EncodeChar, hc]
  split
  · simp only [List.forall_mem_singleton]
    exact plain_ofNat h32 (by omega) h34 h92
  · split
    · simp only [List.forall_mem_cons]
      refine ⟨?_, ?_, List.forall_mem_nil _⟩ <;> apply plain_ofNat <;> omega
    · split
      · simp only [List.forall_mem_cons]
        refine ⟨?_, ?_, ?_, List.forall_mem_nil _⟩ <;> apply plain_ofNat <;> omega
      · simp only [List.forall_mem_cons]
        refine ⟨?_, ?_, ?_, ?_, List.forall_mem_nil _⟩ <;> apply plain_ofNat <;> omega

/-- Whether a scan that meets the bytes `bs` within a string has seen `cs` behind them, whatever
follows. -/
def Scans (bs cs : List UInt8) : Prop :=
  ∀ (seen t : List UInt8) (fuel : Nat), (bs ++ t).length ≤ fuel →
    ∃ fuel', t.length ≤ fuel' ∧
      scanStringBytes fuel seen (bs ++ t) = scanStringBytes fuel' (cs.reverseAux seen) t

theorem scans_nil : Scans [] [] := by
  intro seen t fuel hf
  exact ⟨fuel, hf, rfl⟩

theorem Scans.append {bs' cs cs' : List UInt8} (h : Scans bs cs) (h' : Scans bs' cs') :
    Scans (bs ++ bs') (cs ++ cs') := by
  intro seen t fuel hf
  rw [List.append_assoc] at hf ⊢
  obtain ⟨fuel', hf', he⟩ := h seen (bs' ++ t) fuel hf
  obtain ⟨fuel'', hf'', he'⟩ := h' (cs.reverseAux seen) t fuel' hf'
  refine ⟨fuel'', hf'', ?_⟩
  rw [he, he']
  simp [List.reverseAux_eq]

theorem scans_plain {b : UInt8} (h : Plain b) : Scans [b] [b] := by
  intro seen t fuel hf
  obtain ⟨h34, h92, h32⟩ := h
  cases fuel with
  | zero => simp at hf
  | succ fuel =>
    refine ⟨fuel, by simpa using hf, ?_⟩
    simp [scanStringBytes, h34, h92, h32]

theorem scans_of_plain (h : ∀ b ∈ bs, Plain b) : Scans bs bs := by
  induction bs with
  | nil => exact scans_nil
  | cons b bs ih =>
    obtain ⟨hb, hbs⟩ := List.forall_mem_cons.mp h
    exact (scans_plain hb).append (ih hbs)

/-- An escape of one letter. -/
theorem scans_short {e b : UInt8} (he : shortEscape? e = some b) : Scans [92, e] [b] := by
  intro seen t fuel hf
  have hu : e ≠ 117 := by
    rintro rfl
    cases he
  cases fuel with
  | zero => simp at hf
  | succ fuel =>
    refine ⟨fuel, by simp at hf; omega, ?_⟩
    have hslash : (92 : UInt8) ≠ 34 := by decide
    simp only [List.cons_append, List.nil_append, scanStringBytes, if_neg hslash, if_true]
    rw [he]
    rfl

/-- An escape with four digits. -/
theorem scans_code {a b d e : UInt8} (h : hexQuad? a b d e = some c.toNat) :
    Scans [92, 117, a, b, d, e] (String.utf8EncodeChar c) := by
  intro seen t fuel hf
  have hvalid : c.toNat < 0xd800 ∨ 0xdfff < c.toNat ∧ c.toNat < 0x110000 := c.valid
  have hlow : ¬ (0xdc00 ≤ c.toNat && c.toNat ≤ 0xdfff) := by
    simp
    omega
  have hhigh : ¬ (0xd800 ≤ c.toNat && c.toNat ≤ 0xdbff) := by
    simp
    omega
  cases fuel with
  | zero => simp at hf
  | succ fuel =>
    refine ⟨fuel, by simp at hf; omega, ?_⟩
    have hpoint : scanCodePoint (a :: b :: d :: e :: t) = .ok (c, t) := by
      simp only [scanCodePoint, h, hlow, hhigh, Char.ofNat_toNat]
      rfl
    simp [scanStringBytes, hpoint, bind, Except.bind]

/-- Two escapes, the halves of a character beyond the basic plane. -/
theorem scans_pair {a b d e a' b' d' e' : UInt8} {m n : Nat} (h : hexQuad? a b d e = some m)
    (h' : hexQuad? a' b' d' e' = some n) (hm : 0xd800 ≤ m ∧ m ≤ 0xdbff)
    (hn : 0xdc00 ≤ n ∧ n ≤ 0xdfff)
    (hc : c.toNat = (m - 0xd800) * 0x400 + (n - 0xdc00) + 0x10000) :
    Scans [92, 117, a, b, d, e, 92, 117, a', b', d', e'] (String.utf8EncodeChar c) := by
  intro seen t fuel hf
  have hlow : ¬ (0xdc00 ≤ m && m ≤ 0xdfff) := by
    simp
    omega
  cases fuel with
  | zero => simp at hf
  | succ fuel =>
    refine ⟨fuel, by simp at hf; omega, ?_⟩
    have hsecond : scanLowSurrogate (92 :: 117 :: a' :: b' :: d' :: e' :: t) = .ok (n, t) := by
      simp [scanLowSurrogate, h', hn]
    have hpoint : scanCodePoint (a :: b :: d :: e :: 92 :: 117 :: a' :: b' :: d' :: e' :: t) =
        .ok (c, t) := by
      simp [scanCodePoint, h, hlow, hm, hsecond, bind, Except.bind, pure, Except.pure, ← hc]
    simp [scanStringBytes, hpoint, bind, Except.bind]

/-- The byte of a hexadecimal digit. -/
def hexDigit (n : Nat) : UInt8 := if n < 10 then UInt8.ofNat (48 + n) else UInt8.ofNat (87 + n)

theorem utf8_control : ∀ n, n < 32 →
    utf8 ("\\u00" ++ hexByte n) = [92, 117, 48, 48, hexDigit (n / 16), hexDigit (n % 16)] ∧
      hexQuad? 48 48 (hexDigit (n / 16)) (hexDigit (n % 16)) = some n := by
  decide

/-- The ways to spell a character within a string. -/
inductive Spelling (c : Char) : List UInt8 → Prop
  | plain (h : ∀ b ∈ String.utf8EncodeChar c, Plain b) : Spelling c (String.utf8EncodeChar c)
  | short {e b : UInt8} (h : shortEscape? e = some b) (hc : String.utf8EncodeChar c = [b]) :
      Spelling c [92, e]
  | code {a b d e : UInt8} (h : hexQuad? a b d e = some c.toNat) : Spelling c [92, 117, a, b, d, e]
  | pair {a b d e a' b' d' e' : UInt8} {m n : Nat} (h : hexQuad? a b d e = some m)
      (h' : hexQuad? a' b' d' e' = some n) (hm : 0xd800 ≤ m ∧ m ≤ 0xdbff)
      (hn : 0xdc00 ≤ n ∧ n ≤ 0xdfff)
      (hc : c.toNat = (m - 0xd800) * 0x400 + (n - 0xdc00) + 0x10000) :
      Spelling c [92, 117, a, b, d, e, 92, 117, a', b', d', e']

theorem Spelling.scans (h : Spelling c bs) : Scans bs (String.utf8EncodeChar c) := by
  cases h with
  | plain h => exact scans_of_plain h
  | short h hc =>
    rw [hc]
    exact scans_short h
  | code h => exact scans_code h
  | pair h h' hm hn hc => exact scans_pair h h' hm hn hc

theorem Spelling.length_pos (h : Spelling c bs) : 0 < bs.length := by
  cases h with
  | plain =>
    rw [String.length_utf8EncodeChar]
    exact c.utf8Size_pos
  | short | code | pair => exact Nat.succ_pos _

theorem spelling_written (c : Char) : Spelling c (written c) := by
  by_cases hshort : c ∈ ['"', '\\', '\n', '\r', '\t', '\x08', '\x0c']
  · simp only [List.mem_cons, List.not_mem_nil, or_false] at hshort
    rcases hshort with rfl | rfl | rfl | rfl | rfl | rfl | rfl <;> exact .short rfl rfl
  · simp only [List.mem_cons, List.not_mem_nil, or_false, not_or] at hshort
    obtain ⟨hquote, hslash, hline, hreturn, htab, hback, hfeed⟩ := hshort
    simp only [written, escapeChar, if_neg hquote, if_neg hslash, if_neg hline, if_neg hreturn,
      if_neg htab, if_neg hback, if_neg hfeed]
    by_cases hcontrol : c.toNat < 32
    · obtain ⟨hbytes, hquad⟩ := utf8_control c.toNat hcontrol
      rw [if_pos hcontrol, hbytes]
      exact .code hquad
    · have hne {d : Char} (h : c ≠ d) : c.toNat ≠ d.toNat := fun he => h (Char.toNat_inj.mp he)
      rw [if_neg hcontrol, utf8_singleton]
      exact .plain
        (plain_of_mem_utf8EncodeChar (Nat.le_of_not_lt hcontrol) (hne hquote) (hne hslash))

/-- A character takes six bytes at most. -/
theorem length_written_le (c : Char) : (written c).length ≤ 6 := by
  by_cases hshort : c ∈ ['"', '\\', '\n', '\r', '\t', '\x08', '\x0c']
  · simp only [List.mem_cons, List.not_mem_nil, or_false] at hshort
    rcases hshort with rfl | rfl | rfl | rfl | rfl | rfl | rfl <;> decide
  · simp only [List.mem_cons, List.not_mem_nil, or_false, not_or] at hshort
    obtain ⟨hquote, hslash, hline, hreturn, htab, hback, hfeed⟩ := hshort
    simp only [written, escapeChar, if_neg hquote, if_neg hslash, if_neg hline, if_neg hreturn,
      if_neg htab, if_neg hback, if_neg hfeed]
    by_cases hcontrol : c.toNat < 32
    · rw [if_pos hcontrol, (utf8_control c.toNat hcontrol).1]
      exact Nat.le_refl 6
    · rw [if_neg hcontrol, utf8_singleton, String.length_utf8EncodeChar]
      exact Nat.le_trans c.utf8Size_le_four (by decide)

theorem length_flatMap_written_le (cs : List Char) :
    (cs.flatMap written).length ≤ 6 * cs.length := by
  induction cs with
  | nil => exact Nat.le_refl 0
  | cons c cs ih =>
    have hc := length_written_le c
    simp only [List.flatMap_cons, List.length_append, List.length_cons]
    omega

theorem length_le_flatMap_written (cs : List Char) : cs.length ≤ (cs.flatMap written).length := by
  induction cs with
  | nil => exact Nat.le_refl 0
  | cons c cs ih =>
    have hc := (spelling_written c).length_pos
    simp only [List.flatMap_cons, List.length_append, List.length_cons]
    omega

theorem utf8_comma : utf8 "," = [44] := by decide

theorem utf8_colon : utf8 ":" = [58] := by decide

theorem utf8_opening : utf8 "\x7b" = [123] := by decide

theorem utf8_closing : utf8 "\x7d" = [125] := by decide

theorem utf8_quote (s : String) : utf8 (quote s) = 34 :: (s.toList.flatMap written ++ [34]) := by
  have hfold (cs : List Char) (acc : String) :
      utf8 (cs.foldl (fun acc c => acc ++ escapeChar c) acc) = utf8 acc ++ cs.flatMap written := by
    induction cs generalizing acc with
    | nil => simp
    | cons c cs ih =>
      rw [List.foldl_cons, ih, utf8_append, List.flatMap_cons, List.append_assoc]
      rfl
  have hopen : utf8 "\"" = [34] := by decide
  rw [quote, utf8_append, hfold, hopen]
  rfl

/-- A string in its quotes, each character spelled in one of its ways. -/
inductive Spells (s : String) : List UInt8 → Prop
  | quoted {pieces : List (List UInt8)} (h : List.Forall₂ Spelling s.toList pieces) :
      Spells s (34 :: (pieces.flatten ++ [34]))

/-- What is written of a string is a way to spell it. -/
theorem spells_quote (s : String) : Spells s (utf8 (quote s)) := by
  have hpieces : List.Forall₂ Spelling s.toList (s.toList.map written) := by
    rw [List.forall₂_map_right_iff, List.forall₂_same]
    exact fun c _ => spelling_written c
  rw [utf8_quote, List.flatMap_def]
  exact .quoted hpieces

theorem scans_all {cs : List Char} {pieces : List (List UInt8)}
    (h : List.Forall₂ Spelling cs pieces) :
    Scans pieces.flatten (cs.flatMap String.utf8EncodeChar) := by
  induction h with
  | nil => exact scans_nil
  | cons hc _ ih => exact hc.scans.append ih

/-- A string reads back behind its opening quote, however it is spelled. -/
theorem Spells.scanString {s : String} (h : Spells s (34 :: bs))
    (hf : (bs ++ t).length ≤ fuel) : scanString fuel (bs ++ t) = .ok (s, t) := by
  obtain ⟨hpieces⟩ := h
  rw [List.append_assoc, List.singleton_append] at hf ⊢
  obtain ⟨fuel', hf', he⟩ := scans_all hpieces [] (34 :: t) fuel hf
  obtain ⟨fuel', rfl⟩ : ∃ n, fuel' = n + 1 :=
    Nat.exists_eq_succ_of_ne_zero (Nat.ne_of_gt (Nat.lt_of_lt_of_le (Nat.succ_pos _) hf'))
  rw [← utf8_eq_flatMap] at he
  simp only [Json.scanString, he, scanStringBytes, if_true, List.reverseAux_eq, List.append_nil,
    List.reverse_reverse, fromUTF8?_utf8, bind, Except.bind, pure, Except.pure]

end Gallows.Json
