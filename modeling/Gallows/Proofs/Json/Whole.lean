import Gallows.Proofs.Json.Layout
import Gallows.Proofs.Json.Skipping

/-!
Integers of JSON texts. What is written of an integer is a number, and reads back as that integer if
it fits into 64 bits.
-/
namespace Gallows.Json

variable {n : Nat} {ds t : List UInt8}

/-- The value of digits behind those of `n`. -/
def valueFrom (n : Nat) (ds : List UInt8) : Nat :=
  ds.foldl (fun n b => 10 * n + (b.toNat - 48)) n

theorem valueFrom_cons (n : Nat) (b : UInt8) (ds : List UInt8) :
    valueFrom n (b :: ds) = valueFrom (10 * n + (b.toNat - 48)) ds := by
  simp only [valueFrom, List.foldl_cons]

theorem le_valueFrom (n : Nat) (ds : List UInt8) : n ≤ valueFrom n ds := by
  induction ds generalizing n with
  | nil => exact Nat.le_refl n
  | cons b ds ih =>
    have hmore := ih (10 * n + (b.toNat - 48))
    rw [valueFrom_cons]
    omega

theorem absorb_digits (hds : ∀ b ∈ ds, isDigit b) (ht : startsWithDigit t = false)
    (hv : valueFrom n ds < 0x10000000000000000) :
    absorb n (ds ++ t) = (valueFrom n ds, ds.length, t) := by
  induction ds generalizing n with
  | nil =>
    cases t with
    | nil => rfl
    | cons b t =>
      have hb : isDigit b = false := ht
      simp [absorb, hb, valueFrom]
  | cons b ds ih =>
    obtain ⟨hb, hds⟩ := List.forall_mem_cons.mp hds
    have hle := le_valueFrom (10 * n + (b.toNat - 48)) ds
    rw [valueFrom_cons] at hv ⊢
    have hlt : 10 * n + (b.toNat - 48) < 0x10000000000000000 := by omega
    simp only [List.cons_append, absorb, hb, hlt, decide_true, Bool.and_true, if_true, ih hds hv,
      List.length_cons]

/-- A number of nothing but digits. -/
theorem Whole.scans (h : Whole ds) (negative : Bool) (ht : Ends t)
    (hv : valueFrom 0 ds < 0x10000000000000000) :
    scanMagnitude negative (ds ++ t) =
      (wholeNumber negative (valueFrom 0 ds)).map fun number => (number, t) := by
  have hstop := startsWithDigit_of_ends ht
  obtain ⟨b, ds, rfl⟩ := List.exists_cons_of_ne_nil h.ne_nil
  obtain ⟨hb, hds⟩ := List.forall_mem_cons.mp h.all
  have hvalue : valueFrom 0 (b :: ds) = valueFrom (b.toNat - 48) ds := by
    rw [valueFrom_cons, Nat.mul_zero, Nat.zero_add]
  rw [hvalue] at hv ⊢
  have hzero := h.leading hstop
  have habsorb := absorb_digits hds hstop hv
  simp only [List.cons_append, scanMagnitude, hb, hzero, habsorb, hstop, Bool.not_true,
    Bool.false_eq_true, if_false]
  split
  · simp [ends_cons_iff] at ht
  · simp [ends_cons_iff] at ht
  · simp [ends_cons_iff] at ht
  · cases wholeNumber negative (valueFrom (b.toNat - 48) ds) <;> rfl

theorem isDigit_char {c : Char} (h : c.isDigit) : 48 ≤ c.toNat ∧ c.toNat ≤ 57 := by
  simp only [Char.isDigit, Bool.and_eq_true, decide_eq_true_eq, ge_iff_le, UInt32.le_iff_toNat_le]
    at h
  exact h

/-- The byte of a character that takes one. -/
def byteOf (c : Char) : UInt8 := UInt8.ofNat c.toNat

theorem toNat_byteOf {c : Char} (h : c.isDigit) : (byteOf c).toNat = c.toNat := by
  have hrange := isDigit_char h
  simp only [byteOf, UInt8.toNat_ofNat']
  omega

theorem flatMap_utf8EncodeChar {cs : List Char} (h : ∀ c ∈ cs, c.isDigit) :
    cs.flatMap String.utf8EncodeChar = cs.map byteOf := by
  induction cs with
  | nil => rfl
  | cons c cs ih =>
    obtain ⟨hc, hcs⟩ := List.forall_mem_cons.mp h
    have hrange : c.val.toNat ≤ 0x7f := Nat.le_trans (isDigit_char hc).2 (by decide)
    have hbyte : String.utf8EncodeChar c = [byteOf c] := by
      simp only [String.utf8EncodeChar, if_pos hrange]
      rfl
    rw [List.flatMap_cons, hbyte, ih hcs, List.map_cons]
    rfl

theorem valueFrom_map {cs : List Char} (h : ∀ c ∈ cs, c.isDigit) (n : Nat) :
    valueFrom n (cs.map byteOf) = Nat.ofDigitChars 10 cs n := by
  induction cs generalizing n with
  | nil => rfl
  | cons c cs ih =>
    obtain ⟨hc, hcs⟩ := List.forall_mem_cons.mp h
    rw [List.map_cons, valueFrom_cons, ih hcs, toNat_byteOf hc, Nat.ofDigitChars_cons]
    rfl

/-- Only zero starts with a zero. -/
theorem head?_toDigits (h : n ≠ 0) : (Nat.toDigits 10 n).head? ≠ some '0' := by
  induction n using Nat.strong_induction_on with
  | _ n ih =>
    by_cases hlt : n < 10
    · have hchar : ∀ d, d < 10 → d ≠ 0 → d.digitChar ≠ '0' := by decide
      rw [Nat.toDigits_of_lt_base hlt]
      simpa using hchar n hlt h
    · have htens := ih (n / 10) (by omega) (by omega)
      rw [Nat.toDigits_of_base_le (by decide) (Nat.le_of_not_lt hlt),
        List.head?_append_of_ne_nil _ Nat.toDigits_ne_nil]
      exact htens

variable (n) in
theorem isDigit_toDigits : ∀ c ∈ Nat.toDigits 10 n, c.isDigit :=
  fun _ hc => Nat.isDigit_of_mem_toDigits (by decide) (by decide) hc

/-- The digits of a number as bytes. -/
theorem utf8_repr (n : Nat) : utf8 (Nat.repr n) = (Nat.toDigits 10 n).map byteOf := by
  rw [utf8_eq_flatMap, Nat.toList_repr, flatMap_utf8EncodeChar (isDigit_toDigits n)]

theorem whole_repr (n : Nat) : Whole (utf8 (Nat.repr n)) := by
  rw [utf8_repr]
  refine ⟨⟨?_, ?_⟩, ?_⟩
  · simp [Nat.toDigits_ne_nil]
  · intro b hb
    obtain ⟨c, hc, rfl⟩ := List.mem_map.mp hb
    have hdigit := isDigit_toDigits n c hc
    rw [isDigit_iff, toNat_byteOf hdigit]
    exact isDigit_char hdigit
  · intro hhead
    obtain ⟨c, cs, hcs⟩ := List.exists_cons_of_ne_nil (Nat.toDigits_ne_nil (n := n) (b := 10))
    have hdigit : c.isDigit := isDigit_toDigits n c (by simp [hcs])
    have hbyte : byteOf c = 48 := by simpa [hcs] using hhead
    have hzero : c = '0' := by
      have hcode := toNat_byteOf hdigit
      rw [hbyte] at hcode
      exact Char.toNat_inj.mp hcode.symm
    have hn : n = 0 := by
      by_contra hne
      exact head?_toDigits hne (by rw [hcs, hzero]; rfl)
    rw [hn]
    rfl

theorem valueFrom_repr (n : Nat) : valueFrom 0 (utf8 (Nat.repr n)) = n := by
  rw [utf8_repr, valueFrom_map (isDigit_toDigits n), Nat.ofDigitChars_ten_toDigits]

theorem toString_of_nonneg {n : Int} (h : 0 ≤ n) : utf8 (toString n) = utf8 (Nat.repr n.toNat) := by
  rw [Int.toString_eq_repr, Int.repr_eq_if, if_pos h]

theorem toString_of_neg {n : Int} (h : n < 0) :
    utf8 (toString n) = 45 :: utf8 (Nat.repr (-n).toNat) := by
  have hminus : utf8 "-" = [45] := by decide
  rw [Int.toString_eq_repr, Int.repr_eq_if, if_neg (by omega), utf8_append, hminus]
  rfl

/-- What is written of an integer is a number. -/
theorem single_toString (n : Int) : Single (utf8 (toString n)) := by
  have hnumber {sign : List UInt8} (hsign : Sign [45] sign) (n : Nat) :
      Single (sign ++ utf8 (Nat.repr n)) := by
    have hsingle := Single.number hsign (whole_repr n) (.inl rfl) (.inl rfl)
    rwa [List.append_nil, List.append_nil] at hsingle
  by_cases hn : 0 ≤ n
  · rw [toString_of_nonneg hn]
    exact hnumber (.inl rfl) _
  · rw [toString_of_neg (by omega)]
    exact hnumber (.inr ⟨45, List.mem_singleton_self 45, rfl⟩) _

/-- An integer. -/
def Atom.integer (n : Int) : Atom := ⟨_, single_toString n⟩

theorem Atom.integer_ne_null (n : Int) : ∃ b rest, (Atom.integer n).val = b :: rest ∧ b ≠ 110 := by
  by_cases hn : 0 ≤ n
  · have hwhole := whole_repr n.toNat
    obtain ⟨b, ds, hds⟩ := List.exists_cons_of_ne_nil hwhole.ne_nil
    have hb : isDigit b := hwhole.all b (by simp [hds])
    refine ⟨b, ds, (toString_of_nonneg hn).trans hds, ?_⟩
    rintro rfl
    cases hb
  · exact ⟨45, _, toString_of_neg (by omega), by decide⟩

/-- An integer that fits into 64 bits reads back. -/
theorem accepts_integer {depth : Nat} (expected : String) {n : Int}
    (hn : -0x8000000000000000 ≤ n ∧ n < 0x10000000000000000) :
    Accepts depth (readNumber expected) (.single (.integer n)) (.integer n) := by
  intro l text t _ htext ht _
  by_cases hsign : 0 ≤ n
  · have hwhole := whole_repr n.toNat
    have hscan := hwhole.scans false ht (by rw [valueFrom_repr]; omega)
    obtain ⟨b, ds, hds⟩ := List.exists_cons_of_ne_nil hwhole.ne_nil
    obtain ⟨hdrop, -⟩ := htext.atom ((toString_of_nonneg hsign).trans hds) t
    have hb : isDigit b := hwhole.all b (by simp [hds])
    have hvalue : wholeNumber false n.toNat = .ok (.integer n) := by
      simp [wholeNumber, Int.toNat_of_nonneg hsign]
    rw [valueFrom_repr, hvalue, hds, List.cons_append] at hscan
    simp only [readNumber, hdrop]
    split
    · rename_i heq
      cases heq
      cases hb
    · simp only [startsWithDigit, hb, if_true, hscan]
      rfl
  · have hneg : n < 0 := by omega
    have hscan := (whole_repr (-n).toNat).scans true ht (by rw [valueFrom_repr]; omega)
    obtain ⟨hdrop, -⟩ := htext.atom (toString_of_neg hneg) t
    have hvalue : wholeNumber true (-n).toNat = .ok (.integer n) := by
      have hrange : (-n).toNat ≠ 0 ∧ (-n).toNat ≤ 0x8000000000000000 := by omega
      have hback : -((-n).toNat : Int) = n := by omega
      simp only [wholeNumber, Bool.not_true, Bool.false_eq_true, if_false, if_pos hrange, hback]
    rw [valueFrom_repr, hvalue] at hscan
    simp only [readNumber, hdrop, hscan]
    rfl

end Gallows.Json
