import Gallows.Time.Reader
import Mathlib

/-!
What is written of a moment reads back as that moment, in every year and every second, leap seconds
among them.
-/
namespace Gallows.Time

variable {ds cs : List Char} {c : Char} {w max low high n : Nat}

theorem toList_pushn (c : Char) (k : Nat) :
    ("".pushn c k).toList = List.replicate k c := by
  rw [String.pushn_eq_repeat_push]
  induction k with
  | zero => rfl
  | succ k ih => rw [Nat.repeat, String.toList_push, ih, List.replicate_succ']

theorem toList_padded (w n : Nat) :
    (padded w n).toList =
      List.replicate (w - (Nat.toDigits 10 n).length) '0' ++ Nat.toDigits 10 n := by
  have hlength : (Nat.repr n).length = (Nat.toDigits 10 n).length := by
    rw [← Nat.toList_repr, String.length_toList]
  simp only [padded, String.toList_append, toList_pushn, Nat.toList_repr, hlength]

theorem isDigit_of_mem_padded : ∀ c ∈ (padded w n).toList, c.isDigit := by
  intro c hc
  rw [toList_padded] at hc
  rcases List.mem_append.mp hc with hzero | hdigit
  · obtain rfl := List.eq_of_mem_replicate hzero
    decide
  · exact Nat.isDigit_of_mem_toDigits (by decide) (by decide) hdigit

theorem valueOf_padded : valueOf (padded w n).toList = n := by
  change Nat.ofDigitChars 10 (padded w n).toList 0 = n
  rw [toList_padded, Nat.ofDigitChars_append, Nat.ofDigitChars_replicate_zero, Nat.mul_zero,
    Nat.ofDigitChars_ten_toDigits]

theorem padded_ne_nil : (padded w n).toList ≠ [] := by
  intro h
  rw [toList_padded] at h
  exact Nat.toDigits_ne_nil (List.append_eq_nil_iff.mp h).2

theorem length_padded (hw : 0 < w) (h : n < 10 ^ w) :
    (padded w n).toList.length = w := by
  have hdigits := (Nat.length_toDigits_le_iff (b := 10) (by decide) hw).mpr h
  rw [toList_padded, List.length_append, List.length_replicate]
  omega

theorem dropBlank_of_not_isBlank (h : Text.isBlank c = false) (cs : List Char) :
    Text.dropBlank (c :: cs) = c :: cs := by
  simp [Text.dropBlank, h]

theorem not_isBlank_of_isDigit (h : c.isDigit) : Text.isBlank c = false := by
  simp only [Char.isDigit, Bool.and_eq_true, decide_eq_true_eq, ge_iff_le, UInt32.le_iff_toNat_le]
    at h
  change (48 : Nat) ≤ c.toNat ∧ c.toNat ≤ 57 at h
  simp [Text.isBlank, Text.blankRanges]
  omega

theorem leadingDigits_append (hd : ∀ c ∈ ds, c.isDigit) (hlength : ds.length ≤ max)
    (hstop : ∀ c ∈ (cs.take (max - ds.length)).head?, c.isDigit = false) :
    leadingDigits max (ds ++ cs) = ds := by
  have hrest : (cs.take (max - ds.length)).takeWhile Char.isDigit = [] := by
    cases htake : cs.take (max - ds.length) with
    | nil => rfl
    | cons c rest =>
      rw [htake] at hstop
      simp [hstop c rfl]
  rw [leadingDigits, List.take_append, List.take_of_length_le hlength,
    List.takeWhile_append_of_pos hd, hrest, List.append_nil]

/-- Digits are read up to the number that may stand there, or to the character that ends them. -/
theorem number_append (hne : ds ≠ []) (hd : ∀ c ∈ ds, c.isDigit) (hlength : ds.length ≤ max)
    (hstop : ∀ c ∈ (cs.take (max - ds.length)).head?, c.isDigit = false)
    (hvalue : valueOf ds < 0x8000000000000000) :
    number max (ds ++ cs) = .ok (valueOf ds, cs) := by
  have hdigits := leadingDigits_append hd hlength hstop
  obtain ⟨c, rest, rfl⟩ := List.exists_cons_of_ne_nil hne
  have hc : c.isDigit := hd c List.mem_cons_self
  rw [List.cons_append] at hdigits ⊢
  simp only [number, hc, hdigits, hvalue, Bool.not_true, Bool.false_eq_true, if_false, if_true]
  simp

/-- A number that takes all the digits that may stand there. -/
theorem number_padded (hw : 0 < w) (h : n < 10 ^ w) (hn : n < 0x8000000000000000)
    (cs : List Char) : number w ((padded w n).toList ++ cs) = .ok (n, cs) := by
  have hlength := length_padded hw h
  have hnumber : number w ((padded w n).toList ++ cs) = .ok (valueOf (padded w n).toList, cs) :=
    number_append padded_ne_nil isDigit_of_mem_padded (le_of_eq hlength) (by simp [hlength])
      (by rwa [valueOf_padded])
  rwa [valueOf_padded] at hnumber

theorem dropBlank_padded (cs : List Char) :
    Text.dropBlank ((padded w n).toList ++ cs) = (padded w n).toList ++ cs := by
  obtain ⟨c, rest, hc⟩ := List.exists_cons_of_ne_nil (padded_ne_nil (w := w) (n := n))
  have hdigit : c.isDigit := isDigit_of_mem_padded (w := w) (n := n) c (by simp [hc])
  rw [hc]
  exact dropBlank_of_not_isBlank (not_isBlank_of_isDigit hdigit) _

theorem field_padded (hlow : low ≤ n) (hhigh : n ≤ high) (h : high < 100) (cs : List Char) :
    field low high ((padded 2 n).toList ++ cs) = .ok (n, cs) := by
  have hnumber : number 2 ((padded 2 n).toList ++ cs) = .ok (n, cs) :=
    number_padded (by decide) (by omega) (by omega) cs
  simp only [field, dropBlank_padded, hnumber, bind, Except.bind, hlow, hhigh, and_self, if_true]
  rfl

theorem mark_cons (h : Text.isBlank c = false) (cs : List Char) : mark c (c :: cs) = .ok cs := by
  rw [mark, dropBlank_of_not_isBlank h]
  simp

/-- The digits of a year with a sign go up to the mark behind them. -/
theorem number_signed (h : n < 0x8000000000000000) (cs : List Char) :
    number ((padded w n).toList ++ '-' :: cs).length ((padded w n).toList ++ '-' :: cs) =
      .ok (n, '-' :: cs) := by
  have hstop : ∀ c ∈ (('-' :: cs).take (((padded w n).toList ++ '-' :: cs).length -
      (padded w n).toList.length)).head?, c.isDigit = false := by
    simp
  have hnumber := number_append padded_ne_nil isDigit_of_mem_padded (by simp) hstop
    (by rwa [valueOf_padded])
  rwa [valueOf_padded] at hnumber

/-- A year of four digits. -/
theorem year_padded (h : n < 10 ^ 4) (cs : List Char) :
    year ((padded 4 n).toList ++ '-' :: cs) = .ok ((n : Int), '-' :: cs) := by
  have hrange : -0x80000000 ≤ (n : Int) ∧ (n : Int) < 0x80000000 := by omega
  have hnumber : number 4 ((padded 4 n).toList ++ '-' :: cs) = .ok (n, '-' :: cs) :=
    number_padded (by decide) h (by omega) _
  have hdrop := dropBlank_padded (w := 4) (n := n) ('-' :: cs)
  obtain ⟨c, rest, hc⟩ := List.exists_cons_of_ne_nil (padded_ne_nil (w := 4) (n := n))
  have hdigit : c.isDigit := isDigit_of_mem_padded (w := 4) (n := n) c (by simp [hc])
  have hne : c ≠ '-' ∧ c ≠ '+' := by
    constructor <;> rintro rfl <;> exact absurd hdigit (by decide)
  rw [hc, List.cons_append] at hnumber hdrop ⊢
  simp only [year, hdrop]
  split
  · rename_i heq
    cases heq
    exact absurd rfl hne.1
  · rename_i heq
    cases heq
    exact absurd rfl hne.2
  · simp only [hnumber, bind, Except.bind, pure, Except.pure, hrange, and_self, if_true]

theorem year_yearText {y : Int} (h : firstYear ≤ y ∧ y ≤ lastYear) (cs : List Char) :
    year ((yearText y).toList ++ '-' :: cs) = .ok (y, '-' :: cs) := by
  have hrange : -0x80000000 ≤ y ∧ y < 0x80000000 := by
    simp only [firstYear, lastYear] at h
    omega
  have hsize : y.natAbs < 0x8000000000000000 := by omega
  have hsigned := number_signed (w := 4) hsize cs
  have hminus (cs : List Char) : Text.dropBlank ('-' :: cs) = '-' :: cs :=
    dropBlank_of_not_isBlank (by decide) cs
  have hplus (cs : List Char) : Text.dropBlank ('+' :: cs) = '+' :: cs :=
    dropBlank_of_not_isBlank (by decide) cs
  simp only [yearText]
  split
  · have hy : -(y.natAbs : Int) = y := by omega
    simp only [String.toList_append, String.reduceToList, List.cons_append, List.nil_append, year,
      hminus, hsigned, bind, Except.bind, pure, Except.pure, hy, hrange, and_self, if_true]
  · have hy : (y.natAbs : Int) = y := by omega
    split
    · have hyear := year_padded (n := y.natAbs) (by omega) cs
      rwa [hy] at hyear
    · simp only [String.toList_append, String.reduceToList, List.cons_append, List.nil_append, year,
        hplus, hsigned, bind, Except.bind, pure, Except.pure, hy, hrange, and_self, if_true]

/-- A fraction of some of the nine digits. -/
theorem fraction_padded (hw : 0 < w) (hmax : w ≤ 9) (h : n < 10 ^ w) (cs : List Char) :
    fraction ('.' :: ((padded w n).toList ++ 'Z' :: cs)) = .ok (n * 10 ^ (9 - w), 'Z' :: cs) := by
  have hlength := length_padded hw h
  have hstop : ∀ c ∈ (('Z' :: cs).take (9 - (padded w n).toList.length)).head?,
      c.isDigit = false := by
    intro c hc
    rcases hk : 9 - (padded w n).toList.length with _ | k
    · rw [hk] at hc
      cases hc
    · rw [hk] at hc
      cases hc
      decide
  have hbound : n < 0x8000000000000000 := by
    have hpow : 10 ^ w ≤ 10 ^ 9 := Nat.pow_le_pow_right (by decide) hmax
    omega
  have hdigits := leadingDigits_append isDigit_of_mem_padded (hlength.trans_le hmax) hstop
  have hnumber := number_append padded_ne_nil isDigit_of_mem_padded (hlength.trans_le hmax) hstop
    (by rwa [valueOf_padded])
  rw [valueOf_padded] at hnumber
  simp only [fraction, hnumber, hdigits, hlength, bind, Except.bind]
  rfl

theorem fraction_fractionText (h : n < 1000000000) (cs : List Char) :
    fraction ((fractionText n).toList ++ 'Z' :: cs) = .ok (n, 'Z' :: cs) := by
  have hdot (s : String) : ("." ++ s).toList = '.' :: s.toList := by simp
  simp only [fractionText]
  split
  · subst n
    rfl
  · split
    · have hmilli : n / 1000000 * 10 ^ (9 - 3) = n := by omega
      have hfraction := fraction_padded (w := 3) (n := n / 1000000) (by decide) (by decide)
        (by omega) cs
      rw [hdot, List.cons_append, hfraction, hmilli]
    · split
      · have hmicro : n / 1000 * 10 ^ (9 - 6) = n := by omega
        have hfraction := fraction_padded (w := 6) (n := n / 1000) (by decide) (by decide)
          (by omega) cs
        rw [hdot, List.cons_append, hfraction, hmicro]
      · have hfraction := fraction_padded (w := 9) (n := n) (by decide) (by decide) h cs
        rw [hdot, List.cons_append, hfraction, Nat.sub_self, Nat.pow_zero, Nat.mul_one]

theorem ofLocal?_universal (t : Moment) :
    Moment.ofLocal? t.date (60 * t.hour + t.minute) t.second t.nanosecond 0 = some t := by
  obtain ⟨date, hour, minute, second, nanosecond⟩ := t
  have hhour := hour.isLt
  have hminute := minute.isLt
  have hofDay : (((60 * hour.val + minute.val : Nat) : Int) % 1440).toNat =
      60 * hour.val + minute.val := by omega
  have hneg : ¬ (((60 * hour.val + minute.val : Nat) : Int) < 0) := by omega
  have hday : ((60 * hour.val + minute.val : Nat) : Int) < 1440 := by omega
  have hhour : Fin.ofNat 24 ((60 * hour.val + minute.val) / 60) = hour := by
    ext
    simp only [Fin.ofNat]
    omega
  have hminute : Fin.ofNat 60 ((60 * hour.val + minute.val) % 60) = minute := by
    ext
    simp only [Fin.ofNat]
    omega
  simp only [Moment.ofLocal?, Int.sub_zero, if_neg hneg, if_pos hday, hofDay, hhour, hminute]
  rfl

theorem daysInMonth_le (year : Int) (month : Nat) : daysInMonth year month ≤ 31 := by
  simp only [daysInMonth]
  split
  · split <;> decide
  · split <;> decide

/-- What is written of a moment reads back as that moment. -/
theorem ofText_text (t : Moment) : Moment.ofText t.text = .ok t := by
  have hlocal := ofLocal?_universal t
  obtain ⟨date, hour, minute, second, nanosecond⟩ := t
  have hmonth := field_padded date.month_bounds.1 date.month_bounds.2 (by decide)
  have hday := field_padded date.day_bounds.1
    (date.day_bounds.2.trans (daysInMonth_le _ _)) (by decide)
  have hhour := field_padded hour.val.zero_le (Nat.le_of_lt_succ hour.isLt) (by decide)
  have hminute := field_padded minute.val.zero_le (Nat.le_of_lt_succ minute.isLt) (by decide)
  have hsecond := field_padded second.val.zero_le (Nat.le_of_lt_succ second.isLt) (by decide)
  have hminus := mark_cons (c := '-') (by decide)
  have hcolon := mark_cons (c := ':') (by decide)
  have hfraction := fraction_fractionText nanosecond.isLt []
  have hoffset : offset (Text.dropBlank ['Z']) = .ok (0, []) := by decide
  have hdate : Date.of? date.year date.month date.day = some date :=
    Date.of?_eq_some_iff.mpr ⟨rfl, rfl, rfl⟩
  have hsecond' := Nat.mod_eq_of_lt second.isLt
  have hnanosecond' := Nat.mod_eq_of_lt nanosecond.isLt
  simp only [Moment.text, Moment.ofText, String.toList_append, List.append_assoc,
    String.reduceToList, List.cons_append, List.nil_append]
  simp only [year_yearText date.year_bounds, hminus, hmonth, hday, hhour, hcolon, hminute, hsecond,
    hfraction, hoffset, hdate, hsecond', hnanosecond', hlocal, bind, Except.bind, pure, Except.pure]
  rfl

end Gallows.Time
