import Gallows.Proofs.Json.Whole
import Gallows.Proofs.Toml.Strings
import Gallows.Toml.Number

/-!
Numbers in TOML texts. A whole number reads back at the end of a line, as a number and as nothing
else.
-/
namespace Gallows.Toml

variable {c : Char} {digits rest : List Char} {n : Nat}

/-- Whether characters are those of a whole number: decimal digits without a zero in front. -/
structure Whole (digits : List Char) : Prop where
  ne_nil : digits ≠ []
  isDigit : ∀ c ∈ digits, c.isDigit
  zero : digits.head? = some '0' → digits = ['0']

theorem whole_toDigits (n : Nat) : Whole (Nat.toDigits 10 n) := by
  refine ⟨Nat.toDigits_ne_nil, Json.isDigit_toDigits n, fun hzero => ?_⟩
  by_cases hn : n = 0
  · subst n
    rfl
  · exact absurd hzero (Json.head?_toDigits hn)

theorem scanDigits_line (h : ∀ c ∈ digits, c.isDigit) (rest : List Char) :
    scanDigits Char.isDigit (digits ++ '\n' :: rest) = (digits, '\n' :: rest) := by
  induction digits with
  | nil => rfl
  | cons c digits ih =>
    obtain ⟨hc, hdigits⟩ := List.forall_mem_cons.mp h
    have hne : c ≠ '_' := ne_of_class hc (by decide)
    simp [scanDigits, hne, hc, ih hdigits]

theorem scanNumeral_line (h : Whole digits) (rest : List Char) :
    scanNumeral Char.isDigit (digits ++ '\n' :: rest) = some (digits, '\n' :: rest) := by
  obtain ⟨c, cs, rfl⟩ := List.exists_cons_of_ne_nil h.ne_nil
  have hne : c ≠ '_' := ne_of_class (h.isDigit c List.mem_cons_self) (by decide)
  have hdigits := scanDigits_line h.isDigit rest
  rw [List.cons_append] at hdigits ⊢
  simp [scanNumeral, hne, hdigits]

theorem scanWhole_line (h : Whole digits) (rest : List Char) :
    scanWhole (digits ++ '\n' :: rest) = some (digits, '\n' :: rest) := by
  by_cases hzero : digits.head? = some '0'
  · rw [h.zero hzero]
    rfl
  · have hnumeral := scanNumeral_line h rest
    obtain ⟨c, cs, rfl⟩ := List.exists_cons_of_ne_nil h.ne_nil
    have hne : c ≠ '0' := by simpa using hzero
    rw [List.cons_append] at hnumeral ⊢
    simp [scanWhole, hne, hnumeral]

/-- Digits have no sign. -/
theorem scanSign_line (h : Whole digits) (rest : List Char) :
    scanSign (digits ++ '\n' :: rest) = (false, digits ++ '\n' :: rest) := by
  obtain ⟨c, cs, rfl⟩ := List.exists_cons_of_ne_nil h.ne_nil
  have hc := h.isDigit c List.mem_cons_self
  have hplus : c ≠ '+' := ne_of_class hc (by decide)
  have hminus : c ≠ '-' := ne_of_class hc (by decide)
  simp [scanSign, hplus, hminus]

theorem valueIn_toDigits (n : Nat) : valueIn 10 (Nat.toDigits 10 n) = n := by
  have hfold (cs : List Char) (h : ∀ c ∈ cs, c.isDigit) (start : Nat) :
      cs.foldl (fun n c => 10 * n + (hexDigit? c).getD 0) start = Nat.ofDigitChars 10 cs start := by
    induction cs generalizing start with
    | nil => rfl
    | cons c cs ih =>
      obtain ⟨hc, hcs⟩ := List.forall_mem_cons.mp h
      rw [List.foldl_cons, ih hcs, Nat.ofDigitChars_cons, hexDigit?, if_pos hc]
      rfl
  rw [valueIn, hfold _ (Json.isDigit_toDigits n), Nat.ofDigitChars_ten_toDigits]

/-- A field of a date leaves digits in front of the end of the line. -/
theorem scanField_line {count low high value : Nat} {cs : List Char}
    (h : ∀ c ∈ digits, c.isDigit)
    (hs : scanField count low high (digits ++ '\n' :: rest) = some (value, cs)) :
    ∃ more, (∀ c ∈ more, c.isDigit) ∧ cs = more ++ '\n' :: rest := by
  rw [scanField] at hs
  split at hs
  · rename_i hall
    obtain ⟨-, rfl⟩ := Prod.mk.inj (Option.some.inj hs)
    simp only [Bool.and_eq_true, List.all_eq_true] at hall
    have hle : count ≤ digits.length := by
      by_contra hlt
      have hline : '\n' ∈ (digits ++ '\n' :: rest).take count := by
        obtain ⟨k, hk⟩ := Nat.exists_eq_add_of_lt (Nat.lt_of_not_le hlt)
        rw [hk, List.take_append]
        simp [Nat.add_assoc]
      exact absurd (hall.1.1.2 _ hline) (by decide)
    refine ⟨digits.drop count, fun c hc => h c (List.mem_of_mem_drop hc), ?_⟩
    rw [List.drop_append_of_le_length hle]
  · cases hs

theorem expect_line (h : ∀ c ∈ digits, c.isDigit) (hd : c.isDigit = false) (hn : c ≠ '\n') :
    expect c (digits ++ '\n' :: rest) = none := by
  cases digits with
  | nil => exact if_neg hn
  | cons d digits =>
    exact if_neg (ne_of_class (h d List.mem_cons_self) hd).symm

/-- A number in front of the end of a line is neither a date nor a time. -/
theorem scanMoment_line (h : Whole digits) (rest : List Char) :
    scanMoment (digits ++ '\n' :: rest) = none := by
  have htime : startsTime (digits ++ '\n' :: rest) = false := by
    rw [startsTime]
    cases hs : scanField 2 0 23 (digits ++ '\n' :: rest) with
    | none => rfl
    | some r =>
      obtain ⟨value, cs⟩ := r
      obtain ⟨more, hmore, rfl⟩ := scanField_line h.isDigit hs
      simp [expect_line hmore]
  have hdate : scanDate (digits ++ '\n' :: rest) = none := by
    rw [scanDate]
    cases hs : scanField 4 0 9999 (digits ++ '\n' :: rest) with
    | none => rfl
    | some r =>
      obtain ⟨value, cs⟩ := r
      obtain ⟨more, hmore, rfl⟩ := scanField_line h.isDigit hs
      simp [expect_line hmore]
  rw [scanMoment, htime, hdate]
  rfl

/-- A number in front of the end of a line has neither a fraction nor an exponent. -/
theorem scanReal_line (h : Whole digits) (rest : List Char) :
    scanReal (digits ++ '\n' :: rest) = none := by
  have hwhole := scanWhole_line h rest
  rw [scanReal, scanSign_line h]
  obtain ⟨c, cs, rfl⟩ := List.exists_cons_of_ne_nil h.ne_nil
  have hc := h.isDigit c List.mem_cons_self
  have hinf : c ≠ 'i' := ne_of_class hc (by decide)
  have hnan : c ≠ 'n' := ne_of_class hc (by decide)
  rw [List.cons_append] at hwhole ⊢
  simp [hinf, hnan, hwhole, scanExponent]

theorem integer?_of_lt (h : n < 0x8000000000000000) : integer? n = some (.integer n) := by
  have hbounds : -0x8000000000000000 ≤ (n : Int) ∧ (n : Int) < 0x8000000000000000 := by omega
  rw [integer?, if_pos hbounds]

/-- A number without a sign whose second character names no base is decimal. -/
theorem scanInteger_decimal {cs : List Char}
    (hbase : ∀ rest, cs ≠ '0' :: 'x' :: rest ∧ cs ≠ '0' :: 'o' :: rest ∧ cs ≠ '0' :: 'b' :: rest)
    (hsign : scanSign cs = (false, cs)) (hwhole : scanWhole cs = some (digits, rest)) :
    scanInteger cs = (integer? (valueIn 10 digits)).map fun node => (node, rest) := by
  rw [scanInteger, hsign]
  · simp only [hwhole, Option.bind_eq_bind]
    rw [Option.bind_some, if_neg Bool.false_ne_true, Option.map_eq_bind]
    rfl
  · exact fun r => (hbase r).1
  · exact fun r => (hbase r).2.1
  · exact fun r => (hbase r).2.2

theorem scanInteger_line (h : Whole digits) (rest : List Char)
    (hn : valueIn 10 digits < 0x8000000000000000) :
    scanInteger (digits ++ '\n' :: rest) =
      some (.integer (valueIn 10 digits), '\n' :: rest) := by
  have hbase (r : List Char) : digits ++ '\n' :: rest ≠ '0' :: 'x' :: r ∧
      digits ++ '\n' :: rest ≠ '0' :: 'o' :: r ∧ digits ++ '\n' :: rest ≠ '0' :: 'b' :: r := by
    by_cases hzero : digits.head? = some '0'
    · rw [h.zero hzero]
      simp
    · obtain ⟨c, cs, rfl⟩ := List.exists_cons_of_ne_nil h.ne_nil
      have hne : c ≠ '0' := by simpa using hzero
      simp [hne]
  rw [scanInteger_decimal hbase (scanSign_line h rest) (scanWhole_line h rest),
    integer?_of_lt hn]
  rfl

/-- What is written of a number reads back at the end of a line. -/
theorem scanNumber_toString (h : n < 0x8000000000000000) (rest : List Char) :
    scanNumber ((toString n).toList ++ '\n' :: rest) = some (.integer n, '\n' :: rest) := by
  have hwhole := whole_toDigits n
  have hvalue := valueIn_toDigits n
  have hlist : (toString n).toList = Nat.toDigits 10 n := Nat.toList_repr
  rw [hlist, scanNumber, scanMoment_line hwhole, scanReal_line hwhole,
    scanInteger_line hwhole rest (by rwa [hvalue]), hvalue]
  rfl

end Gallows.Toml
