import Gallows.Toml.Quoted
import Gallows.Toml.Scan
import Mathlib

/-!
Strings in TOML texts. Whatever form a string is written in, it reads back at the end of a line.
-/
namespace Gallows.Toml

variable {c q : Char} {cs text rest : List Char} {row : Nat}

/-- A character of a class is none of those that are not. -/
theorem ne_of_class {p : Char → Bool} {d : Char} (hc : p c) (hd : p d = false) : c ≠ d := by
  rintro rfl
  rw [hc] at hd
  cases hd

/-- The ways to spell a character between double quotes. -/
inductive Spelling (c : Char) : List Char → Prop
  | plain (h : isBasicChar c) : Spelling c [c]
  | short {e : Char} (h : escapes.lookup e = some c) : Spelling c ['\\', e]
  | code {a b d e : Char} (h : codePoint? [a, b, d, e] = some c) :
      Spelling c ['\\', 'u', a, b, d, e]

theorem codePoint?_digits : ∀ n, n < 128 →
    codePoint? ['0', '0', (Nat.digitChar (n / 16)).toUpper, (Nat.digitChar (n % 16)).toUpper] =
      some (Char.ofNat n) := by
  decide

theorem spelling_escape (hq : c ≠ '"') : Spelling c (escape c) := by
  by_cases hshort : c ∈ ['\x08', '\t', '\n', '\x0c', '\r', '\\']
  · simp only [List.mem_cons, List.not_mem_nil, or_false] at hshort
    rcases hshort with rfl | rfl | rfl | rfl | rfl | rfl <;> exact .short rfl
  · simp only [List.mem_cons, List.not_mem_nil, or_false, not_or] at hshort
    obtain ⟨hback, htab, hline, hfeed, hreturn, hslash⟩ := hshort
    simp only [escape, if_neg hback, if_neg htab, if_neg hline, if_neg hfeed, if_neg hreturn,
      if_neg hslash]
    by_cases hcontrol : c < ' ' ∨ c = '\x7f'
    · have hn : c.toNat < 128 := by
        obtain hlow | rfl := hcontrol
        · exact Nat.lt_trans (show c.toNat < 32 from hlow) (by decide)
        · decide
      have hcode := codePoint?_digits c.toNat hn
      rw [Char.ofNat_toNat] at hcode
      rw [if_pos (by simpa using hcontrol)]
      exact .code hcode
    · rw [if_neg (by simpa using hcontrol)]
      obtain ⟨hlow, hdelete⟩ := not_or.mp hcontrol
      exact .plain (by simp [isBasicChar, hq, hslash, hdelete, Char.not_lt.mp hlow])

/-- Quotes and line breaks are not spelled as they are. -/
theorem Spelling.eq_cons (h : Spelling c cs) :
    ∃ d ds, cs = d :: ds ∧ d ≠ '"' ∧ d ≠ '\n' ∧ d ≠ '\r' := by
  have hslash (ds : List Char) :
      ∃ d es, '\\' :: ds = d :: es ∧ d ≠ '"' ∧ d ≠ '\n' ∧ d ≠ '\r' :=
    ⟨'\\', ds, rfl, by decide, by decide, by decide⟩
  cases h with
  | plain h =>
    exact ⟨c, [], rfl, ne_of_class h (by decide), ne_of_class h (by decide),
      ne_of_class h (by decide)⟩
  | short | code => exact hslash _

theorem mem_of_escapes {e : Char} (h : escapes.lookup e = some c) :
    e ∈ ['b', 't', 'n', 'f', 'r', '"', '\\'] := by
  obtain ⟨before, behind, heq, -⟩ := List.lookup_eq_some_iff.mp h
  have hmem : (e, c) ∈ escapes := by simp [heq]
  exact List.mem_map_of_mem (f := Prod.fst) hmem

/-- A spelled character is read between double quotes. -/
theorem Spelling.scanBasic (h : Spelling c cs) :
    scanBasic (cs ++ rest) = consing c (scanBasic rest) := by
  cases h with
  | plain h =>
    have hquote : c ≠ '"' := ne_of_class h (by decide)
    have hslash : c ≠ '\\' := ne_of_class h (by decide)
    simp [Toml.scanBasic, h, hslash]
  | @short e h =>
    have he := mem_of_escapes h
    simp only [List.mem_cons, List.not_mem_nil, or_false] at he
    rcases he with rfl | rfl | rfl | rfl | rfl | rfl | rfl <;> simp [Toml.scanBasic, h]
  | code h => simp [Toml.scanBasic, h]

/-- A spelled character is read between three double quotes. -/
theorem Spelling.scanBasicLines (h : Spelling c cs) :
    scanBasicLines false (cs ++ rest) = consing c (scanBasicLines false rest) := by
  cases h with
  | plain h =>
    have hquote : c ≠ '"' := ne_of_class h (by decide)
    have hslash : c ≠ '\\' := ne_of_class h (by decide)
    have hreturn : c ≠ '\r' := ne_of_class h (by decide)
    simp [Toml.scanBasicLines, h, hquote, hslash, hreturn]
  | @short e h =>
    have he := mem_of_escapes h
    simp only [List.mem_cons, List.not_mem_nil, or_false] at he
    rcases he with rfl | rfl | rfl | rfl | rfl | rfl | rfl <;>
      simp [Toml.scanBasicLines, h, dropBlank, isBlank, newline?]
  | code h => simp [Toml.scanBasicLines, h]

theorem scanBasic_basicBody (text rest : List Char) :
    scanBasic (basicBody text ++ '"' :: rest) = some (text, rest) := by
  induction text with
  | nil => rfl
  | cons c text ih =>
    have hc : Spelling c (if c = '"' then ['\\', '"'] else escape c) := by
      split
      · subst c
        exact .short rfl
      · rename_i hq
        exact spelling_escape hq
    rw [basicBody, List.flatMap_cons, List.append_assoc, hc.scanBasic]
    rw [basicBody] at ih
    rw [ih]
    rfl

/-- A double quote that at most one other follows belongs to the text. -/
theorem scanBasicLines_quote (h : ∀ ds, cs ≠ '"' :: '"' :: ds) :
    scanBasicLines false ('"' :: cs) = consing '"' (scanBasicLines false cs) := by
  simp [scanBasicLines, h]

theorem basicLinesBody_cons (h : c = '"' → row = 2) (text : List Char) :
    ∃ d ds, basicLinesBody row (c :: text) = d :: ds ∧ d ≠ '"' := by
  rw [basicLinesBody]
  split
  · rename_i hq
    rw [if_pos (h hq)]
    exact ⟨_, _, rfl, by decide⟩
  · rename_i hq
    split
    · exact ⟨_, _, rfl, by decide⟩
    · obtain ⟨d, ds, hds, hd, -⟩ := (spelling_escape hq).eq_cons
      exact ⟨d, ds ++ _, by rw [hds]; rfl, hd⟩

/-- Behind a quote that is not escaped, two more follow only where the text ends. -/
theorem basicLinesBody_apart (hrow : row = 1 ∨ row = 2) (text cs : List Char) :
    (∀ ds, basicLinesBody row text ++ '"' :: cs ≠ '"' :: '"' :: ds) ∨
      text = [] ∨ row = 1 ∧ text = ['"'] := by
  cases text with
  | nil => exact .inr (.inl rfl)
  | cons c text =>
    by_cases hc : c = '"' → row = 2
    · obtain ⟨d, ds, hds, hd⟩ := basicLinesBody_cons hc text
      exact .inl (by simp [hds, hd])
    · obtain ⟨rfl, rfl⟩ : c = '"' ∧ row = 1 := by tauto
      cases text with
      | nil => exact .inr (.inr ⟨rfl, rfl⟩)
      | cons e text =>
        obtain ⟨d, ds, hds, hd⟩ := basicLinesBody_cons (c := e) (fun _ => rfl) text
        have hbody : basicLinesBody 1 ('"' :: e :: text) = '"' :: d :: ds := by
          rw [← hds]
          rfl
        exact .inl (by simp [hbody, hd])

/-- A text between three double quotes reads back when so many quotes stand in front of it as have
been counted. -/
theorem scanBasicLines_body (text rest : List Char) (hrow : row ≤ 2) :
    scanBasicLines false (basicLinesBody row text ++ '"' :: '"' :: '"' :: '\n' :: rest) =
      some (text, '\n' :: rest) := by
  induction text generalizing row with
  | nil => rfl
  | cons c text ih =>
    by_cases hq : c = '"'
    · subst c
      rw [basicLinesBody, if_pos rfl]
      by_cases htwo : row = 2
      · have hescaped : Spelling '"' ['\\', '"'] := .short rfl
        rw [if_pos htwo]
        refine hescaped.scanBasicLines.trans ?_
        rw [List.append_eq, ih (Nat.zero_le 2)]
        rfl
      · rw [if_neg htwo, List.cons_append]
        -- Quotes at the end of the text are taken along with the closing ones.
        obtain hapart | rfl | ⟨hone, rfl⟩ := basicLinesBody_apart
          (show row + 1 = 1 ∨ row + 1 = 2 by omega) text ('"' :: '"' :: '\n' :: rest)
        · rw [scanBasicLines_quote hapart, ih (by omega)]
          rfl
        · rfl
        · rw [hone]
          rfl
    · rw [basicLinesBody, if_neg hq]
      split
      · subst c
        simp [scanBasicLines, ih, consing]
      · rw [List.append_assoc, (spelling_escape hq).scanBasicLines, ih (Nat.zero_le 2)]
        rfl

/-! A text that stands as it is. -/

/-- A row of quotes counts at least those that stand in front of a text. -/
theorem le_longestRow (q : Char) (n : Nat) (text : List Char) : n ≤ longestRow q n text := by
  induction text generalizing n with
  | nil => exact Nat.le_refl n
  | cons c text ih =>
    rw [longestRow]
    split
    · exact Nat.le_of_succ_le (ih (n + 1))
    · exact Nat.le_max_left _ _

theorem not_mem_of_longestRow {n : Nat} (h : longestRow q n text = 0) : q ∉ text := by
  induction text generalizing n with
  | nil => exact List.not_mem_nil
  | cons c text ih =>
    rw [longestRow] at h
    split at h
    · have hle := le_longestRow q (n + 1) text
      omega
    · rename_i hc
      exact List.not_mem_cons_of_ne_of_not_mem (Ne.symm hc) (ih (Nat.max_eq_zero_iff.mp h).2)

/-- A text between single quotes reads back. -/
theorem scanLiteral_text (h : ∀ c ∈ text, isLiteralChar c) (rest : List Char) :
    scanLiteral (text ++ '\'' :: rest) = some (text, rest) := by
  have hquote : isLiteralChar '\'' = false := by decide
  simp [scanLiteral, List.dropWhile_append_of_pos h, List.takeWhile_append_of_pos h, hquote]

/-- A single quote that at most one other follows belongs to the text. -/
theorem scanLiteralLines_quote (h : ∀ ds, cs ≠ '\'' :: '\'' :: ds) :
    scanLiteralLines ('\'' :: cs) = consing '\'' (scanLiteralLines cs) := by
  simp [scanLiteralLines, h]

theorem scanLiteralLines_cons (h : c = '\n' ∨ isLiteralChar c) :
    scanLiteralLines (c :: cs) = consing c (scanLiteralLines cs) := by
  have hq : c ≠ '\'' := by
    rintro rfl
    exact absurd h (by decide)
  have hr : c ≠ '\r' := by
    rintro rfl
    exact absurd h (by decide)
  rw [scanLiteralLines, if_pos]
  · obtain rfl | h := h
    · rfl
    · simp [h]
  all_goals tauto

/-- Behind a quote in a text without three in a row, two more follow only where the text ends. -/
theorem literalLines_apart (hrow : longestRow '\'' (row + 1) text ≤ 2) (cs : List Char) :
    (∀ ds, text ++ '\'' :: cs ≠ '\'' :: '\'' :: ds) ∨ text = [] ∨ text = ['\''] := by
  match text with
  | [] => exact .inr (.inl rfl)
  | [c] =>
    by_cases hc : c = '\''
    · exact .inr (.inr (by rw [hc]))
    · exact .inl (by simp [hc])
  | c :: d :: text =>
    have hapart : ¬ (c = '\'' ∧ d = '\'') := by
      rintro ⟨rfl, rfl⟩
      rw [longestRow, if_pos rfl, longestRow, if_pos rfl] at hrow
      have hle := le_longestRow '\'' (row + 1 + 1 + 1) text
      omega
    exact .inl (by simpa using hapart)

/-- A text between three single quotes reads back when it has at most two of them in a row. -/
theorem scanLiteralLines_text (h : ∀ c ∈ text, c = '\n' ∨ c = '\'' ∨ isLiteralChar c)
    (hrow : longestRow '\'' row text ≤ 2) (rest : List Char) :
    scanLiteralLines (text ++ '\'' :: '\'' :: '\'' :: '\n' :: rest) =
      some (text, '\n' :: rest) := by
  induction text generalizing row with
  | nil => rfl
  | cons c text ih =>
    obtain ⟨hc, htext⟩ := List.forall_mem_cons.mp h
    rw [longestRow] at hrow
    rw [List.cons_append]
    by_cases hq : c = '\''
    · subst c
      rw [if_pos rfl] at hrow
      -- Quotes at the end of the text are taken along with the closing ones.
      obtain hapart | rfl | rfl := literalLines_apart hrow ('\'' :: '\'' :: '\n' :: rest)
      · rw [scanLiteralLines_quote hapart, ih htext hrow]
        rfl
      · rfl
      · rfl
    · rw [if_neg hq] at hrow
      have hplain : c = '\n' ∨ isLiteralChar c := by tauto
      rw [scanLiteralLines_cons hplain, ih htext (Nat.max_le.mp hrow).2]
      rfl

/-! A string as a whole. -/

/-- A character that needs no escape stands for itself, or it is a line break or a quote. -/
theorem isLiteralChar_of_needsEscape (h : needsEscape c = false) :
    c = '\n' ∨ c = '\'' ∨ isLiteralChar c := by
  simp only [needsEscape, isLiteralChar, ← Char.not_lt] at h ⊢
  by_cases hlow : c < ' ' <;> simp_all <;> tauto

/-- The first line break is not part of the text. -/
theorem dropFirstBreak_leadingBreak (h : '\n' ∉ text → newline? cs = none) :
    dropFirstBreak (leadingBreak text ++ cs) = cs := by
  rw [leadingBreak]
  by_cases hline : '\n' ∈ text
  · rw [if_pos (by simpa using hline)]
    rfl
  · rw [if_neg (by simpa using hline), List.nil_append, dropFirstBreak, h hline]
    rfl

/-- Whether a form can show a text. Between single quotes nothing is escaped. -/
inductive Style.Shows (text : List Char) : Style → Prop
  | basic : Shows text .basic
  | literal (h : ∀ c ∈ text, isLiteralChar c) : Shows text .literal
  | basicLines : Shows text .basicLines
  | literalLines (h : ∀ c ∈ text, c = '\n' ∨ c = '\'' ∨ isLiteralChar c)
      (hrow : longestRow '\'' 0 text ≤ 2) : Shows text .literalLines

theorem Style.shows_of (text : List Char) : (Style.of text).Shows text := by
  have hplain (h : text.any needsEscape = false) :
      ∀ c ∈ text, c = '\n' ∨ c = '\'' ∨ isLiteralChar c :=
    fun c hc => isLiteralChar_of_needsEscape (by simpa using List.any_eq_false.mp h c hc)
  simp only [Style.of]
  split
  · exact .basic
  · split
    · rename_i h
      simp only [Bool.and_eq_true, Bool.not_eq_true', decide_eq_true_eq] at h
      obtain ⟨⟨hescapes, hsingles⟩, hlines⟩ := h
      refine .literal fun c hc => ?_
      obtain rfl | rfl | h := hplain hescapes c hc
      · simp_all
      · exact absurd hc (not_mem_of_longestRow hsingles)
      · exact h
    · split
      · exact .basicLines
      · split
        · rename_i h
          simp only [Bool.and_eq_true, Bool.not_eq_true', decide_eq_true_eq] at h
          exact .literalLines (hplain h.1) h.2
        · split
          · exact .basicLines
          · exact .basic

theorem basicBody_cons (c : Char) (text : List Char) :
    ∃ d ds, basicBody (c :: text) = d :: ds ∧ d ≠ '"' := by
  rw [basicBody, List.flatMap_cons]
  split
  · exact ⟨_, _, rfl, by decide⟩
  · rename_i hq
    obtain ⟨d, ds, hds, hd, -⟩ := (spelling_escape hq).eq_cons
    exact ⟨d, ds ++ _, by rw [hds]; rfl, hd⟩

theorem newline?_cons (hn : c ≠ '\n') (hr : c ≠ '\r') (cs : List Char) :
    newline? (c :: cs) = none := by
  simp [newline?, hn, hr]

theorem newline?_basicLinesBody (h : '\n' ∉ text) :
    newline? (basicLinesBody 0 text ++ '"' :: cs) = none := by
  cases text with
  | nil => rfl
  | cons c text =>
    have hline : c ≠ '\n' := fun he => h (by simp [he])
    rw [basicLinesBody, if_neg hline]
    split
    · rfl
    · rename_i hq
      obtain ⟨d, ds, hds, -, hn, hr⟩ := (spelling_escape hq).eq_cons
      rw [hds]
      exact newline?_cons hn hr _

theorem newline?_literalLines (h : ∀ c ∈ text, c = '\n' ∨ c = '\'' ∨ isLiteralChar c)
    (hline : '\n' ∉ text) : newline? (text ++ '\'' :: cs) = none := by
  cases text with
  | nil => rfl
  | cons c text =>
    have hn : c ≠ '\n' := fun he => hline (by simp [he])
    obtain rfl | rfl | hc := h c List.mem_cons_self
    · exact absurd rfl hn
    · rfl
    · exact newline?_cons hn (ne_of_class hc (by decide)) _

theorem scanString_doubleQuote (h : ∀ ds, cs ≠ '"' :: '"' :: ds)
    (hs : scanBasic cs = some (text, rest)) :
    scanString ('"' :: cs) = some (String.ofList text, rest) := by
  simp [scanString, hs]

theorem scanString_singleQuote (h : ∀ ds, cs ≠ '\'' :: '\'' :: ds)
    (hs : scanLiteral cs = some (text, rest)) :
    scanString ('\'' :: cs) = some (String.ofList text, rest) := by
  simp [scanString, hs]

/-- Whatever form shows a text, the text reads back at the end of a line. -/
theorem Style.Shows.scanString {style : Style} (h : style.Shows text) (rest : List Char) :
    scanString (style.write text ++ '\n' :: rest) = some (String.ofList text, '\n' :: rest) := by
  cases h with
  | basic =>
    have hbody := scanBasic_basicBody text ('\n' :: rest)
    rw [Style.write, List.append_assoc, List.append_assoc]
    refine scanString_doubleQuote ?_ hbody
    cases text with
    | nil => simp [basicBody]
    | cons c text =>
      obtain ⟨d, ds, hds, hd⟩ := basicBody_cons c text
      simp [hds, hd]
  | literal h =>
    have hbody := scanLiteral_text h ('\n' :: rest)
    rw [Style.write, List.append_assoc, List.append_assoc]
    refine scanString_singleQuote ?_ hbody
    cases text with
    | nil => simp
    | cons c text =>
      have hq : c ≠ '\'' := ne_of_class (h c List.mem_cons_self) (by decide)
      simp [hq]
  | basicLines =>
    have hbody := scanBasicLines_body text rest (Nat.zero_le 2)
    rw [← dropFirstBreak_leadingBreak newline?_basicLinesBody] at hbody
    simp [Style.write, Toml.scanString, hbody]
  | literalLines h hrow =>
    have hbody := scanLiteralLines_text h hrow rest
    rw [← dropFirstBreak_leadingBreak (newline?_literalLines h)] at hbody
    simp [Style.write, Toml.scanString, hbody]

/-- What is written of a text reads back at the end of a line. -/
theorem scanString_quote (text : String) (rest : List Char) :
    scanString ((quote text).toList ++ '\n' :: rest) = some (text, '\n' :: rest) := by
  rw [quote, String.toList_ofList, (Style.shows_of text.toList).scanString, String.ofList_toList]

end Gallows.Toml
