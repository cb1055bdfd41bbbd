import Gallows.Proofs.Json.Tree

/-!
Values that nobody asked for. Every value is skipped up to its last byte, whatever it is and however
deep it nests.
-/
namespace Gallows.Json

variable {token bs t ds whole fraction scale : List UInt8} {b : UInt8}

theorem Piece.skips (h : Piece token) (t : List UInt8) :
    skipString (token ++ t) = skipString t := by
  cases h with
  | plain h =>
    obtain ⟨h34, h92, h32⟩ := h
    rw [List.singleton_append, skipString.eq_def]
    simp only [h34, h92, h32, if_false]
  | short h =>
    rw [List.cons_append, List.singleton_append, skipString.eq_def]
    simp only [show (92 : UInt8) ≠ 34 by decide, if_false, if_true]
    split
    · rename_i heq
      cases heq
    · rename_i heq
      cases heq
      cases h
    · rename_i heq
      cases heq
      cases h
    · rename_i heq
      cases heq
      rw [if_pos h]
  | code h =>
    simp only [List.cons_append, List.nil_append]
    rw [skipString.eq_3]
    simp [h]

theorem Quoted.skips (h : Quoted (34 :: bs)) (t : List UInt8) : skipString (bs ++ t) = .ok t := by
  obtain ⟨hpieces⟩ := h
  rename_i pieces
  induction pieces with
  | nil =>
    rw [List.flatten_nil, List.nil_append, List.singleton_append, skipString.eq_def]
    rfl
  | cons p pieces ih =>
    obtain ⟨hp, hpieces⟩ := List.forall_mem_cons.mp hpieces
    simpa [hp.skips] using ih hpieces

theorem startsWithDigit_of_ends (h : Ends t) : startsWithDigit t = false := by
  cases t with
  | nil => rfl
  | cons b t =>
    rcases ends_cons_iff.mp h with rfl | rfl | rfl | rfl | rfl | rfl | rfl <;> rfl

theorem dropDigits_append (h : ∀ b ∈ ds, isDigit b) (ht : startsWithDigit t = false) :
    dropDigits (ds ++ t) = t := by
  have hrest : t.dropWhile isDigit = t := by
    cases t with
    | nil => rfl
    | cons b t => simpa [startsWithDigit] using ht
  rw [dropDigits, List.dropWhile_append_of_pos h, hrest]

theorem Digits.startsWithDigit (h : Digits ds) (t : List UInt8) : startsWithDigit (ds ++ t) := by
  obtain ⟨b, ds, rfl⟩ := List.exists_cons_of_ne_nil h.ne_nil
  exact h.all b List.mem_cons_self

theorem Digits.skipExponent {sign : List UInt8} (hsign : Sign [43, 45] sign) (h : Digits ds)
    (ht : Ends t) : skipExponent (sign ++ (ds ++ t)) = .ok t := by
  have hstop := startsWithDigit_of_ends ht
  have hdrop := dropDigits_append h.all hstop
  have hstart := h.startsWithDigit t
  obtain rfl | ⟨b, hb, rfl⟩ := hsign
  · simp only [Json.skipExponent, List.nil_append]
    split
    · rename_i heq
      rw [heq] at hstart
      cases hstart
    · rename_i heq
      rw [heq] at hstart
      cases hstart
    · rw [hstart, if_pos rfl, hdrop]
  · simp only [List.mem_cons, List.not_mem_nil, or_false] at hb
    rcases hb with rfl | rfl <;> simp [Json.skipExponent, hstart, hdrop]

theorem Scale.startsWithDigit (h : Scale scale) (ht : Ends t) :
    startsWithDigit (scale ++ t) = false := by
  obtain rfl | ⟨e, sign, ds, he, hsign, hds, rfl⟩ := h
  · exact startsWithDigit_of_ends ht
  · rcases he with rfl | rfl <;> rfl

theorem Scale.skips (h : Scale scale) (ht : Ends t) : skipScale (scale ++ t) = .ok t := by
  obtain rfl | ⟨e, sign, ds, he, hsign, hds, rfl⟩ := h
  · rw [List.nil_append]
    cases t with
    | nil => rfl
    | cons b t =>
      rcases ends_cons_iff.mp ht with rfl | rfl | rfl | rfl | rfl | rfl | rfl <;> rfl
  · have hexponent := hds.skipExponent hsign ht
    rcases he with rfl | rfl <;> simpa [skipScale] using hexponent

/-- Without a fraction an exponent may stand behind the whole number. -/
theorem Scale.ne_point (h : Scale scale) (ht : Ends t) (bs : List UInt8) :
    scale ++ t ≠ 46 :: bs := by
  obtain rfl | ⟨e, sign, ds, he, hsign, hds, rfl⟩ := h
  · rintro rfl
    simp [ends_cons_iff] at ht
  · rcases he with rfl | rfl <;> simp

theorem Fraction.startsWithDigit (h : Fraction fraction) (hscale : Scale scale) (ht : Ends t) :
    startsWithDigit (fraction ++ (scale ++ t)) = false := by
  obtain rfl | ⟨ds, hds, rfl⟩ := h
  · exact hscale.startsWithDigit ht
  · rfl

/-- No digit stands behind a zero in front. -/
theorem Whole.leading (h : Whole (b :: ds)) (ht : startsWithDigit t = false) :
    (b = 48 && startsWithDigit (ds ++ t)) = false := by
  by_cases hb : b = 48
  · subst hb
    have hzero : (48 :: ds : List UInt8) = [48] := h.zero rfl
    cases hzero
    simpa using ht
  · simp [hb]

theorem Whole.skips (h : Whole whole) (hfraction : Fraction fraction) (hscale : Scale scale)
    (ht : Ends t) : skipMagnitude (whole ++ (fraction ++ (scale ++ t))) = .ok t := by
  have hstop := hfraction.startsWithDigit hscale ht
  obtain ⟨b, ds, rfl⟩ := List.exists_cons_of_ne_nil h.ne_nil
  obtain ⟨hb, hds⟩ := List.forall_mem_cons.mp h.all
  have hzero := h.leading hstop
  simp only [List.cons_append, skipMagnitude, hb, hzero, dropDigits_append hds hstop]
  obtain rfl | ⟨ds', hds', rfl⟩ := hfraction
  · simp only [List.nil_append, Bool.not_true, Bool.or_self, Bool.false_eq_true, if_false]
    split
    · rename_i heq
      exact absurd heq (hscale.ne_point ht _)
    · exact hscale.skips ht
  · have hdrop := dropDigits_append hds'.all (hscale.startsWithDigit ht)
    simp [hds'.startsWithDigit, hdrop, hscale.skips ht]

theorem skipScalar_of_isDigit (h : isDigit b) (t : List UInt8) :
    skipScalar (b :: t) = skipMagnitude (b :: t) := by
  simp only [skipScalar]
  split
  · rename_i heq
    cases heq
  iterate 5
    · rename_i heq
      cases heq
      cases h
  · rename_i heq
    cases heq
    rw [if_pos h]

theorem Single.skips (h : Single token) (ht : Ends t) : skipScalar (token ++ t) = .ok t := by
  cases h with
  | null => exact scanWord_append nullTail t
  | yes => exact scanWord_append trueTail t
  | no => exact scanWord_append falseTail t
  | string h =>
    obtain ⟨hpieces⟩ := h
    exact Quoted.skips (.pieces hpieces) t
  | number hsign hwhole hfraction hscale =>
    have hskip := hwhole.skips hfraction hscale ht
    simp only [List.append_assoc]
    obtain rfl | ⟨b, hb, rfl⟩ := hsign
    · obtain ⟨b, ds, rfl⟩ := List.exists_cons_of_ne_nil hwhole.ne_nil
      have hb := hwhole.all b List.mem_cons_self
      rw [List.cons_append] at hskip
      rw [List.nil_append, List.cons_append, skipScalar_of_isDigit hb, hskip]
    · obtain rfl := List.mem_singleton.mp hb
      exact hskip

/-- Whether a skip gets behind a part of a container: an item, or a member with its key. The fuel is
above twice the number of bytes all the while. -/
def SkipsPart (c : Container) (part : List (List UInt8)) : Prop :=
  ∀ (text t : List UInt8) (fuel : Nat) (around : List Container), Laid part text → Ends t →
    2 * (text ++ t).length < fuel → ∃ bs fuel', skipKey c (text ++ t) = .ok bs ∧
      2 * t.length + 1 < fuel' ∧
      skipFrom fuel .before (c :: around) bs = skipFrom fuel' .behind (c :: around) t

/-- Whether the first token of a part may stand at the start of a value. -/
def OpensPart (part : List (List UInt8)) : Prop :=
  ∃ b token tokens, part = (b :: token) :: tokens ∧ Opens b

variable {c : Container} {around : List Container} {fuel : Nat} {text : List UInt8}
  {parts : List (List (List UInt8))}

theorem Container.close_cases (c : Container) : c.close = 93 ∨ c.close = 125 := by
  cases c
  · exact .inl rfl
  · exact .inr rfl

theorem skipFrom_close {place : Place} (hplace : place ≠ .before) (h : Laid [[c.close]] text)
    (hfuel : 2 * (text ++ t).length + 1 < fuel) :
    ∃ fuel', 2 * t.length + 1 < fuel' ∧
      skipFrom fuel place (c :: around) (text ++ t) = skipFrom fuel' .behind around t := by
  have hblank : isBlank c.close = false := by cases c <;> rfl
  obtain ⟨rest, hrest, hdrop, hlength⟩ := h.first hblank t
  cases hrest
  obtain ⟨fuel, rfl⟩ : ∃ n, fuel = n + 1 := ⟨fuel - 1, by omega⟩
  refine ⟨fuel, ?_, ?_⟩
  · simp only [List.length_append, List.length_nil] at hfuel hlength
    omega
  · cases place with
    | before => exact absurd rfl hplace
    | _ => simp [skipFrom, hdrop]

/-- Behind a part of a container others may follow, up to its closing bracket. -/
theorem skipFrom_behind (hparts : ∀ part ∈ parts, SkipsPart c part)
    (h : Laid (parts.flatMap ([44] :: ·) ++ [[c.close]]) text)
    (hfuel : 2 * (text ++ t).length + 1 < fuel) :
    ∃ fuel', 2 * t.length + 1 < fuel' ∧
      skipFrom fuel .behind (c :: around) (text ++ t) = skipFrom fuel' .behind around t := by
  induction parts generalizing text fuel with
  | nil => exact skipFrom_close (by simp) h hfuel
  | cons part parts ih =>
    obtain ⟨hpart, hparts⟩ := List.forall_mem_cons.mp hparts
    rw [List.flatMap_cons, List.append_assoc] at h
    obtain ⟨rest, hrest, hdrop, hlength⟩ := h.first (by decide) t
    obtain ⟨front, back, rfl, hfront, hback⟩ := laid_append hrest
    obtain ⟨fuel, rfl⟩ : ∃ n, fuel = n + 1 := ⟨fuel - 1, by omega⟩
    simp only [List.length_append, List.length_nil] at hfuel hlength
    obtain ⟨bs, fuel', hkey, hfuel', hskip⟩ := hpart front (back ++ t) fuel around hfront
      (ends_of_more hback c.close_cases t) (by simp only [List.length_append]; omega)
    obtain ⟨fuel'', hfuel'', hbehind⟩ := ih hparts hback hfuel'
    refine ⟨fuel'', hfuel'', ?_⟩
    have hclose : (44 : UInt8) ≠ c.close := by cases c <;> decide
    rw [← hbehind, ← hskip]
    simp [skipFrom, hdrop, hclose, hkey, bind, Except.bind]

/-- Behind the opening bracket of a container. -/
theorem skipFrom_opened (hparts : ∀ part ∈ parts, OpensPart part ∧ SkipsPart c part)
    (h : Laid (separated parts ++ [[c.close]]) text)
    (hfuel : 2 * (text ++ t).length + 1 < fuel) :
    ∃ fuel', 2 * t.length + 1 < fuel' ∧
      skipFrom fuel .opened (c :: around) (text ++ t) = skipFrom fuel' .behind around t := by
  cases parts with
  | nil => exact skipFrom_close (by simp) h hfuel
  | cons part parts =>
    obtain ⟨⟨⟨b, token, tokens, rfl, hb⟩, hpart⟩, hothers⟩ := List.forall_mem_cons.mp hparts
    obtain ⟨hblank, -, hlist, hobject⟩ := hb.ne
    rw [separated, List.append_assoc, List.cons_append] at h
    obtain ⟨rest, hrest, hdrop, hlength⟩ := h.strip hblank t
    rw [← List.cons_append] at hrest
    obtain ⟨front, back, hbs, hfront, hback⟩ := laid_append hrest
    obtain ⟨fuel, rfl⟩ : ∃ n, fuel = n + 1 := ⟨fuel - 1, by omega⟩
    have hcount := congrArg List.length hbs
    simp only [List.length_append, List.length_cons] at hfuel hlength hcount
    obtain ⟨bs, fuel', hkey, hfuel', hskip⟩ := hpart front (back ++ t) fuel around hfront
      (ends_of_more hback c.close_cases t) (by simp only [List.length_append]; omega)
    obtain ⟨fuel'', hfuel'', hbehind⟩ :=
      skipFrom_behind (fun part hp => (hothers part hp).2) hback hfuel'
    refine ⟨fuel'', hfuel'', ?_⟩
    have hclose : b ≠ c.close := by cases c <;> assumption
    rw [← hbehind, ← hskip]
    rw [← List.append_assoc, ← hbs, List.cons_append] at hkey
    simp [skipFrom, hdrop, hclose, hkey, bind, Except.bind]

/-- Whether a skip gets behind a value, wherever the value stands. -/
def Tree.Skips (tree : Tree) : Prop :=
  ∀ (text t : List UInt8) (fuel : Nat) (around : List Container), Laid tree.tokens text → Ends t →
    2 * (text ++ t).length < fuel → ∃ fuel', 2 * t.length + 1 < fuel' ∧
      skipFrom fuel .before around (text ++ t) = skipFrom fuel' .behind around t

theorem skips_single (atom : Atom) : (Tree.single atom).Skips := by
  intro text t fuel around h ht hfuel
  have hskip := atom.property.skips ht
  obtain ⟨b, rest, hatom, hb⟩ := atom.property.leads
  rw [Tree.tokens, hatom] at h
  obtain ⟨rest', hrest, hdrop, hlength⟩ := h.first (Opens.ne (.inl hb)).1 t
  cases hrest
  rw [hatom, List.cons_append] at hskip
  obtain ⟨fuel, rfl⟩ : ∃ n, fuel = n + 1 := ⟨fuel - 1, by omega⟩
  refine ⟨fuel, ?_, ?_⟩
  · simp only [List.length_append, List.length_nil] at hfuel hlength
    omega
  · obtain ⟨hlist, hobject⟩ := hb.ne
    simp only [skipFrom, hdrop, List.nil_append]
    split
    · rename_i heq
      cases heq
      exact absurd rfl hlist
    · rename_i heq
      cases heq
      exact absurd rfl hobject
    · rw [hskip]
      rfl

/-- Behind its opening bracket a container is skipped like its parts. -/
theorem skips_container {tree : Tree} (c : Container) {opening : UInt8}
    (htokens : tree.tokens = [opening] :: (separated parts ++ [[c.close]]))
    (hopening : isBlank opening = false)
    (hstep : ∀ fuel around bs rest, dropBlank bs = opening :: rest →
      skipFrom (fuel + 1) .before around bs = skipFrom fuel .opened (c :: around) rest)
    (hparts : ∀ part ∈ parts, OpensPart part ∧ SkipsPart c part) : tree.Skips := by
  intro text t fuel around h _ hfuel
  rw [htokens] at h
  obtain ⟨rest, hrest, hdrop, hlength⟩ := h.first hopening t
  obtain ⟨fuel, rfl⟩ : ∃ n, fuel = n + 1 := ⟨fuel - 1, by omega⟩
  simp only [List.length_append, List.length_nil] at hfuel hlength
  rw [hstep fuel around _ _ hdrop]
  exact skipFrom_opened hparts hrest (by simp only [List.length_append]; omega)

theorem Quoted.opensPart (h : Quoted token) (tokens : List (List UInt8)) :
    OpensPart (token :: tokens) := by
  obtain ⟨-⟩ := h
  exact ⟨34, _, tokens, rfl, .inl (.inr (.inr (.inr (.inl rfl))))⟩

theorem skipsPart_member {value : Tree} (hname : Quoted token) (hvalue : value.Skips) :
    SkipsPart .object (token :: [58] :: value.tokens) := by
  intro text t fuel around h ht hfuel
  obtain ⟨name, rfl⟩ : ∃ name, token = 34 :: name := by
    obtain ⟨-⟩ := hname
    exact ⟨_, rfl⟩
  obtain ⟨rest, hrest, hdrop, hlength⟩ := h.first rfl t
  obtain ⟨rest', hrest', hdrop', hlength'⟩ := hrest.first rfl t
  simp only [List.length_append, List.length_nil] at hfuel hlength hlength'
  obtain ⟨fuel', hfuel', hskip⟩ := hvalue rest' t fuel (.object :: around) hrest' ht
    (by simp only [List.length_append]; omega)
  refine ⟨rest' ++ t, fuel', ?_, hfuel', hskip⟩
  simp only [skipKey, hdrop, hname.skips, hdrop', List.nil_append, bind, Except.bind]
  rfl

/-- A value of any kind is skipped. -/
theorem Tree.skips (tree : Tree) : tree.Skips := by
  induction tree using Tree.induction with
  | single atom => exact skips_single atom
  | list items ih =>
    refine skips_container .list (by rw [tokens, itemTokens_eq]; rfl) rfl ?_ ?_
    · intro fuel around bs rest hdrop
      simp only [skipFrom, hdrop]
    · intro part hpart
      obtain ⟨item, hitem, rfl⟩ := List.mem_map.mp hpart
      refine ⟨item.opens, ?_⟩
      intro text t fuel around h ht hfuel
      obtain ⟨fuel', hfuel', hskip⟩ := ih item hitem text t fuel (.list :: around) h ht hfuel
      exact ⟨text ++ t, fuel', rfl, hfuel', hskip⟩
  | object members ih =>
    refine skips_container .object (by rw [tokens, memberTokens_eq]; rfl) rfl ?_ ?_
    · intro fuel around bs rest hdrop
      simp only [skipFrom, hdrop]
    · intro part hpart
      obtain ⟨m, hm, rfl⟩ := List.mem_map.mp hpart
      exact ⟨m.1.property.opensPart _, skipsPart_member m.1.property (ih m hm)⟩

/-- A value of any kind is skipped, if what follows lets it end. -/
theorem skipValue_laid {tree : Tree} {size : Nat} (h : Laid tree.tokens text) (ht : Ends t)
    (hsize : (text ++ t).length ≤ size) : skipValue size (text ++ t) = .ok t := by
  obtain ⟨fuel', hfuel', hskip⟩ := tree.skips text t (2 * size + 2) [] h ht (by omega)
  obtain ⟨fuel', rfl⟩ : ∃ n, fuel' = n + 1 := ⟨fuel' - 1, by omega⟩
  rw [skipValue, hskip]
  rfl

end Gallows.Json
