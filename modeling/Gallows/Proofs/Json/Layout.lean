import Gallows.Json.Reader
import Gallows.Proofs.Json.Tree

/-!
Readers on texts that are laid out in any way: blanks may stand around every token.
-/
namespace Gallows.Json

variable {α σ : Type} {depth size fuel : Nat} {read : Read α} {l : Limits} {tree : Tree}
  {text t : List UInt8} {a : α}

/-- Whether a reader gives `a` for a tree, however it is laid out and whatever follows. The tree
holds containers within containers, at most `depth` of them. -/
def Accepts (depth : Nat) (read : Read α) (tree : Tree) (a : α) : Prop :=
  ∀ (l : Limits) (text t : List UInt8), depth < l.depth → Laid tree.tokens text → Ends t →
    (text ++ t).length ≤ l.size → read l (text ++ t) = .ok (a, t)

theorem Accepts.mono (h : Accepts depth read tree a) {depth' : Nat} (hle : depth ≤ depth') :
    Accepts depth' read tree a :=
  fun l text t hd => h l text t (Nat.lt_of_le_of_lt hle hd)

theorem dropBlank_of_blank {blank : List UInt8} (h : ∀ b ∈ blank, isBlank b) :
    dropBlank blank = [] := by
  rw [dropBlank, List.dropWhile_eq_nil_iff]
  exact h

theorem enter_of_lt (h : depth + 1 < l.depth) :
    l.enter = .ok { l with depth := l.depth - 1 } := by
  rw [Limits.enter, if_neg (by omega)]

/-- A text that holds a tree and nothing else. -/
theorem Accepts.readWhole {bs : List UInt8} (h : Accepts depth read tree a)
    (hd : depth < depthLimit) (hbs : tree.LaidOut bs) : readWhole read bs = .ok a := by
  obtain ⟨text, blank, rfl, htext, hblank⟩ := hbs
  have hread := h ⟨depthLimit, (text ++ blank).length⟩ text blank hd htext (ends_of_blank hblank)
    (Nat.le_refl _)
  simp only [Json.readWhole, hread, dropBlank_of_blank hblank, bind, Except.bind]
  rfl

/-- A value without parts is the first token of a text. -/
theorem Laid.atom {atom : Atom} {b : UInt8} {rest : List UInt8}
    (h : Laid (Tree.single atom).tokens text) (hatom : atom.val = b :: rest) (t : List UInt8) :
    dropBlank (text ++ t) = b :: (rest ++ t) ∧ rest.length < text.length := by
  obtain ⟨b', rest', hatom', hb⟩ := atom.property.leads
  rw [hatom] at hatom'
  cases hatom'
  rw [Tree.tokens, hatom] at h
  obtain ⟨bs, hbs, hdrop, hlength⟩ := h.first (Opens.ne (.inl hb)).1 t
  cases hbs
  exact ⟨hdrop, hlength⟩

theorem accepts_text (expected : String) {s : String} {atom : Atom}
    (h : Spells s atom.val) : Accepts depth (readText expected) (.single atom) s := by
  intro l text t _ htext _ hsize
  obtain ⟨bs, hbs⟩ : ∃ bs, atom.val = 34 :: bs := by
    generalize atom.val = bs at h
    obtain ⟨-⟩ := h
    exact ⟨_, rfl⟩
  rw [hbs] at h
  obtain ⟨hdrop, hlength⟩ := htext.atom hbs t
  simp only [readText, hdrop]
  apply h.scanString
  simp only [List.length_append] at hsize ⊢
  omega

theorem accepts_flag (value : Bool) : Accepts depth readFlag (.single (.flag value)) value := by
  intro l text t _ htext _ _
  cases value with
  | true =>
    obtain ⟨hdrop, -⟩ := htext.atom rfl t
    simp only [readFlag, hdrop, scanWord_append, bind, Except.bind]
    rfl
  | false =>
    obtain ⟨hdrop, -⟩ := htext.atom rfl t
    simp only [readFlag, hdrop, scanWord_append, bind, Except.bind]
    rfl

theorem accepts_null : Accepts depth (readOptional read) (.single .null) none := by
  intro l text t _ htext _ _
  obtain ⟨hdrop, -⟩ := htext.atom rfl t
  simp only [readOptional, hdrop, scanWord_append, bind, Except.bind]
  rfl

/-- A value of another kind where a null may stand. -/
theorem accepts_some {b : UInt8} {token : List UInt8} {tokens : List (List UInt8)}
    (h : Accepts depth read tree a) (htokens : tree.tokens = (b :: token) :: tokens)
    (hb : b ≠ 110) : Accepts depth (readOptional read) tree (some a) := by
  intro l text t hd htext ht hsize
  obtain ⟨b', token', tokens', htokens', hopens⟩ := tree.opens
  rw [htokens] at htokens'
  cases htokens'
  rw [htokens] at htext
  obtain ⟨rest, hrest, hdrop, hlength⟩ := htext.strip hopens.ne.1 t
  rw [← htokens] at hrest
  have hread := h l (b :: rest) t hd hrest ht (by
    simp only [List.length_append, List.length_cons] at hsize ⊢
    omega)
  simp only [readOptional, hdrop]
  split
  · rename_i heq
    cases heq
    exact absurd rfl hb
  · rw [List.cons_append] at hread
    rw [hread]
    rfl

/-! Lists. -/

variable {bs rest : List UInt8} {b : UInt8} {items : List Tree} {vs seen : List α}

theorem scanNextItem_end {isFirst : Bool} (h : dropBlank bs = 93 :: rest) :
    scanNextItem isFirst bs = .ok (false, 93 :: rest) := by
  simp only [scanNextItem, h]

theorem scanNextItem_first (h : dropBlank bs = b :: rest) (hb : b ≠ 93) :
    scanNextItem true bs = .ok (true, b :: rest) := by
  simp [scanNextItem, h]

theorem scanNextItem_more (h : dropBlank bs = 44 :: rest) {rest' : List UInt8}
    (h' : dropBlank rest = b :: rest') (hb : b ≠ 93) :
    scanNextItem false bs = .ok (true, b :: rest') := by
  simp [scanNextItem, h, h', hb]

/-- The text of an item goes on behind the blanks in front of it. -/
theorem Tree.strip (tree : Tree) {tokens : List (List UInt8)}
    (h : Laid (tree.tokens ++ tokens) text) (t : List UInt8) :
    ∃ b front rest back, dropBlank (text ++ t) = b :: rest ∧ b :: rest = front ++ (back ++ t) ∧
      b ≠ 93 ∧ Laid tree.tokens front ∧ Laid tokens back ∧
      front.length + back.length ≤ text.length ∧ 0 < front.length := by
  obtain ⟨b, token, tokens', htokens, hb⟩ := tree.opens
  rw [htokens, List.cons_append] at h
  obtain ⟨rest, hrest, hdrop, hlength⟩ := h.strip hb.ne.1 t
  rw [← List.cons_append, ← htokens] at hrest
  obtain ⟨front, back, hbs, hfront, hback⟩ := laid_append hrest
  refine ⟨b, front, rest ++ t, back, hdrop, ?_, hb.ne.2.2.1, hfront, hback, ?_, ?_⟩
  · rw [← List.append_assoc, ← hbs, List.cons_append]
  · have hcount := congrArg List.length hbs
    simp only [List.length_cons, List.length_append] at hcount
    omega
  · rw [htokens] at hfront
    obtain _ | ⟨blank, hblank, hmore⟩ := hfront
    simp

theorem readItems_end {isFirst : Bool} (h : Laid [[93]] text) (hfuel : 0 < fuel) :
    readItems (read l) fuel isFirst seen (text ++ t) = .ok (seen, 93 :: t) := by
  obtain ⟨rest, hrest, hdrop, -⟩ := h.first rfl t
  cases hrest
  obtain ⟨fuel, rfl⟩ := Nat.exists_eq_succ_of_ne_zero (Nat.ne_of_gt hfuel)
  rw [readItems, scanNextItem_end hdrop]
  rfl

/-- The items behind the first one. -/
theorem readItems_more (hd : depth < l.depth) (h : List.Forall₂ (Accepts depth read) items vs)
    (htext : Laid ((items.map Tree.tokens).flatMap ([44] :: ·) ++ [[93]]) text)
    (hsize : (text ++ t).length ≤ l.size) (hfuel : (text ++ t).length < fuel) :
    readItems (read l) fuel false seen (text ++ t) = .ok (vs.reverse ++ seen, 93 :: t) := by
  induction h generalizing text fuel seen with
  | nil => exact readItems_end htext (by omega)
  | @cons item v items vs hitem _ ih =>
    rw [List.map_cons, List.flatMap_cons, List.append_assoc] at htext
    obtain ⟨rest, hrest, hdrop, hlength⟩ := htext.first (by decide) t
    obtain ⟨b, front, bs, back, hstrip, hbs, hb, hfront, hback, hcount, -⟩ := item.strip hrest t
    obtain ⟨fuel, rfl⟩ : ∃ n, fuel = n + 1 := ⟨fuel - 1, by omega⟩
    simp only [List.length_append, List.length_nil] at hsize hfuel hlength
    have hread := hitem l front (back ++ t) hd hfront (ends_of_more hback (.inl rfl) t)
      (by simp only [List.length_append]; omega)
    have hmore : readItems (read l) fuel false (v :: seen) (back ++ t) =
        .ok (vs.reverse ++ v :: seen, 93 :: t) :=
      ih hback (by simp only [List.length_append]; omega)
        (by simp only [List.length_append]; omega)
    rw [List.reverse_cons, List.append_assoc, List.singleton_append, ← hmore, readItems,
      scanNextItem_more hdrop hstrip hb, hbs]
    simp only [hread, bind, Except.bind, Bool.not_true, Bool.false_eq_true, if_false]

theorem accepts_list (h : List.Forall₂ (Accepts depth read) items vs) :
    Accepts (depth + 1) (readList read) (.list items) vs := by
  intro l text t hd htext _ hsize
  rw [Tree.tokens, itemTokens_eq] at htext
  obtain ⟨rest, hrest, hdrop, hlength⟩ := htext.first rfl t
  simp only [List.length_append, List.length_nil] at hsize hlength
  have hend : scanListEnd (93 :: t) = .ok t := rfl
  have hitems : readItems (read { l with depth := l.depth - 1 }) (l.size + 1) true [] (rest ++ t) =
      .ok (vs.reverse, 93 :: t) := by
    cases h with
    | nil => exact readItems_end hrest (Nat.succ_pos _)
    | @cons item v items vs hitem hitems =>
      rw [List.map_cons, separated, List.append_assoc] at hrest
      obtain ⟨b, front, bs, back, hstrip, hbs, hb, hfront, hback, hcount, hpos⟩ :=
        item.strip hrest t
      have hread := hitem { l with depth := l.depth - 1 } front (back ++ t)
        (Nat.lt_sub_of_add_lt hd) hfront (ends_of_more hback (.inl rfl) t)
        (by simp only [List.length_append]; omega)
      have hmore : readItems (read { l with depth := l.depth - 1 }) l.size false [v] (back ++ t) =
          .ok (vs.reverse ++ [v], 93 :: t) :=
        readItems_more (Nat.lt_sub_of_add_lt hd) hitems hback
          (by simp only [List.length_append]; omega) (by simp only [List.length_append]; omega)
      rw [List.reverse_cons, ← hmore, readItems, scanNextItem_first hstrip hb, hbs]
      simp only [hread, bind, Except.bind, Bool.not_true, Bool.false_eq_true, if_false]
  simp only [readList, hdrop, List.nil_append, enter_of_lt hd, bind, Except.bind]
  rw [hitems]
  simp only [List.reverse_reverse, hend, pure, Except.pure]

/-! Objects. -/

/-- The value of a member stands behind its colon. -/
theorem Laid.colon {value : Tree} (h : Laid ([58] :: value.tokens) text) (t : List UInt8) :
    ∃ rest, Laid value.tokens rest ∧ scanColon (text ++ t) = .ok (rest ++ t) ∧
      (rest ++ t).length ≤ (text ++ t).length := by
  obtain ⟨rest, hrest, hdrop, hlength⟩ := h.first rfl t
  refine ⟨rest, hrest, ?_, ?_⟩
  · simp only [scanColon, hdrop, List.nil_append]
  · simp only [List.length_append, List.length_nil] at hlength ⊢
    omega

variable {s s' s'' : σ} {member : String → σ → Scan σ}
  {ms ms' : List (Name × Tree)}

/-- Whether a handler of members takes these in turn, however they are laid out and however their
names are spelled. -/
inductive Takes (size : Nat) (member : String → σ → Scan σ) :
    List (Name × Tree) → σ → σ → Prop
  | nil (s : σ) : Takes size member [] s s
  | cons {name : Name} {key : String} {value : Tree}
      {ms : List (Name × Tree)} {s s' s'' : σ}
      (hname : Spells key name.val)
      (first : ∀ text t, Laid ([58] :: value.tokens) text → Ends t → (text ++ t).length ≤ size →
        member key s (text ++ t) = .ok (s', t))
      (rest : Takes size member ms s' s'') : Takes size member ((name, value) :: ms) s s''

theorem Takes.append (h : Takes size member ms s s') (h' : Takes size member ms' s' s'') :
    Takes size member (ms ++ ms') s s'' := by
  induction h with
  | nil _ => exact h'
  | cons hname first _ ih => exact .cons hname first (ih h')

theorem scanNextKey_end {isFirst : Bool} (h : dropBlank bs = 125 :: rest) :
    scanNextKey isFirst bs = .ok (false, 125 :: rest) := by
  simp only [scanNextKey, h]

theorem scanNextKey_first (h : dropBlank bs = 34 :: rest) :
    scanNextKey true bs = .ok (true, rest) := by
  simp [scanNextKey, h]

theorem scanNextKey_more (h : dropBlank bs = 44 :: rest) {rest' : List UInt8}
    (h' : dropBlank rest = 34 :: rest') : scanNextKey false bs = .ok (true, rest') := by
  simp [scanNextKey, h, h']

theorem readMembers_end {isFirst : Bool} (h : Laid [[125]] text) (hfuel : 0 < fuel) :
    readMembers size member fuel isFirst s (text ++ t) = .ok (s, 125 :: t) := by
  obtain ⟨rest, hrest, hdrop, -⟩ := h.first rfl t
  cases hrest
  obtain ⟨fuel, rfl⟩ := Nat.exists_eq_succ_of_ne_zero (Nat.ne_of_gt hfuel)
  rw [readMembers, scanNextKey_end hdrop]
  rfl

/-- One member, from the place on where its name may start. -/
theorem readMembers_member {name : Name} {key : String} {value : Tree}
    {tokens : List (List UInt8)} {isFirst : Bool} {before : List UInt8}
    (hname : Spells key name.val)
    (first : ∀ text t, Laid ([58] :: value.tokens) text → Ends t → (text ++ t).length ≤ size →
      member key s (text ++ t) = .ok (s', t))
    (htext : Laid (name.val :: [58] :: value.tokens ++ tokens) text)
    (hnext : ∀ rest, dropBlank (text ++ t) = 34 :: rest →
      scanNextKey isFirst before = .ok (true, rest))
    (hends : ∀ back, Laid tokens back → Ends (back ++ t)) (hsize : (text ++ t).length ≤ size) :
    ∃ back, Laid tokens back ∧ back.length < text.length ∧
      readMembers size member (fuel + 1) isFirst s before =
        readMembers size member fuel false s' (back ++ t) := by
  obtain ⟨bs, hbs⟩ : ∃ bs, name.val = 34 :: bs := by
    generalize name.val = bs at hname
    obtain ⟨-⟩ := hname
    exact ⟨_, rfl⟩
  rw [hbs] at hname
  rw [hbs, List.cons_append] at htext
  obtain ⟨rest, hrest, hdrop, hlength⟩ := htext.first rfl t
  obtain ⟨front, back, rfl, hfront, hback⟩ := laid_append hrest
  simp only [List.length_append] at hsize hlength
  have hkey : scanString size (bs ++ (front ++ (back ++ t))) = .ok (key, front ++ (back ++ t)) :=
    hname.scanString (by simp only [List.length_append]; omega)
  have hvalue := first front (back ++ t) hfront (hends back hback)
    (by simp only [List.length_append]; omega)
  refine ⟨back, hback, by omega, ?_⟩
  rw [readMembers, hnext _ hdrop, List.append_assoc]
  simp only [hkey, hvalue, bind, Except.bind, Bool.not_true, Bool.false_eq_true,
    if_false]

/-- The members behind the first one. -/
theorem Takes.readMembers_more (h : Takes size member ms s s')
    (htext : Laid ((memberTokens ms).flatMap ([44] :: ·) ++ [[125]]) text)
    (hsize : (text ++ t).length ≤ size) (hfuel : (text ++ t).length < fuel) :
    readMembers size member fuel false s (text ++ t) = .ok (s', 125 :: t) := by
  induction h generalizing text fuel with
  | nil _ => exact readMembers_end htext (by omega)
  | cons hname first _ ih =>
    rw [memberTokens, List.flatMap_cons, List.append_assoc] at htext
    obtain ⟨rest, hrest, hdrop, hlength⟩ := htext.first (by decide) t
    obtain ⟨fuel, rfl⟩ : ∃ n, fuel = n + 1 := ⟨fuel - 1, by omega⟩
    simp only [List.length_append, List.length_nil] at hsize hfuel hlength
    obtain ⟨back, hback, hcount, hmember⟩ := readMembers_member hname first hrest
      (fun _ hkey => scanNextKey_more hdrop hkey)
      (fun back hback => ends_of_more hback (.inr rfl) t)
      (by simp only [List.length_append]; omega)
    rw [hmember]
    exact ih hback (by simp only [List.length_append]; omega)
      (by simp only [List.length_append]; omega)

/-- A handler that takes the members of an object takes them behind its opening bracket. -/
theorem Takes.readMembers (h : Takes size member ms s s')
    (htext : Laid (Tree.object ms).tokens text) (hsize : (text ++ t).length ≤ size) :
    ∃ bs, dropBlank (text ++ t) = 123 :: bs ∧
      readMembers size member (size + 1) true s bs = .ok (s', 125 :: t) := by
  obtain ⟨rest, hrest, hdrop, hlength⟩ := htext.first rfl t
  simp only [List.length_append, List.length_nil] at hsize hlength
  refine ⟨rest ++ t, hdrop, ?_⟩
  cases h with
  | nil _ => exact readMembers_end hrest (Nat.succ_pos _)
  | cons hname first hmore =>
    rw [memberTokens, separated, List.append_assoc] at hrest
    obtain ⟨back, hback, hcount, hmember⟩ := readMembers_member hname first hrest
      (fun _ hkey => scanNextKey_first hkey) (fun back hback => ends_of_more hback (.inr rfl) t)
      (by simp only [List.length_append]; omega)
    rw [hmember]
    exact hmore.readMembers_more hback (by simp only [List.length_append]; omega)
      (by simp only [List.length_append]; omega)

theorem scanObjectEnd_close : scanObjectEnd (125 :: t) = .ok t := rfl

end Gallows.Json
