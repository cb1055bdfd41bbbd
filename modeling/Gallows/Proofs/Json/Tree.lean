import Gallows.Json.Skip
import Gallows.Proofs.Json.Text

/-!
The grammar of JSON texts. A tree is a text without its blanks; a text is laid out as a tree if it
has the tokens of the tree with blanks around them.
-/
namespace Gallows.Json

variable {token bs t : List UInt8} {tokens tokens' : List (List UInt8)} {b : UInt8}

/-- What a string is put together from: bytes that stand for themselves, and escapes. -/
inductive Piece : List UInt8 → Prop
  | plain {b : UInt8} (h : Plain b) : Piece [b]
  | short {e : UInt8} (h : (shortEscape? e).isSome) : Piece [92, e]
  | code {a b c d : UInt8} (h : (hexQuad? a b c d).isSome) : Piece [92, 117, a, b, c, d]

/-- A string in its quotes. -/
inductive Quoted : List UInt8 → Prop
  | pieces {pieces : List (List UInt8)} (h : ∀ p ∈ pieces, Piece p) :
      Quoted (34 :: (pieces.flatten ++ [34]))

/-- Digits, at least one. -/
structure Digits (ds : List UInt8) : Prop where
  ne_nil : ds ≠ []
  all : ∀ b ∈ ds, isDigit b

/-- The digits in front of a point: a zero stands alone. -/
structure Whole (ds : List UInt8) : Prop extends Digits ds where
  zero : ds.head? = some 48 → ds = [48]

/-- The sign of a number or of an exponent, if any. -/
def Sign (signs bs : List UInt8) : Prop := bs = [] ∨ ∃ b ∈ signs, bs = [b]

/-- A fraction, if any. -/
def Fraction (bs : List UInt8) : Prop := bs = [] ∨ ∃ ds, Digits ds ∧ bs = 46 :: ds

/-- An exponent, if any. -/
def Scale (bs : List UInt8) : Prop :=
  bs = [] ∨ ∃ e sign ds, (e = 69 ∨ e = 101) ∧ Sign [43, 45] sign ∧ Digits ds ∧
    bs = e :: (sign ++ ds)

/-- A value without parts. -/
inductive Single : List UInt8 → Prop
  | null : Single (110 :: nullTail)
  | yes : Single (116 :: trueTail)
  | no : Single (102 :: falseTail)
  | string {token : List UInt8} (h : Quoted token) : Single token
  | number {sign whole fraction scale : List UInt8} (hsign : Sign [45] sign) (hwhole : Whole whole)
      (hfraction : Fraction fraction) (hscale : Scale scale) :
      Single (sign ++ (whole ++ (fraction ++ scale)))

/-- What is written of a value without parts. -/
abbrev Atom := { bs : List UInt8 // Single bs }

/-- Nothing. -/
def Atom.null : Atom := ⟨_, .null⟩

/-- A truth value. -/
def Atom.flag : Bool → Atom
  | true => ⟨_, .yes⟩
  | false => ⟨_, .no⟩

/-- What is written of the name of a member. -/
abbrev Name := { bs : List UInt8 // Quoted bs }

/-- A value of a text, without its blanks. -/
inductive Tree
  | single (atom : Atom)
  | list (items : List Tree)
  | object (members : List (Name × Tree))

/-- Parts with commas between them. -/
def separated : List (List (List UInt8)) → List (List UInt8)
  | [] => []
  | part :: parts => part ++ parts.flatMap ([44] :: ·)

mutual
/-- The tokens of a tree, in order. -/
def Tree.tokens : Tree → List (List UInt8)
  | .single atom => [atom.val]
  | .list items => [91] :: (separated (itemTokens items) ++ [[93]])
  | .object members => [123] :: (separated (memberTokens members) ++ [[125]])

/-- The tokens of each item. -/
def itemTokens : List Tree → List (List (List UInt8))
  | [] => []
  | item :: items => item.tokens :: itemTokens items

/-- The tokens of each member. -/
def memberTokens : List (Name × Tree) → List (List (List UInt8))
  | [] => []
  | (name, value) :: members => (name.val :: [58] :: value.tokens) :: memberTokens members
end

/-- Tokens with blanks in front of them. -/
inductive Laid : List (List UInt8) → List UInt8 → Prop
  | nil : Laid [] []
  | cons {token : List UInt8} {tokens : List (List UInt8)} {bs : List UInt8} (blank : List UInt8)
      (hblank : ∀ b ∈ blank, isBlank b) (rest : Laid tokens bs) :
      Laid (token :: tokens) (blank ++ (token ++ bs))

/-- A text that holds a tree, with blanks around its tokens. -/
def Tree.LaidOut (tree : Tree) (bs : List UInt8) : Prop :=
  ∃ text blank, bs = text ++ blank ∧ Laid tree.tokens text ∧ ∀ b ∈ blank, isBlank b

/-- What holds of a tree if it holds of its parts holds of every tree. -/
@[elab_as_elim]
theorem Tree.induction {P : Tree → Prop} (single : ∀ atom, P (.single atom))
    (list : ∀ items, (∀ item ∈ items, P item) → P (.list items))
    (object : ∀ members, (∀ m ∈ members, P m.2) → P (.object members)) (tree : Tree) : P tree :=
  @Tree.rec P (fun items => ∀ item ∈ items, P item) (fun members => ∀ m ∈ members, P m.2)
    (fun m => P m.2) single list object
    (List.forall_mem_nil _) (fun _ _ hitem hitems => List.forall_mem_cons.mpr ⟨hitem, hitems⟩)
    (List.forall_mem_nil _) (fun _ _ hm hms => List.forall_mem_cons.mpr ⟨hm, hms⟩)
    (fun _ _ hvalue => hvalue) tree

theorem itemTokens_eq (items : List Tree) : itemTokens items = items.map Tree.tokens := by
  induction items with
  | nil => rfl
  | cons item items ih => rw [itemTokens, ih, List.map_cons]

theorem memberTokens_eq (members : List (Name × Tree)) :
    memberTokens members = members.map fun m => m.1.val :: [58] :: m.2.tokens := by
  induction members with
  | nil => rfl
  | cons m members ih => rw [memberTokens, ih, List.map_cons]

theorem laid_append (h : Laid (tokens ++ tokens') bs) :
    ∃ front rest, bs = front ++ rest ∧ Laid tokens front ∧ Laid tokens' rest := by
  induction tokens generalizing bs with
  | nil => exact ⟨[], bs, rfl, .nil, h⟩
  | cons token tokens ih =>
    obtain _ | ⟨blank, hblank, hrest⟩ := h
    obtain ⟨front, rest, rfl, hfront, hrest⟩ := ih hrest
    exact ⟨blank ++ (token ++ front), rest, by simp, .cons blank hblank hfront, hrest⟩

theorem dropBlank_append {blank : List UInt8} (h : ∀ b ∈ blank, isBlank b) (bs : List UInt8) :
    dropBlank (blank ++ bs) = dropBlank bs := by
  rw [dropBlank, List.dropWhile_append_of_pos h]
  rfl

/-- The first token stands behind the blanks. -/
theorem Laid.first (h : Laid ((b :: token) :: tokens) bs) (hb : isBlank b = false)
    (t : List UInt8) :
    ∃ rest, Laid tokens rest ∧ dropBlank (bs ++ t) = b :: (token ++ (rest ++ t)) ∧
      token.length + rest.length < bs.length := by
  obtain _ | ⟨blank, hblank, hrest⟩ := h
  refine ⟨_, hrest, ?_, ?_⟩
  · rw [List.append_assoc, dropBlank_append hblank, List.cons_append, List.cons_append,
      List.append_assoc]
    simp [dropBlank, hb]
  · simp only [List.length_append, List.length_cons]
    omega

/-- Without the blanks in front of its first token a text is laid out as before. -/
theorem Laid.strip (h : Laid ((b :: token) :: tokens) bs) (hb : isBlank b = false)
    (t : List UInt8) : ∃ rest, Laid ((b :: token) :: tokens) (b :: rest) ∧
      dropBlank (bs ++ t) = b :: (rest ++ t) ∧ rest.length < bs.length := by
  obtain ⟨rest, hrest, hdrop, hlength⟩ := h.first hb t
  refine ⟨token ++ rest, .cons [] (List.forall_mem_nil _) hrest, ?_, ?_⟩
  · rw [hdrop, List.append_assoc]
  · rwa [List.length_append]

/-- Whether a value may end in front of a text. -/
def Ends (bs : List UInt8) : Prop := ∀ b ∈ bs.head?, isBlank b ∨ b = 44 ∨ b = 93 ∨ b = 125

theorem ends_cons_iff : Ends (b :: bs) ↔
    b = 32 ∨ b = 10 ∨ b = 9 ∨ b = 13 ∨ b = 44 ∨ b = 93 ∨ b = 125 := by
  simp [Ends, isBlank, or_assoc]

theorem ends_of_blank {blank : List UInt8} (h : ∀ b ∈ blank, isBlank b) : Ends blank := by
  intro b hb
  exact .inl (h b (List.mem_of_mem_head? hb))

/-- A value may end in front of a comma and of a closing bracket, and of blanks in front of them. -/
theorem Laid.ends (h : Laid ((b :: token) :: tokens) bs) (hb : b = 44 ∨ b = 93 ∨ b = 125)
    (t : List UInt8) : Ends (bs ++ t) := by
  obtain _ | ⟨blank, hblank, hrest⟩ := h
  intro b' hb'
  cases blank with
  | nil =>
    cases hb'
    exact .inr hb
  | cons first blank =>
    cases hb'
    exact .inl (hblank _ List.mem_cons_self)

/-- Behind a part of a container stands a comma or the closing bracket. -/
theorem ends_of_more {close : UInt8} {parts : List (List (List UInt8))}
    (h : Laid (parts.flatMap ([44] :: ·) ++ [[close]]) bs) (hclose : close = 93 ∨ close = 125)
    (t : List UInt8) : Ends (bs ++ t) := by
  cases parts with
  | nil => exact h.ends (.inr hclose) t
  | cons part parts => exact h.ends (.inl rfl) t

theorem scanWord_append (word t : List UInt8) : scanWord word (word ++ t) = .ok t := by
  induction word with
  | nil => rfl
  | cons w word ih => simpa [scanWord] using ih

theorem isDigit_iff : isDigit b ↔ 48 ≤ b.toNat ∧ b.toNat ≤ 57 := by
  simp [isDigit, UInt8.le_iff_toNat_le]

/-- The bytes that a value without parts may start with. -/
def Leads (b : UInt8) : Prop := b = 110 ∨ b = 116 ∨ b = 102 ∨ b = 34 ∨ b = 45 ∨ isDigit b

theorem Single.leads (h : Single token) : ∃ b rest, token = b :: rest ∧ Leads b := by
  cases h with
  | null => exact ⟨_, _, rfl, .inl rfl⟩
  | yes => exact ⟨_, _, rfl, .inr (.inl rfl)⟩
  | no => exact ⟨_, _, rfl, .inr (.inr (.inl rfl))⟩
  | string h =>
    obtain ⟨-⟩ := h
    exact ⟨_, _, rfl, .inr (.inr (.inr (.inl rfl)))⟩
  | number hsign hwhole _ _ =>
    obtain rfl | ⟨b, hb, rfl⟩ := hsign
    · obtain ⟨b, ds, rfl⟩ := List.exists_cons_of_ne_nil hwhole.ne_nil
      exact ⟨b, _, rfl, .inr (.inr (.inr (.inr (.inr (hwhole.all b List.mem_cons_self)))))⟩
    · exact ⟨b, _, rfl, .inr (.inr (.inr (.inr (.inl (List.mem_singleton.mp hb)))))⟩

/-- The bytes that a value may start with. -/
def Opens (b : UInt8) : Prop := Leads b ∨ b = 91 ∨ b = 123

theorem Tree.opens : ∀ tree : Tree, ∃ b token tokens, tree.tokens = (b :: token) :: tokens ∧ Opens b
  | .single atom => by
    obtain ⟨b, rest, hatom, hb⟩ := atom.property.leads
    exact ⟨b, rest, [], by rw [tokens, hatom], .inl hb⟩
  | .list _ => ⟨_, _, _, rfl, .inr (.inl rfl)⟩
  | .object _ => ⟨_, _, _, rfl, .inr (.inr rfl)⟩

theorem Leads.ne (h : Leads b) : b ≠ 91 ∧ b ≠ 123 := by
  rcases h with rfl | rfl | rfl | rfl | rfl | h
  iterate 5 decide
  rw [isDigit_iff] at h
  constructor <;> rintro rfl <;> simp at h

/-- A value starts with neither a blank nor what stands behind a value. -/
theorem Opens.ne (h : Opens b) : isBlank b = false ∧ b ≠ 44 ∧ b ≠ 93 ∧ b ≠ 125 := by
  rcases h with (rfl | rfl | rfl | rfl | rfl | h) | rfl | rfl
  iterate 5 decide
  · rw [isDigit_iff] at h
    refine ⟨?_, ?_, ?_, ?_⟩
    · simp only [isBlank, Bool.or_eq_false_iff, decide_eq_false_iff_not]
      refine ⟨⟨⟨?_, ?_⟩, ?_⟩, ?_⟩ <;> rintro rfl <;> simp at h
    all_goals rintro rfl; simp at h
  iterate 2 decide

end Gallows.Json
