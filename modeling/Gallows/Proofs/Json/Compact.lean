import Gallows.Proofs.Json.Whole

/-!
What is written of a value is one of the texts that hold it, the one without blanks.
-/
namespace Gallows.Json

variable {bs : List UInt8} {c : Char} {s : String}

theorem Spelling.pieces (h : Spelling c bs) : ∃ pieces : List (List UInt8),
    (∀ p ∈ pieces, Piece p) ∧ bs = pieces.flatten := by
  cases h with
  | plain h =>
    refine ⟨(String.utf8EncodeChar c).map ([·]), ?_, ?_⟩
    · intro p hp
      obtain ⟨b, hb, rfl⟩ := List.mem_map.mp hp
      exact .plain (h b hb)
    · rw [← List.flatMap_def, List.flatMap_singleton']
  | @short e b h hc =>
    refine ⟨[[92, e]], ?_, rfl⟩
    simpa using Piece.short (by rw [h]; rfl)
  | @code a b d e h =>
    refine ⟨[[92, 117, a, b, d, e]], ?_, rfl⟩
    simpa using Piece.code (by rw [h]; rfl)
  | @pair a b d e a' b' d' e' m n h h' _ _ _ =>
    refine ⟨[[92, 117, a, b, d, e], [92, 117, a', b', d', e']], ?_, rfl⟩
    simpa using ⟨Piece.code (by rw [h]; rfl), Piece.code (by rw [h']; rfl)⟩

/-- A string that is spelled somehow is a string. -/
theorem Spells.isQuoted (h : Spells s bs) : Quoted bs := by
  obtain ⟨hspellings⟩ := h
  have hpieces {cs : List Char} {spellings : List (List UInt8)}
      (h : List.Forall₂ Spelling cs spellings) :
      ∃ pieces : List (List UInt8),
        (∀ p ∈ pieces, Piece p) ∧ spellings.flatten = pieces.flatten := by
    induction h with
    | nil => exact ⟨[], List.forall_mem_nil _, rfl⟩
    | cons hc _ ih =>
      obtain ⟨first, hfirst, rfl⟩ := hc.pieces
      obtain ⟨rest, hrest, heq⟩ := ih
      refine ⟨first ++ rest, List.forall_mem_append.mpr ⟨hfirst, hrest⟩, ?_⟩
      rw [List.flatten_cons, heq, List.flatten_append]
  obtain ⟨pieces, hp, heq⟩ := hpieces hspellings
  rw [heq]
  exact .pieces hp

/-- What is written of a name. -/
def Name.of (s : String) : Name := ⟨utf8 (quote s), (spells_quote s).isQuoted⟩

/-- A string. -/
def Atom.text (s : String) : Atom := ⟨utf8 (quote s), .string (spells_quote s).isQuoted⟩

mutual
/-- What is written of a value. -/
def Value.tree : Value → Tree
  | .null => .single .null
  | .flag value => .single (.flag value)
  | .integer value => .single (.integer value)
  | .text value => .single (.text value)
  | .list items => .list (itemTrees items)
  | .object members => .object (memberTrees members)

/-- What is written of each item. -/
def itemTrees : List Value → List Tree
  | [] => []
  | item :: items => item.tree :: itemTrees items

/-- What is written of each member. -/
def memberTrees : List (String × Value) → List (Name × Tree)
  | [] => []
  | (name, value) :: members => (.of name, value.tree) :: memberTrees members
end

theorem itemTrees_eq (items : List Value) : itemTrees items = items.map Value.tree := by
  induction items with
  | nil => rfl
  | cons item items ih => rw [itemTrees, ih, List.map_cons]

theorem memberTrees_eq (members : List (String × Value)) :
    memberTrees members = members.map fun m => (.of m.1, m.2.tree) := by
  induction members with
  | nil => rfl
  | cons m members ih => rw [memberTrees, ih, List.map_cons]

theorem Laid.token {tokens : List (List UInt8)} (token : List UInt8) (h : Laid tokens bs) :
    Laid (token :: tokens) (token ++ bs) :=
  .cons [] (List.forall_mem_nil _) h

theorem Laid.append {tokens tokens' : List (List UInt8)} {bs' : List UInt8} (h : Laid tokens bs)
    (h' : Laid tokens' bs') : Laid (tokens ++ tokens') (bs ++ bs') := by
  induction h with
  | nil => exact h'
  | cons blank hblank _ ih =>
    rw [List.append_assoc, List.append_assoc]
    exact .cons blank hblank ih

theorem laid_intercalate {parts : List (List (List UInt8))} {texts : List String}
    (h : List.Forall₂ (fun part text => Laid part (utf8 text)) parts texts) :
    Laid (separated parts) (utf8 (String.intercalate "," texts)) := by
  cases h with
  | nil => exact .nil
  | @cons part text parts texts hfirst hmore =>
    induction hmore generalizing part text with
    | nil => simpa [separated] using hfirst
    | @cons part' text' parts texts hpart _ ih =>
      rw [String.intercalate_cons_cons, utf8_append, utf8_append, utf8_comma, List.append_assoc]
      exact hfirst.append ((ih hpart).token [44])

theorem laid_single (atom : Atom) : Laid (Tree.single atom).tokens atom.val := by
  have htoken := Laid.nil.token atom.val
  rwa [List.append_nil] at htoken

theorem laid_brackets {opening closing : String} {b b' : UInt8} {parts : List (List (List UInt8))}
    {text : String} (hopening : utf8 opening = [b]) (hclosing : utf8 closing = [b'])
    (h : Laid (separated parts) (utf8 text)) :
    Laid ([b] :: (separated parts ++ [[b']])) (utf8 (opening ++ text ++ closing)) := by
  rw [utf8_append, utf8_append, hopening, hclosing, List.append_assoc]
  exact (h.append (Laid.nil.token [b'])).token [b]

mutual
/-- What is written of a value has its tokens, without blanks. -/
theorem Value.laid : (v : Value) → Laid v.tree.tokens (utf8 v.compact)
  | .null => laid_single .null
  | .flag true => laid_single (.flag true)
  | .flag false => laid_single (.flag false)
  | .integer value => laid_single (.integer value)
  | .text value => laid_single (.text value)
  | .list items => laid_brackets (by decide) (by decide) (laid_intercalate (laid_items items))
  | .object members =>
    laid_brackets (by decide) (by decide) (laid_intercalate (laid_members members))

theorem laid_items : (items : List Value) →
    List.Forall₂ (fun part text => Laid part (utf8 text)) (itemTokens (itemTrees items))
      (compactItems items)
  | [] => .nil
  | item :: items => .cons item.laid (laid_items items)

theorem laid_members : (members : List (String × Value)) →
    List.Forall₂ (fun part text => Laid part (utf8 text)) (memberTokens (memberTrees members))
      (compactMembers members)
  | [] => .nil
  | (name, value) :: members => by
    refine .cons ?_ (laid_members members)
    rw [utf8_append, utf8_append, utf8_colon, List.append_assoc]
    exact (value.laid.token [58]).token (utf8 (quote name))
end

theorem Value.laidOut (v : Value) : v.tree.LaidOut (utf8 v.compact) :=
  ⟨_, [], (List.append_nil _).symm, v.laid, List.forall_mem_nil _⟩

end Gallows.Json
