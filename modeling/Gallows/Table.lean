/-!
Finite maps from texts, as lists of entries in the order of their keys.
-/
namespace Gallows
variable {α β : Type}

/-- A finite map from texts. -/
structure Table (α : Type) where
  entries : List (String × α)
  sorted : entries.Pairwise fun a b => a.1 < b.1

namespace Table

/-- The map without entries. -/
def empty : Table α := ⟨[], .nil⟩

instance : Inhabited (Table α) := ⟨empty⟩

instance [DecidableEq α] : DecidableEq (Table α) := fun a b =>
  if h : a.entries = b.entries then
    isTrue (by obtain ⟨x, _⟩ := a; obtain ⟨y, _⟩ := b; cases h; rfl)
  else isFalse fun he => h (congrArg entries he)

/-- Puts an entry into its place, over one with the same key. -/
def place (key : String) (value : α) : List (String × α) → List (String × α)
  | [] => [(key, value)]
  | (k, v) :: rest =>
    if key < k then (key, value) :: (k, v) :: rest
    else if key = k then (key, value) :: rest
    else (k, v) :: place key value rest

theorem mem_place {key : String} {value : α} {e : String × α} :
    ∀ {l : List (String × α)}, e ∈ place key value l → e = (key, value) ∨ e ∈ l
  | [], h => by simpa [place] using h
  | (k, v) :: rest, h => by
    unfold place at h
    split at h
    · simpa using h
    · split at h
      · simp only [List.mem_cons] at h ⊢
        exact h.imp_right .inr
      · simp only [List.mem_cons] at h ⊢
        rcases h with h | h
        · exact .inr (.inl h)
        · exact (mem_place h).imp_right .inr

theorem sorted_place {key : String} {value : α} :
    ∀ {l : List (String × α)}, (l.Pairwise fun a b => a.1 < b.1) →
      (place key value l).Pairwise fun a b => a.1 < b.1
  | [], _ => by simp [place]
  | (k, v) :: rest, h => by
    have hr := List.pairwise_cons.1 h
    unfold place
    split
    · rename_i hk
      refine List.pairwise_cons.2 ⟨fun e he => ?_, h⟩
      rcases List.mem_cons.1 he with rfl | he
      · exact hk
      · exact String.lt_trans hk (hr.1 e he)
    · rename_i hk
      split
      · rename_i he
        subst he
        exact List.pairwise_cons.2 hr
      · rename_i he
        refine List.pairwise_cons.2 ⟨fun e hm => ?_, sorted_place hr.2⟩
        rcases mem_place hm with rfl | hm
        · exact Std.lt_of_le_of_ne hk (Ne.symm he)
        · exact hr.1 e hm

/-- The map with an entry put in, over one with the same key. -/
def insert (t : Table α) (key : String) (value : α) : Table α :=
  ⟨place key value t.entries, sorted_place t.sorted⟩

/-- Whether there are no entries. -/
def isEmpty (t : Table α) : Bool := t.entries.isEmpty

end Table
end Gallows
