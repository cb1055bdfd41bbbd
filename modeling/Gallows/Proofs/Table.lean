import Gallows.Table
import Mathlib.Data.List.Perm.Basic

/-!
A table is made of its entries, in whatever order they are put in.
-/
namespace Gallows.Table

variable {α : Type} {t : Table α} {es l : List (String × α)}

theorem perm_place {key : String} {value : α} (h : ∀ e ∈ l, e.1 ≠ key) :
    (place key value l).Perm ((key, value) :: l) := by
  induction l with
  | nil => exact .refl _
  | cons e l ih =>
    obtain ⟨he, hl⟩ := List.forall_mem_cons.mp h
    rw [place]
    split
    · exact .refl _
    · rw [if_neg he.symm]
      exact ((ih hl).cons e).trans (.swap _ _ _)

theorem eq_of_perm {t t' : Table α} (h : t.entries.Perm t'.entries) : t = t' := by
  obtain ⟨es, hes⟩ := t
  obtain ⟨es', hes'⟩ := t'
  have heq : es = es' := by
    apply h.eq_of_pairwise _ hes hes'
    intro a b _ _ hab hba
    exact absurd (String.lt_trans hab hba) (String.lt_irrefl _)
  subst heq
  rfl

/-- The entries of a table and some that are put in. -/
theorem perm_foldl_insert (hnodup : (es.map Prod.fst ++ t.entries.map Prod.fst).Nodup) :
    (es.foldl (fun t e => t.insert e.1 e.2) t).entries.Perm (es ++ t.entries) := by
  induction es generalizing t with
  | nil => exact .refl _
  | cons e es ih =>
    have hfresh : ∀ e' ∈ t.entries, e'.1 ≠ e.1 := by
      intro e' he' heq
      rw [List.map_cons, List.cons_append, List.nodup_cons] at hnodup
      exact hnodup.1 (List.mem_append_right _ (List.mem_map.mpr ⟨e', he', heq⟩))
    have hplace : (t.insert e.1 e.2).entries.Perm (e :: t.entries) := perm_place hfresh
    have hkeys : (es.map Prod.fst ++ (t.insert e.1 e.2).entries.map Prod.fst).Perm
        ((e :: es).map Prod.fst ++ t.entries.map Prod.fst) :=
      ((hplace.map Prod.fst).append_left _).trans List.perm_middle
    rw [List.foldl_cons]
    exact ((ih (hkeys.nodup_iff.mpr hnodup)).trans (hplace.append_left es)).trans List.perm_middle

theorem nodup_keys (t : Table α) : (t.entries.map Prod.fst).Nodup := by
  rw [List.Nodup, List.pairwise_map]
  refine t.sorted.imp ?_
  intro a b hlt heq
  rw [heq] at hlt
  exact String.lt_irrefl _ hlt

/-- The entries of a table make it up again. -/
theorem foldl_insert_entries (h : es.Perm t.entries) :
    es.foldl (fun t e => t.insert e.1 e.2) empty = t := by
  apply eq_of_perm
  have hnodup : (es.map Prod.fst ++ (empty : Table α).entries.map Prod.fst).Nodup := by
    rw [empty, List.map_nil, List.append_nil]
    exact (h.map Prod.fst).nodup_iff.mpr t.nodup_keys
  have hfold := perm_foldl_insert hnodup
  rw [empty, List.append_nil] at hfold
  exact hfold.trans h

end Gallows.Table
