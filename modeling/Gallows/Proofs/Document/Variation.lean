import Gallows.Document.Reader
import Gallows.Proofs.Json.Skipping
import Gallows.Proofs.Json.Whole
import Gallows.Proofs.Table
import Gallows.Proofs.Time.RoundTrip

/-!
The texts that stand for a document. The members of a record may come in any order, with others
among them, and without those that hold their default; blanks may stand between any tokens.
-/
namespace Gallows.Document
open Json (Accepts Atom Ends Laid Name Spells Takes Tree)

/-- Whether a value may be null. -/
def Shape.isOptional : Shape → Bool
  | .optional _ => true
  | _ => false

mutual
/-- Whether what is written of a shape can be told apart: the members of every record have different
names, and a null is never two things. -/
def Shape.isSound : Shape → Bool
  | .optional value => !value.isOptional && value.isSound
  | .list item => item.isSound
  | .table value => value.isSound
  | .record _ fields => fields.isSound
  | _ => true

/-- Whether members can be told apart. -/
def Fields.isSound : Fields → Bool
  | .nil => true
  | .cons name value _ rest => !rest.names.contains name && value.isSound && rest.isSound
end

mutual
/-- How many levels of containers a shape has. -/
def Shape.height : Shape → Nat
  | .optional value => value.height
  | .list item => item.height + 1
  | .table value => value.height + 1
  | .record _ fields => fields.height + 1
  | _ => 0

/-- How many levels of containers members have. -/
def Fields.height : Fields → Nat
  | .nil => 0
  | .cons _ value _ rest => max value.height rest.height
end

/-- A member with the name that it spells. -/
abbrev Member := String × Name × Tree

mutual
/-- Whether a tree is one of those that stand for a document. -/
def Shape.Varies : (s : Shape) → s.El → Tree → Prop
  | .text, v, tree => ∃ atom : Atom, tree = .single atom ∧ Spells v atom.val
  | .flag, v, tree => tree = .single (.flag v)
  | .int _, v, tree => tree = .single (.integer v.val)
  | .moment, v, tree => ∃ atom : Atom, tree = .single atom ∧ Spells (Time.Moment.text v) atom.val
  | .optional value, v, tree =>
    match v with
    | none => tree = .single .null
    | some v => value.Varies v tree
  | .list item, v, tree => ∃ items, tree = .list items ∧ List.Forall₂ item.Varies v items
  | .table value, v, tree =>
    ∃ entries members, tree = .object members ∧ entries.Perm (Table.entries v) ∧
      List.Forall₂ (fun e m => Spells e.1 m.1.val ∧ value.Varies e.2 m.2) entries members
  | .record _ fields, v, tree =>
    ∃ (members : List (Name × Tree)) (kept added : List Member), tree = .object members ∧
      members.Perm ((kept ++ added).map Prod.snd) ∧ (∀ m ∈ kept ++ added, Spells m.1 m.2.1.val) ∧
      fields.Keeps v kept ∧ ∀ m ∈ added, m.1 ∉ fields.names

/-- Whether these are the members of a record in order, less some that hold their default. -/
def Fields.Keeps : (fs : Fields) → fs.El → List Member → Prop
  | .nil, _, kept => kept = []
  | .cons name value absence rest, v, kept =>
    (absence ≠ .refused ∧ v.1 = value.default ∧ rest.Keeps v.2 kept) ∨
      ∃ spelled tree others, kept = (name, spelled, tree) :: others ∧ value.Varies v.1 tree ∧
        rest.Keeps v.2 others
end

variable {α : Type} {depth : Nat} {l : Json.Limits} {tree : Tree} {fs : Fields}
  {members keyed kept added : List Member}

/-! Values without members. -/

theorem Width.fits (width : Width) : -0x8000000000000000 ≤ width.low ∧
    width.high < 0x10000000000000000 := by
  cases width <;> decide

theorem accepts_int (width : Width) (v : width.Value) :
    Accepts depth (readInt width) (.single (.integer v.val)) v := by
  intro l text t hd htext ht hsize
  have hrange := v.property
  have hwidth := width.fits
  have haccepts : Accepts depth (Json.readNumber width.name) (.single (.integer v.val))
      (.integer v.val) := Json.accepts_integer width.name (by omega)
  have hread := haccepts l text t hd htext ht hsize
  simp only [readInt, hread, bind, Except.bind, dif_pos hrange]
  rfl

theorem accepts_moment {m : Time.Moment} {atom : Atom} (h : Spells m.text atom.val) :
    Accepts depth readMoment (.single atom) m := by
  intro l text t hd htext ht hsize
  have hread := Json.accepts_text "an RFC 3339 formatted date and time string" h l text t hd htext
    ht hsize
  simp only [readMoment, hread, Time.ofText_text, bind, Except.bind]
  rfl

/-- Only a value that may be null is written as something that starts like one. -/
theorem Shape.Varies.first {s : Shape} (hs : s.isOptional = false) {v : s.El}
    (h : s.Varies v tree) :
    ∃ b token tokens, tree.tokens = (b :: token) :: tokens ∧ b ≠ 110 := by
  have hspells {text : String} {bs : List UInt8} (h : Spells text bs) :
      ∃ token, bs = 34 :: token := by
    obtain ⟨-⟩ := h
    exact ⟨_, rfl⟩
  cases s with
  | text =>
    obtain ⟨atom, rfl, hatom⟩ := h
    obtain ⟨token, htoken⟩ := hspells hatom
    exact ⟨34, token, [], by rw [Tree.tokens, htoken], by decide⟩
  | flag =>
    obtain rfl := h
    cases v with
    | true => exact ⟨116, _, [], rfl, by decide⟩
    | false => exact ⟨102, _, [], rfl, by decide⟩
  | int width =>
    obtain rfl := h
    obtain ⟨b, token, htoken, hb⟩ := Atom.integer_ne_null v.val
    exact ⟨b, token, [], by rw [Tree.tokens, htoken], hb⟩
  | moment =>
    obtain ⟨atom, rfl, hatom⟩ := h
    obtain ⟨token, htoken⟩ := hspells hatom
    exact ⟨34, token, [], by rw [Tree.tokens, htoken], by decide⟩
  | optional value => cases hs
  | list item =>
    obtain ⟨items, rfl, -⟩ := h
    exact ⟨91, [], _, rfl, by decide⟩
  | table value =>
    obtain ⟨entries, members, rfl, -⟩ := h
    exact ⟨123, [], _, rfl, by decide⟩
  | record name fields =>
    obtain ⟨members, kept, added, rfl, -⟩ := h
    exact ⟨123, [], _, rfl, by decide⟩

/-- A handler of entries puts them all into the table. -/
theorem takes_table {read : Json.Read α} {varies : α → Tree → Prop}
    (hread : ∀ v tree, varies v tree → Accepts depth read tree v) (hd : depth < l.depth)
    {entries : List (String × α)} {members : List (Name × Tree)}
    (h : List.Forall₂ (fun e m => Spells e.1 m.1.val ∧ varies e.2 m.2) entries members)
    (table : Table α) :
    Takes l.size (fun key (t : Table α) bs => do
      let (value, bs) ← read l (← Json.scanColon bs)
      return (t.insert key value, bs)) members table
        (entries.foldl (fun t e => t.insert e.1 e.2) table) := by
  induction h generalizing table with
  | nil => exact .nil table
  | cons he _ ih =>
    refine .cons he.1 ?_ (ih _)
    intro text t htext ht hsize
    obtain ⟨rest, hrest, hcolon, hlength⟩ := htext.colon t
    have hvalue := hread _ _ he.2 l rest t hd hrest ht (hlength.trans hsize)
    simp only [hcolon, hvalue, bind, Except.bind]
    rfl

theorem accepts_table {read : Json.Read α} {varies : α → Tree → Prop}
    (hread : ∀ v tree, varies v tree → Accepts depth read tree v) {table : Table α}
    {entries : List (String × α)} {members : List (Name × Tree)}
    (hentries : entries.Perm table.entries)
    (h : List.Forall₂ (fun e m => Spells e.1 m.1.val ∧ varies e.2 m.2) entries members) :
    Accepts (depth + 1) (readTable read) (.object members) table := by
  intro l text t hd htext _ hsize
  have htakes := takes_table (l := { l with depth := l.depth - 1 }) hread
    (Nat.lt_sub_of_add_lt hd) h Table.empty
  rw [Table.foldl_insert_entries hentries] at htakes
  obtain ⟨bs, hdrop, hmembers⟩ := htakes.readMembers htext hsize
  simp only [bind, Except.bind] at hmembers
  simp only [readTable, hdrop, Json.enter_of_lt hd, bind, Except.bind]
  rw [hmembers]
  simp only [Json.scanObjectEnd_close, pure, Except.pure]

/-! Members of records. -/

/-- Whether every value of a record is among the members under its name, or has its default,
whatever else there is. -/
def Fields.Holds : (fs : Fields) → fs.El → List Member → Prop
  | .nil, _, _ => True
  | .cons name value absence rest, v, keyed =>
    ((∀ m ∈ keyed, m.1 ≠ name) ∧ absence ≠ .refused ∧ v.1 = value.default ∨
      ∃ m, keyed.filter (·.1 = name) = [m] ∧ value.Varies v.1 m.2.2) ∧ rest.Holds v.2 keyed

theorem Fields.isSound_cons {name : String} {value : Shape} {absence : Absence} {rest : Fields}
    (h : (Fields.cons name value absence rest).isSound) :
    name ∉ rest.names ∧ value.isSound ∧ rest.isSound := by
  simpa [Fields.isSound, and_assoc] using h

theorem Fields.mem_names_of_keeps : (fs : Fields) → (v : fs.El) → {kept : List Member} →
    fs.Keeps v kept → ∀ m ∈ kept, m.1 ∈ fs.names
  | .nil, _, _, h => by
    obtain rfl := h
    exact List.forall_mem_nil _
  | .cons name value absence rest, v, kept, h => by
    rcases h with ⟨-, -, hrest⟩ | ⟨spelled, tree, others, rfl, -, hrest⟩
    · exact fun m hm => List.mem_cons_of_mem _ (rest.mem_names_of_keeps v.2 hrest m hm)
    · refine List.forall_mem_cons.mpr ⟨List.mem_cons_self, ?_⟩
      exact fun m hm => List.mem_cons_of_mem _ (rest.mem_names_of_keeps v.2 hrest m hm)

/-- The order of the members says nothing, nor do members that the record does not have. -/
theorem Fields.holds_of_keeps : (fs : Fields) → fs.isSound → (v : fs.El) →
    {keyed kept added : List Member} → fs.Keeps v kept → (∀ m ∈ added, m.1 ∉ fs.names) →
    keyed.Perm (kept ++ added) → fs.Holds v keyed
  | .nil, _, _, _, _, _, _, _, _ => trivial
  | .cons name value absence rest, hs, v, keyed, kept, added, h, hadded, hperm => by
    obtain ⟨hname, -, hsound⟩ := Fields.isSound_cons hs
    have hothers : ∀ m ∈ added, m.1 ≠ name ∧ m.1 ∉ rest.names := fun m hm => by
      simpa [Fields.names] using hadded m hm
    have hkept {others : List Member} (h : rest.Keeps v.2 others) : ∀ m ∈ others, m.1 ≠ name := by
      rintro m hm rfl
      exact hname (rest.mem_names_of_keeps v.2 h m hm)
    rcases h with ⟨habsence, hdefault, hrest⟩ | ⟨spelled, tree, others, rfl, hvaries, hrest⟩
    · refine ⟨.inl ⟨?_, habsence, hdefault⟩,
        rest.holds_of_keeps hsound v.2 hrest (fun m hm => (hothers m hm).2) hperm⟩
      intro m hm
      rcases List.mem_append.mp (hperm.subset hm) with hm | hm
      · exact hkept hrest m hm
      · exact (hothers m hm).1
    · refine ⟨.inr ⟨(name, spelled, tree), ?_, hvaries⟩, ?_⟩
      · have hnone : (others ++ added).filter (·.1 = name) = [] := by
          rw [List.filter_eq_nil_iff]
          intro m hm
          rcases List.mem_append.mp hm with hm | hm
          · simpa using hkept hrest m hm
          · simpa using (hothers m hm).1
        have hfilter := hperm.filter (fun m : Member => m.1 = name)
        rw [List.cons_append, List.filter_cons_of_pos (by simp), hnone] at hfilter
        exact List.perm_singleton.mp hfilter
      · have hunknown : ∀ m ∈ (name, spelled, tree) :: added, m.1 ∉ rest.names :=
          List.forall_mem_cons.mpr ⟨hname, fun m hm => (hothers m hm).2⟩
        exact rest.holds_of_keeps hsound v.2 hrest hunknown
          (hperm.trans List.perm_middle.symm)

/-- The slots of a record when these members have been read. -/
def Fields.slotsOf (taken : List Member) : (fs : Fields) → fs.El → fs.Slots
  | .nil, _ => ()
  | .cons name _ _ rest, v =>
    (if taken.any (·.1 = name) then some v.1 else none, rest.slotsOf taken v.2)

theorem Fields.slotsOf_nil : (fs : Fields) → (v : fs.El) → fs.slotsOf [] v = fs.noSlots
  | .nil, _ => rfl
  | .cons _ _ _ rest, v => by
    rw [slotsOf, noSlots, rest.slotsOf_nil]
    rfl

theorem Fields.slotsOf_append {taken : List Member} {m : Member} : (fs : Fields) → (v : fs.El) →
    m.1 ∉ fs.names → fs.slotsOf (taken ++ [m]) v = fs.slotsOf taken v
  | .nil, _, _ => rfl
  | .cons name _ _ rest, v, h => by
    obtain ⟨hname, hrest⟩ : m.1 ≠ name ∧ m.1 ∉ rest.names := by simpa [Fields.names] using h
    have hany : (taken ++ [m]).any (·.1 = name) = taken.any (·.1 = name) := by
      simp [hname]
    simp only [slotsOf, hany, rest.slotsOf_append v.2 hrest]
    rfl

theorem Fields.ofSlots_slotsOf : (fs : Fields) → (v : fs.El) → {keyed : List Member} →
    fs.Holds v keyed → fs.ofSlots (fs.slotsOf keyed v) = .ok v
  | .nil, _, _, _ => rfl
  | .cons name value absence rest, v, keyed, ⟨hfirst, hrest⟩ => by
    have hmore := rest.ofSlots_slotsOf v.2 hrest
    rcases hfirst with ⟨hnone, habsence, hdefault⟩ | ⟨m, hm, -⟩
    · have hany : keyed.any (·.1 = name) = false := by
        simpa using hnone
      simp only [slotsOf, ofSlots, hany, hmore, habsence, ← hdefault, Bool.false_eq_true, if_false,
        bind, Except.bind]
      rfl
    · have hany : keyed.any (·.1 = name) := by
        have hmem : m ∈ keyed.filter (·.1 = name) := hm ▸ List.mem_singleton_self m
        rw [List.any_eq_true]
        exact ⟨m, (List.mem_filter.mp hmem).1, (List.mem_filter.mp hmem).2⟩
      simp only [slotsOf, ofSlots, hany, hmore, if_true, bind, Except.bind]
      rfl

/-- Whether the readers of all values accept what stands for them. -/
def Fields.Reads (depth : Nat) : Fields → Prop
  | .nil => True
  | .cons _ value _ rest =>
    (∀ v tree, value.Varies v tree → Accepts depth value.read tree v) ∧ rest.Reads depth

/-- Of members of which one alone has a name, that one comes first. -/
theorem first_of_filter {name : String} {before behind : List Member} {m m' : Member}
    (h : (before ++ m :: behind).filter (·.1 = name) = [m']) (hm : m.1 = name) :
    before.any (·.1 = name) = false ∧ m = m' := by
  rw [List.filter_append, List.filter_cons_of_pos (by simpa using hm)] at h
  cases hb : before.filter (·.1 = name) with
  | nil =>
    rw [hb] at h
    refine ⟨?_, (List.cons.inj h).1⟩
    simpa [List.filter_eq_nil_iff] using hb
  | cons _ _ =>
    rw [hb] at h
    simp at h

/-- A member goes into its slot; one that the record does not have is skipped. -/
theorem Fields.readMember_slotsOf (hd : depth < l.depth) : (fs : Fields) → fs.Reads depth →
    fs.isSound → (v : fs.El) → {before behind : List Member} → {m : Member} →
    fs.Holds v (before ++ m :: behind) → ∀ text t, Laid ([58] :: m.2.2.tokens) text → Ends t →
      (text ++ t).length ≤ l.size →
      fs.readMember l m.1 (fs.slotsOf before v) (text ++ t) = .ok (fs.slotsOf (before ++ [m]) v, t)
  | .nil, _, _, _, before, behind, m, _, text, t, htext, ht, hsize => by
    obtain ⟨rest, hrest, hcolon, hlength⟩ := htext.colon t
    have hskip : Json.skipValue l.size (rest ++ t) = .ok t :=
      Json.skipValue_laid hrest ht (hlength.trans hsize)
    simp only [readMember, hcolon, hskip, bind, Except.bind]
    rfl
  | .cons name value absence rest, ⟨hvalue, hreads⟩, hs, v, before, behind, m, ⟨hfirst, hholds⟩,
      text, t, htext, ht, hsize => by
    obtain ⟨hname, -, hsound⟩ := Fields.isSound_cons hs
    by_cases hm : m.1 = name
    · obtain ⟨m', hfilter, hvaries⟩ : ∃ m', (before ++ m :: behind).filter (·.1 = name) = [m'] ∧
          value.Varies v.1 m'.2.2 := by
        refine hfirst.resolve_left ?_
        rintro ⟨hnone, -⟩
        exact hnone m (by simp) hm
      obtain ⟨hfresh, rfl⟩ := first_of_filter hfilter hm
      have hany : (before ++ [m]).any (·.1 = name) := by
        simp [hm]
      have hother : m.1 ∉ rest.names := hm ▸ hname
      obtain ⟨bs, hbs, hcolon, hlength⟩ := htext.colon t
      have hread := hvalue _ _ hvaries l bs t hd hbs ht (hlength.trans hsize)
      simp only [slotsOf, readMember, if_pos hm, hfresh, hany, rest.slotsOf_append v.2 hother,
        hcolon, hread, Bool.false_eq_true, if_false, if_true, bind, Except.bind]
      rfl
    · have hmore := rest.readMember_slotsOf hd hreads hsound v.2 hholds text t htext ht hsize
      have hany : (before ++ [m]).any (·.1 = name) = before.any (·.1 = name) := by
        simp [hm]
      simp only [slotsOf, readMember, if_neg hm, hmore, hany, bind, Except.bind]
      rfl

/-- The members of a record fill its slots, one after another. -/
theorem Fields.takes (hd : depth < l.depth) (hreads : fs.Reads depth) (hs : fs.isSound)
    {v : fs.El} (before behind : List Member) (hspells : ∀ m ∈ behind, Spells m.1 m.2.1.val)
    (h : fs.Holds v (before ++ behind)) :
    Takes l.size (fs.readMember l) (behind.map Prod.snd) (fs.slotsOf before v)
      (fs.slotsOf (before ++ behind) v) := by
  induction behind generalizing before with
  | nil =>
    rw [List.append_nil]
    exact .nil _
  | cons m behind ih =>
    obtain ⟨hm, hbehind⟩ := List.forall_mem_cons.mp hspells
    have hmore := ih (before ++ [m]) hbehind (by simpa using h)
    rw [List.append_assoc, List.singleton_append] at hmore
    exact .cons hm (fs.readMember_slotsOf hd hreads hs v h) hmore

theorem accepts_record {name : String} (hreads : fs.Reads depth) (hs : fs.isSound) {v : fs.El}
    (h : (Shape.record name fs).Varies v tree) :
    Accepts (depth + 1) (Shape.record name fs).read tree v := by
  obtain ⟨members, kept, added, rfl, hperm, hspells, hkeeps, hadded⟩ := h
  intro l text t hd htext _ hsize
  have hcomp : Relation.Comp (· = List.map Prod.snd ·) List.Perm members (kept ++ added) := by
    rw [List.eq_map_comp_perm]
    exact hperm
  obtain ⟨keyed, rfl, hkeyed⟩ := hcomp
  have hholds := fs.holds_of_keeps hs v hkeeps hadded hkeyed
  have htakes := Fields.takes (l := { l with depth := l.depth - 1 })
    (Nat.lt_sub_of_add_lt hd) hreads hs [] keyed (fun m hm => hspells m (hkeyed.subset hm)) hholds
  rw [fs.slotsOf_nil, List.nil_append] at htakes
  obtain ⟨bs, hdrop, hmembers⟩ := htakes.readMembers htext hsize
  simp only [Shape.read, hdrop, Json.enter_of_lt hd, bind, Except.bind]
  rw [hmembers]
  simp only [fs.ofSlots_slotsOf v hholds, Json.scanObjectEnd_close, pure, Except.pure]

mutual
/-- Every tree that stands for a document is read as that document. -/
theorem Shape.accepts : (s : Shape) → s.isSound → (v : s.El) → (tree : Tree) → s.Varies v tree →
    Accepts s.height s.read tree v
  | .text, _, v, _, ⟨atom, rfl, hatom⟩ => by
    simp only [Shape.read]
    exact Json.accepts_text "a string" hatom
  | .flag, _, v, _, rfl => by
    simp only [Shape.read]
    exact Json.accepts_flag v
  | .int width, _, v, _, rfl => by
    simp only [Shape.read]
    exact accepts_int width v
  | .moment, _, v, _, ⟨atom, rfl, hatom⟩ => by
    simp only [Shape.read]
    exact accepts_moment hatom
  | .optional value, hs, v, tree, h => by
    obtain ⟨hoptional, hs⟩ : value.isOptional = false ∧ value.isSound := by
      simpa [Shape.isSound] using hs
    simp only [Shape.read]
    cases v with
    | none =>
      obtain rfl := h
      exact Json.accepts_null
    | some v =>
      obtain ⟨b, token, tokens, htokens, hb⟩ := Shape.Varies.first hoptional h
      exact Json.accepts_some (value.accepts hs v tree h) htokens hb
  | .list item, hs, v, _, ⟨items, rfl, hitems⟩ => by
    have haccepts : List.Forall₂ (Accepts item.height item.read) items v :=
      (hitems.imp (item.accepts (by simpa [Shape.isSound] using hs))).flip
    simp only [Shape.read]
    exact Json.accepts_list haccepts
  | .table value, hs, v, _, ⟨entries, members, rfl, hentries, hmembers⟩ => by
    simp only [Shape.read]
    exact accepts_table (value.accepts (by simpa [Shape.isSound] using hs)) hentries hmembers
  | .record name fields, hs, v, tree, h =>
    accepts_record (fields.reads (by simpa [Shape.isSound] using hs) fields.height (Nat.le_refl _))
      (by simpa [Shape.isSound] using hs) h

theorem Fields.reads : (fs : Fields) → fs.isSound → (depth : Nat) → fs.height ≤ depth →
    fs.Reads depth
  | .nil, _, _, _ => trivial
  | .cons name value absence rest, hs, depth, hdepth => by
    obtain ⟨-, hvalue, hrest⟩ := Fields.isSound_cons hs
    simp only [Fields.height, Nat.max_le] at hdepth
    exact ⟨fun v tree h => (value.accepts hvalue v tree h).mono hdepth.1,
      rest.reads hrest depth hdepth.2⟩
end

end Gallows.Document
