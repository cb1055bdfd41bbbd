import Gallows.Proofs.CommandLine.Precedence

/-!
What can be said to a command. A command is told something only by its own options and arguments and
by the options that it inherits, and what it is told has the form that they ask for.
-/
namespace Gallows.CommandLine

variable {v : Verb} {plain : Bool} {given : Nat} {words : List String} {said : Said}
  {lower line : List Spoken} {name : String}

/-- What a command can be told, by which name. -/
inductive Tells (v : Verb) : String → Term → Prop
  | switch {flag : Flag} (hf : flag ∈ Verb.helpFlag :: v.flags) (he : flag.effect = .switch) :
      Tells v flag.name .on
  | option {flag : Flag} {form : Form} (hf : flag ∈ Verb.helpFlag :: v.flags)
      (he : flag.effect = .value form) (text : String) : Tells v flag.name (.option form text)
  | argument {a : Argument} (ha : a ∈ v.arguments) (text : String) :
      Tells v a.name (.argument a.form text)

theorem mem_of_short? {c : Char} {flag : Flag} (h : v.short? c = some flag) :
    flag ∈ Verb.helpFlag :: v.flags := List.mem_of_find?_eq_some h

theorem mem_of_long? {flag : Flag} (h : v.long? name = some flag) :
    flag ∈ Verb.helpFlag :: v.flags := List.mem_of_find?_eq_some h

theorem Letters.tells {letters : List Char} {lacks : Option Target}
    (h : Letters v letters said lacks) :
    (∀ entry ∈ said, Tells v entry.1 entry.2) ∧
      ∀ target, lacks = some target → ∀ text, Tells v target.name (.option target.form text) := by
  induction h with
  | nil => exact ⟨List.forall_mem_nil _, by simp⟩
  | switch hf he _ ih =>
    exact ⟨List.forall_mem_cons.mpr ⟨.switch (mem_of_short? hf) he, ih.1⟩, ih.2⟩
  | value hf he | equals hf he =>
    exact ⟨List.forall_mem_singleton.mpr (.option (mem_of_short? hf) he _), by simp⟩
  | lacks hf he =>
    refine ⟨List.forall_mem_nil _, ?_⟩
    intro target htarget text
    obtain rfl := Option.some.inj htarget
    exact .option (mem_of_short? hf) he text

theorem Begins.tells {word : String} {lacks : Option Target} (h : Begins v word said lacks) :
    (∀ entry ∈ said, Tells v entry.1 entry.2) ∧
      ∀ target, lacks = some target → ∀ text, Tells v target.name (.option target.form text) := by
  cases h with
  | switch hf he => exact ⟨List.forall_mem_singleton.mpr (.switch (mem_of_long? hf) he), by simp⟩
  | joined hf he =>
    exact ⟨List.forall_mem_singleton.mpr (.option (mem_of_long? hf) he _), by simp⟩
  | lacks hf he =>
    refine ⟨List.forall_mem_nil _, ?_⟩
    intro target htarget text
    obtain rfl := Option.some.inj htarget
    exact .option (mem_of_long? hf) he text
  | letters _ hl => exact hl.tells

theorem Phrase.tells {phrase : List String} (h : Phrase v phrase said) :
    ∀ entry ∈ said, Tells v entry.1 entry.2 := by
  cases h with
  | alone hb => exact hb.tells.1
  | spaced hb =>
    obtain ⟨hsaid, htarget⟩ := hb.tells
    intro entry hmem
    rcases List.mem_append.mp hmem with hmem | hmem
    · exact hsaid entry hmem
    · rw [List.mem_singleton.mp hmem]
      exact htarget _ rfl _

/-- What is said to the first command of a line is what it can be told. -/
theorem Spells.tells (h : Spells v plain given words said lower) :
    ∀ entry ∈ said, Tells v entry.1 entry.2 := by
  induction h with
  | done | verb => exact List.forall_mem_nil _
  | phrase hp _ ih =>
    intro entry hmem
    exact (List.mem_append.mp hmem).elim (hp.tells entry) (ih entry)
  | plain _ ih => exact ih
  | argument ha _ _ ih =>
    exact List.forall_mem_cons.mpr ⟨.argument (List.mem_of_getElem? ha) _, ih⟩

/-- The next command of a line is one below the first. -/
theorem Spells.lower_cases (h : Spells v plain given words said lower) :
    lower = [] ∨ ∃ w ∈ v.verbs, ∃ words said' rest, lower = ⟨w.inherit v.flags, said'⟩ :: rest ∧
      Spells (w.inherit v.flags) false 0 words said' rest := by
  induction h with
  | done => exact Or.inl rfl
  | verb hv rest _ => exact Or.inr ⟨_, List.mem_of_find?_eq_some hv, _, _, _, rfl, rest⟩
  | phrase _ _ ih | plain _ ih | argument _ _ _ ih => exact ih

/-- Whether a test holds of a command and of those below it, as many levels down as there are. -/
def everywhere (test : Verb → Bool) : (depth : Nat) → Verb → Bool
  | 0, _ => false
  | depth + 1, v => test v && v.verbs.all fun w => everywhere test depth (w.inherit v.flags)

/-- A line speaks to commands that are tested, and tells them what they can be told. -/
theorem Spells.everywhere {test : Verb → Bool} {depth : Nat}
    (h : Spells v plain given words said lower) (ht : everywhere test depth v = true) :
    ∀ spoken ∈ ⟨v, said⟩ :: lower, test spoken.verb = true ∧
      ∀ entry ∈ spoken.said, Tells spoken.verb entry.1 entry.2 := by
  induction depth generalizing v plain given words said lower with
  | zero => cases ht
  | succ depth ih =>
    rw [CommandLine.everywhere, Bool.and_eq_true, List.all_eq_true] at ht
    refine List.forall_mem_cons.mpr ⟨⟨ht.1, h.tells⟩, ?_⟩
    rcases h.lower_cases with rfl | ⟨w, hw, words', said', rest, rfl, hrest⟩
    · exact List.forall_mem_nil _
    · exact ih hrest (ht.2 w hw)

end Gallows.CommandLine
