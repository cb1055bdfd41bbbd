import Gallows.Proofs.CommandLine.Telling

/-!
A command line says one thing only. The first word of what is left tells what stands there, because
no name of a command looks like an option, and no long name of an option is empty or has an equals
sign in it.
-/
namespace Gallows.CommandLine

variable {v : Verb} {plain : Bool} {given : Nat} {words rest rest' : List String}
  {said said' : Said} {lower lower' : List Spoken} {word : String} {lacks lacks' : Option Target}

/-- Whether no name of a command can be taken for an option, nor an option for another one with its
value or for the end of the options. -/
structure Distinct (v : Verb) : Prop where
  verbs : ∀ w ∈ v.verbs, w.name.toList.head? ≠ some '-'
  flags : ∀ flag ∈ Verb.helpFlag :: v.flags, ∀ name ∈ flag.long?, name ≠ "" ∧ '=' ∉ name.toList

instance (v : Verb) : Decidable (Distinct v) :=
  decidable_of_iff ((∀ w ∈ v.verbs, w.name.toList.head? ≠ some '-') ∧
      ∀ flag ∈ Verb.helpFlag :: v.flags, ∀ name ∈ flag.long?, name ≠ "" ∧ '=' ∉ name.toList)
    ⟨fun h => ⟨h.1, h.2⟩, fun h => ⟨h.verbs, h.flags⟩⟩

theorem Distinct.long (h : Distinct v) {name : String} {flag : Flag}
    (hf : v.long? name = some flag) : name ≠ "" ∧ '=' ∉ name.toList :=
  h.flags flag (mem_of_long? hf) name (by simpa using List.find?_some hf)

/-- One option does not turn a switch on and take a value at once. -/
theorem switch_ne_value {o : Option Flag} {flag flag' : Flag} {form : Form} (hf : o = some flag)
    (hf' : o = some flag') (he : flag.effect = .switch) (he' : flag'.effect = .value form) :
    False := by
  obtain rfl := Option.some.inj (hf.symm.trans hf')
  cases he.symm.trans he'

theorem value_unique {o : Option Flag} {flag flag' : Flag} {form form' : Form}
    (hf : o = some flag) (hf' : o = some flag') (he : flag.effect = .value form)
    (he' : flag'.effect = .value form') : flag = flag' ∧ form = form' := by
  obtain rfl := Option.some.inj (hf.symm.trans hf')
  exact ⟨rfl, Effect.value.inj (he.symm.trans he')⟩

/-- Letters say one thing only. -/
theorem Letters.unique {letters : List Char} (h : Letters v letters said lacks)
    (h' : Letters v letters said' lacks') : said = said' ∧ lacks = lacks' := by
  induction h generalizing said' lacks' with
  | nil =>
    cases h'
    exact ⟨rfl, rfl⟩
  | switch hf he _ ih =>
    cases h' with
    | switch hf' he' h' =>
      obtain rfl := Option.some.inj (hf.symm.trans hf')
      obtain ⟨rfl, rfl⟩ := ih h'
      exact ⟨rfl, rfl⟩
    | value hf' he' | equals hf' he' | lacks hf' he' => exact (switch_ne_value hf hf' he he').elim
  | value hf he ht hn =>
    cases h' with
    | switch hf' he' => exact (switch_ne_value hf' hf he' he).elim
    | value hf' he' =>
      obtain ⟨rfl, rfl⟩ := value_unique hf hf' he he'
      exact ⟨rfl, rfl⟩
    | equals => simp at hn
    | lacks => simp at ht
  | equals hf he =>
    cases h' with
    | switch hf' he' => exact (switch_ne_value hf' hf he' he).elim
    | value _ _ _ hn => simp at hn
    | equals hf' he' =>
      obtain ⟨rfl, rfl⟩ := value_unique hf hf' he he'
      exact ⟨rfl, rfl⟩
  | lacks hf he =>
    cases h' with
    | switch hf' he' => exact (switch_ne_value hf' hf he' he).elim
    | value _ _ ht => simp at ht
    | lacks hf' he' =>
      obtain ⟨rfl, rfl⟩ := value_unique hf hf' he he'
      exact ⟨rfl, rfl⟩

theorem toList_long (name : String) : ("--" ++ name).toList = '-' :: '-' :: name.toList := by
  simp

theorem toList_joined (name text : String) :
    ("--" ++ name ++ "=" ++ text).toList = '-' :: '-' :: (name.toList ++ '=' :: text.toList) := by
  simp

theorem long_inj {name name' : String} (h : "--" ++ name = "--" ++ name') : name = name' := by
  have hlist := congrArg String.toList h
  simpa [toList_long, String.toList_inj] using hlist

/-- A name without an equals sign is not joined with a value. -/
theorem long_ne_joined {name name' text : String} (hn : '=' ∉ name.toList) :
    "--" ++ name ≠ "--" ++ name' ++ "=" ++ text := by
  intro h
  have hlist := congrArg String.toList h
  rw [toList_long, toList_joined, List.cons.injEq, List.cons.injEq] at hlist
  exact hn (by simp [hlist.2.2])

/-- What stands in front of the first equals sign, and what stands behind it. -/
theorem split_inj {front front' back back' : List Char} (hf : '=' ∉ front) (hf' : '=' ∉ front')
    (h : front ++ '=' :: back = front' ++ '=' :: back') : front = front' ∧ back = back' := by
  induction front generalizing front' with
  | nil =>
    cases front' with
    | nil => simpa using h
    | cons c front' =>
      obtain ⟨rfl, -⟩ := List.cons.inj h
      simp at hf'
  | cons c front ih =>
    cases front' with
    | nil =>
      obtain ⟨rfl, -⟩ := List.cons.inj h
      simp at hf
    | cons c' front' =>
      obtain ⟨rfl, htail⟩ := List.cons.inj h
      obtain ⟨rfl, rfl⟩ := ih (fun hmem => hf (List.mem_cons_of_mem _ hmem))
        (fun hmem => hf' (List.mem_cons_of_mem _ hmem)) htail
      exact ⟨rfl, rfl⟩

theorem joined_inj {name name' text text' : String} (hn : '=' ∉ name.toList)
    (hn' : '=' ∉ name'.toList) (h : "--" ++ name ++ "=" ++ text = "--" ++ name' ++ "=" ++ text') :
    name = name' ∧ text = text' := by
  have hlist := congrArg String.toList h
  rw [toList_joined, toList_joined, List.cons.injEq, List.cons.injEq] at hlist
  obtain ⟨hname, htext⟩ := split_inj hn hn' hlist.2.2
  exact ⟨String.toList_inj.mp hname, String.toList_inj.mp htext⟩

/-- Letters stand behind one dash only. -/
theorem ne_letters {c : Char} {letters long : List Char} (hc : c ≠ '-')
    (hw : word.toList = '-' :: '-' :: long) : word ≠ String.ofList ('-' :: c :: letters) := by
  rintro rfl
  rw [String.toList_ofList, List.cons.injEq, List.cons.injEq] at hw
  exact hc hw.2.1

/-- A word says one thing only. -/
theorem Begins.unique (h : Begins v word said lacks) (hd : Distinct v)
    (h' : Begins v word said' lacks') : said = said' ∧ lacks = lacks' := by
  generalize hw : word = word' at h'
  cases h with
  | switch hf he =>
    cases h' with
    | switch hf' he' =>
      obtain rfl := long_inj hw
      obtain rfl := Option.some.inj (hf.symm.trans hf')
      exact ⟨rfl, rfl⟩
    | joined => exact absurd hw (long_ne_joined (hd.long hf).2)
    | lacks hf' he' =>
      obtain rfl := long_inj hw
      exact (switch_ne_value hf hf' he he').elim
    | letters hc => exact absurd hw (ne_letters hc (toList_long _))
  | joined hf he hn =>
    cases h' with
    | switch hf' he' => exact absurd hw.symm (long_ne_joined (hd.long hf').2)
    | joined hf' he' hn' =>
      obtain ⟨rfl, rfl⟩ := joined_inj hn hn' hw
      obtain ⟨rfl, rfl⟩ := value_unique hf hf' he he'
      exact ⟨rfl, rfl⟩
    | lacks hf' he' => exact absurd hw.symm (long_ne_joined (hd.long hf').2)
    | letters hc => exact absurd hw (ne_letters hc (toList_joined _ _))
  | lacks hf he =>
    cases h' with
    | switch hf' he' =>
      obtain rfl := long_inj hw
      exact (switch_ne_value hf' hf he' he).elim
    | joined => exact absurd hw (long_ne_joined (hd.long hf).2)
    | lacks hf' he' =>
      obtain rfl := long_inj hw
      obtain ⟨rfl, rfl⟩ := value_unique hf hf' he he'
      exact ⟨rfl, rfl⟩
    | letters hc => exact absurd hw (ne_letters hc (toList_long _))
  | letters hc hl =>
    cases h' with
    | switch | lacks => exact absurd hw.symm (ne_letters hc (toList_long _))
    | joined => exact absurd hw.symm (ne_letters hc (toList_joined _ _))
    | letters hc' hl' =>
      have hlist := String.ofList_injective hw
      simp only [List.cons.injEq, true_and] at hlist
      obtain ⟨rfl, rfl⟩ := hlist
      exact hl.unique hl'

theorem Begins.toList (h : Begins v word said lacks) : ∃ c rest, word.toList = '-' :: c :: rest := by
  cases h with
  | switch | lacks => exact ⟨_, _, toList_long _⟩
  | joined => exact ⟨_, _, toList_joined _ _⟩
  | letters => exact ⟨_, _, String.toList_ofList⟩

/-- What begins as an option does not end the options. -/
theorem Begins.ne_end (h : Begins v word said lacks) (hd : Distinct v) : word ≠ "--" := by
  rintro rfl
  generalize hw : "--" = word at h
  cases h with
  | switch hf | lacks hf =>
    have hempty : "--" ++ "" = "--" ++ _ := hw
    exact (hd.long hf).1 (long_inj hempty).symm
  | joined hf =>
    have hlist := congrArg String.toList hw
    rw [toList_joined] at hlist
    simp at hlist
  | letters hc => exact absurd hw (ne_letters hc rfl)

theorem Phrase.begins {phrase : List String} (h : Phrase v phrase said) :
    ∃ word more said₀ lacks, phrase = word :: more ∧ Begins v word said₀ lacks := by
  cases h with
  | alone h => exact ⟨_, [], _, _, rfl, h⟩
  | spaced h => exact ⟨_, [_], _, _, rfl, h⟩

/-- A phrase says one thing only, and its words tell where it ends. -/
theorem Phrase.unique (hd : Distinct v) {phrase phrase' : List String} (h : Phrase v phrase said)
    (h' : Phrase v phrase' said') (hw : phrase ++ rest = phrase' ++ rest') :
    said = said' ∧ rest = rest' := by
  cases h with
  | alone h =>
    cases h' with
    | alone h' =>
      obtain ⟨rfl, rfl⟩ := List.cons.inj hw
      exact ⟨(h.unique hd h').1, rfl⟩
    | spaced h' =>
      obtain ⟨rfl, -⟩ := List.cons.inj hw
      cases (h.unique hd h').2
  | spaced h =>
    cases h' with
    | alone h' =>
      obtain ⟨rfl, -⟩ := List.cons.inj hw
      cases (h.unique hd h').2
    | spaced h' =>
      obtain ⟨rfl, htail⟩ := List.cons.inj hw
      obtain ⟨rfl, rfl⟩ := List.cons.inj htail
      obtain ⟨rfl, htarget⟩ := h.unique hd h'
      obtain rfl := Option.some.inj htarget
      exact ⟨rfl, rfl⟩

theorem Begins.not_looksPlain (h : Begins v word said lacks) : ¬ LooksPlain word := by
  intro hplain
  obtain ⟨c, letters, hword⟩ := h.toList
  exact hplain c letters hword

theorem Distinct.looksPlain (h : Distinct v) {w : Verb} (hv : v.verb? word = some w) :
    LooksPlain word := by
  intro c letters hword
  have hname : w.name = word := by simpa using List.find?_some hv
  exact h.verbs w (List.mem_of_find?_eq_some hv) (by simp [hname, hword])

theorem not_looksPlain_end : ¬ LooksPlain "--" := fun h => h '-' [] rfl

/-- The name of a command says nothing to the command above it. -/
theorem Spells.of_verb (hd : Distinct v) {w : Verb} (hv : v.verb? word = some w)
    (h : Spells v false given (word :: words) said lower) :
    said = [] ∧ ∃ said' lower', lower = ⟨w.inherit v.flags, said'⟩ :: lower' ∧
      Spells (w.inherit v.flags) false 0 words said' lower' := by
  generalize hw : word :: words = line at h
  cases h with
  | done => cases hw
  | verb hv' rest =>
    obtain ⟨rfl, rfl⟩ := List.cons.inj hw
    obtain rfl := Option.some.inj (hv.symm.trans hv')
    exact ⟨rfl, _, _, rfl, rest⟩
  | phrase hp =>
    obtain ⟨word', more, _, _, rfl, hbegins⟩ := hp.begins
    obtain ⟨rfl, -⟩ := List.cons.inj hw
    exact absurd (hd.looksPlain hv) hbegins.not_looksPlain
  | plain =>
    obtain ⟨rfl, -⟩ := List.cons.inj hw
    exact absurd (hd.looksPlain hv) not_looksPlain_end
  | argument ha hplain =>
    obtain ⟨rfl, -⟩ := List.cons.inj hw
    cases hv.symm.trans (hplain rfl).2

theorem Spells.of_phrase (hd : Distinct v) {phrase : List String} (hp : Phrase v phrase said')
    (h : Spells v false given (phrase ++ words) said lower) :
    ∃ more, said = said' ++ more ∧ Spells v false given words more lower := by
  obtain ⟨word, more, _, _, rfl, hbegins⟩ := hp.begins
  generalize hw : word :: more ++ words = line at h
  cases h with
  | done => cases hw
  | verb hv =>
    obtain ⟨rfl, -⟩ := List.cons.inj hw
    exact absurd (hd.looksPlain hv) hbegins.not_looksPlain
  | phrase hp' rest =>
    obtain ⟨rfl, rfl⟩ := hp.unique hd hp' hw
    exact ⟨_, rfl, rest⟩
  | plain =>
    obtain ⟨rfl, -⟩ := List.cons.inj hw
    exact absurd rfl (hbegins.ne_end hd)
  | argument ha hplain =>
    obtain ⟨rfl, -⟩ := List.cons.inj hw
    exact absurd (hplain rfl).1 hbegins.not_looksPlain

theorem Spells.of_end (hd : Distinct v) (h : Spells v false given ("--" :: words) said lower) :
    Spells v true given words said lower := by
  generalize hw : "--" :: words = line at h
  cases h with
  | done => cases hw
  | verb hv =>
    obtain ⟨rfl, -⟩ := List.cons.inj hw
    exact absurd (hd.looksPlain hv) not_looksPlain_end
  | phrase hp =>
    obtain ⟨word, more, _, _, rfl, hbegins⟩ := hp.begins
    obtain ⟨rfl, -⟩ := List.cons.inj hw
    exact absurd rfl (hbegins.ne_end hd)
  | plain rest =>
    obtain ⟨-, rfl⟩ := List.cons.inj hw
    exact rest
  | argument ha hplain =>
    obtain ⟨rfl, -⟩ := List.cons.inj hw
    exact absurd (hplain rfl).1 not_looksPlain_end

theorem Spells.of_argument {a : Argument} (ha : v.arguments[given]? = some a)
    (hplain : plain = false → LooksPlain word ∧ v.verb? word = none)
    (h : Spells v plain given (word :: words) said lower) :
    ∃ more, said = (a.name, .argument a.form word) :: more ∧
      Spells v plain (given + 1) words more lower := by
  generalize hw : word :: words = line at h
  cases h with
  | done => cases hw
  | verb hv =>
    obtain ⟨rfl, -⟩ := List.cons.inj hw
    cases hv.symm.trans (hplain rfl).2
  | phrase hp =>
    obtain ⟨word', more, _, _, rfl, hbegins⟩ := hp.begins
    obtain ⟨rfl, -⟩ := List.cons.inj hw
    exact absurd (hplain rfl).1 hbegins.not_looksPlain
  | plain =>
    obtain ⟨rfl, -⟩ := List.cons.inj hw
    exact absurd (hplain rfl).1 not_looksPlain_end
  | argument ha' _ rest =>
    obtain ⟨rfl, rfl⟩ := List.cons.inj hw
    obtain rfl := Option.some.inj (ha.symm.trans ha')
    exact ⟨_, rfl, rest⟩

/-- Words say one thing only to a command, and to those below it. -/
theorem Spells.unique {depth : Nat} (h : Spells v plain given words said lower)
    (ht : CommandLine.everywhere (Distinct ·) depth v = true)
    (h' : Spells v plain given words said' lower') : said = said' ∧ lower = lower' := by
  have hdistinct {depth : Nat} {v : Verb}
      (ht : CommandLine.everywhere (Distinct ·) depth v = true) : Distinct v := by
    cases depth with
    | zero => cases ht
    | succ depth =>
      rw [CommandLine.everywhere, Bool.and_eq_true] at ht
      simpa using ht.1
  induction h generalizing said' lower' depth with
  | done =>
    generalize hw : [] = line at h'
    cases h' with
    | done => exact ⟨rfl, rfl⟩
    | phrase hp =>
      obtain ⟨word, more, _, _, rfl, -⟩ := hp.begins
      cases hw
    | _ => cases hw
  | verb hv rest ih =>
    obtain ⟨rfl, said₁, lower₁, rfl, rest'⟩ := h'.of_verb (hdistinct ht) hv
    cases depth with
    | zero => cases ht
    | succ depth =>
      rw [CommandLine.everywhere, Bool.and_eq_true, List.all_eq_true] at ht
      obtain ⟨rfl, rfl⟩ := ih (ht.2 _ (List.mem_of_find?_eq_some hv)) rest'
      exact ⟨rfl, rfl⟩
  | phrase hp rest ih =>
    obtain ⟨more, rfl, rest'⟩ := h'.of_phrase (hdistinct ht) hp
    obtain ⟨rfl, rfl⟩ := ih ht rest'
    exact ⟨rfl, rfl⟩
  | plain rest ih => exact ih ht (h'.of_end (hdistinct ht))
  | argument ha hplain rest ih =>
    obtain ⟨more, rfl, rest'⟩ := h'.of_argument ha hplain
    obtain ⟨rfl, rfl⟩ := ih ht rest'
    exact ⟨rfl, rfl⟩

end Gallows.CommandLine
