import Gallows.Proofs.CommandLine.Telling

/-!
The options that every command of a program takes. The value of one is the text that the words give
it, at whatever command they do, or else the text that the environment has for it, or else its
default.
-/
namespace Gallows.CommandLine

variable {host : Host} {program v : Verb} {words : List String} {line : List Spoken}
  {said : Said} {levels : List Level} {name : String} {term : Term} {g : Flag} {form : Form}
  {m : Matches}

/-- Whether a command takes an option, and nothing else under its name. -/
structure Keeps (g : Flag) (v : Verb) : Prop where
  only : v.flags.filter (·.name = g.name) = [g]
  noArgument : ∀ a ∈ v.arguments, a.name ≠ g.name

instance (g : Flag) (v : Verb) : Decidable (Keeps g v) :=
  decidable_of_iff (v.flags.filter (·.name = g.name) = [g] ∧ ∀ a ∈ v.arguments, a.name ≠ g.name)
    ⟨fun h => ⟨h.1, h.2⟩, fun h => ⟨h.only, h.noArgument⟩⟩

/-- Whether a term says what an option asks for. -/
inductive Fits (g : Flag) : Term → Prop
  | on (h : g.effect = .switch) : Fits g .on
  | option {form : Form} (h : g.effect = .value form) (text : String) : Fits g (.option form text)

theorem Keeps.eq_of_mem (hk : Keeps g v) (hhelp : g.name ≠ "help") {flag : Flag}
    (hf : flag ∈ Verb.helpFlag :: v.flags) (hn : flag.name = g.name) : flag = g := by
  rcases List.mem_cons.mp hf with rfl | hf
  · exact absurd hn.symm hhelp
  · have hmem : flag ∈ v.flags.filter (·.name = g.name) := List.mem_filter.mpr ⟨hf, by simp [hn]⟩
    rw [hk.only] at hmem
    exact List.mem_singleton.mp hmem

/-- What a command that takes an option is told for its name is what the option asks for. -/
theorem Tells.fits (h : Tells v name term) (hk : Keeps g v) (hhelp : g.name ≠ "help")
    (hn : name = g.name) : Fits g term := by
  cases h with
  | switch hf he =>
    obtain rfl := hk.eq_of_mem hhelp hf hn
    exact .on he
  | option hf he text =>
    obtain rfl := hk.eq_of_mem hhelp hf hn
    exact .option he text
  | argument ha => exact absurd hn (hk.noArgument _ ha)

theorem mem_of_lowest? (h : lowest? line name = some term) :
    ∃ spoken ∈ line, (name, term) ∈ spoken.said := by
  obtain ⟨spoken, hmem, hlookup⟩ := List.exists_of_findSome?_eq_some h
  obtain ⟨before, behind, hsaid, -⟩ := List.lookup_eq_some_iff.mp hlookup
  exact ⟨spoken, List.mem_reverse.mp hmem, by simp [hsaid]⟩

/-- The texts that options are given, by the names of the options. -/
def Said.options (said : Said) : List (String × String) :=
  said.filterMap fun (name, term) =>
    match term with
    | .option _ text => some (name, text)
    | _ => none

/-- The text that an option is given, by the lowest command that gives it one. -/
def given? (line : List Spoken) (name : String) : Option String :=
  line.reverse.findSome? (·.said.options.lookup name)

/-- What an option is given, or else what the environment has in the place of it. -/
def source? (host : Host) (line : List Spoken) (name : String) (stand? : Option String) :
    Option String :=
  (given? line name).or (stand?.bind host.env)

/-- Whether a switch is turned on, by any command. -/
def turnedOn (line : List Spoken) (name : String) : Bool :=
  line.any fun spoken => spoken.said.any fun (key, term) => key = name && term matches .on

/-- Whether every command of a line takes an option, and is told only what it can be told. -/
structure Hears (g : Flag) (line : List Spoken) : Prop where
  keeps : ∀ spoken ∈ line, Keeps g spoken.verb
  tells : ∀ spoken ∈ line, ∀ entry ∈ spoken.said, Tells spoken.verb entry.1 entry.2
  ne_help : g.name ≠ "help"

theorem Hears.fits (h : Hears g line) {spoken : Spoken} (hmem : spoken ∈ line)
    (hentry : (g.name, term) ∈ spoken.said) : Fits g term :=
  (h.tells spoken hmem _ hentry).fits (h.keeps spoken hmem) h.ne_help rfl

/-- Where only options have a name, what is told for it is what an option is given. -/
theorem lookup_options (h : ∀ term, (name, term) ∈ said → ∃ text, term = .option form text) :
    (said.lookup name = none ∧ said.options.lookup name = none) ∨
      ∃ text, said.lookup name = some (.option form text) ∧
        said.options.lookup name = some text := by
  induction said with
  | nil => exact Or.inl ⟨rfl, rfl⟩
  | cons entry said ih =>
    obtain ⟨key, term⟩ := entry
    have ih := ih fun term hmem => h term (List.mem_cons_of_mem _ hmem)
    by_cases hn : name = key
    · subst hn
      obtain ⟨text, rfl⟩ := h term List.mem_cons_self
      exact Or.inr ⟨text, by simp, by simp [Said.options]⟩
    · rw [List.lookup_cons, beq_false_of_ne hn]
      cases term with
      | option form text => simpa [Said.options, List.lookup_cons, beq_false_of_ne hn] using ih
      | on | argument => simpa [Said.options] using ih

/-- What is said last for an option with a value is what it is given. -/
theorem Hears.given?_cases (h : Hears g line) (he : g.effect = .value form) :
    (lowest? line g.name = none ∧ given? line g.name = none) ∨
      ∃ text, lowest? line g.name = some (.option form text) ∧ given? line g.name = some text := by
  have hoption : ∀ spoken ∈ line.reverse, ∀ term, (g.name, term) ∈ spoken.said →
      ∃ text, term = .option form text := by
    intro spoken hmem term hentry
    cases h.fits (List.mem_reverse.mp hmem) hentry with
    | on hswitch => simp [he] at hswitch
    | option he' text =>
      obtain rfl : form = _ := Effect.value.inj (he.symm.trans he')
      exact ⟨text, rfl⟩
  rw [lowest?, given?]
  generalize line.reverse = spokens at hoption
  induction spokens with
  | nil => exact Or.inl ⟨rfl, rfl⟩
  | cons spoken spokens ih =>
    obtain ⟨hfirst, hrest⟩ := List.forall_mem_cons.mp hoption
    rw [List.findSome?_cons, List.findSome?_cons]
    rcases lookup_options hfirst with ⟨hnone, hnone'⟩ | ⟨text, hsome, hsome'⟩
    · rw [hnone, hnone']
      exact ih hrest
    · rw [hsome, hsome']
      exact Or.inr ⟨text, rfl, rfl⟩

/-- What is said last for a switch is that it is on. -/
theorem Hears.turnedOn_cases (h : Hears g line) (he : g.effect = .switch) :
    (lowest? line g.name = none ∧ turnedOn line g.name = false) ∨
      lowest? line g.name = some .on ∧ turnedOn line g.name = true := by
  cases hl : lowest? line g.name with
  | none =>
    refine Or.inl ⟨rfl, ?_⟩
    rw [turnedOn, List.any_eq_false]
    intro spoken hmem hany
    obtain ⟨⟨key, term⟩, hentry, hon⟩ := List.any_eq_true.mp hany
    have hlookup := List.findSome?_eq_none_iff.mp hl spoken (List.mem_reverse.mpr hmem)
    have hkey := List.lookup_eq_none_iff.mp hlookup (key, term) hentry
    simp_all
  | some term =>
    obtain ⟨spoken, hmem, hentry⟩ := mem_of_lowest? hl
    cases h.fits hmem hentry with
    | option hvalue => simp [he] at hvalue
    | on =>
      refine Or.inr ⟨rfl, ?_⟩
      rw [turnedOn, List.any_eq_true]
      exact ⟨spoken, hmem, List.any_eq_true.mpr ⟨_, hentry, by simp⟩⟩

theorem Hears.sameFlags (h : Hears g line) : ∀ spoken ∈ line, SameFlags [g] g.name spoken.verb := by
  intro spoken hmem
  left
  rw [(h.keeps spoken hmem).only]
  simp

theorem Readings.ne_nil (h : Readings host program words line levels) : line ≠ [] := by
  obtain ⟨said, lower, rfl, -⟩ := h.spells
  exact List.cons_ne_nil _ _

theorem Readings.map_verb (h : Readings host program words line levels) :
    levels.map (·.verb) = line.map (·.verb.name) := by
  have hlevels := h.levels
  clear h
  induction hlevels with
  | nil => rfl
  | cons hlevel _ ih => rw [List.map_cons, List.map_cons, hlevel.ends.verb, ih]

/-- What the environment has for the only option of its name. -/
theorem standIn?_singleton (he : g.effect = .value form) :
    standIn? host [g] g.name = (g.stand?.bind host.env).map form.read := by
  rw [standIn?, List.findSome?_cons, List.findSome?_nil, he]
  cases g.stand?.bind host.env <;> simp

/-- An option without a default has the value of a text that it is given, or that the environment
has for it, or else no value. -/
theorem Hears.option_cases (h : Hears g line) (hr : Readings host program words line levels)
    (he : g.effect = .value form) (hd : g.default? = none) :
    (∃ text value origin, source? host line g.name g.stand? = some text ∧
        form.read text = .ok value ∧ globalSetting? levels g.name = some ⟨origin, value⟩) ∨
      source? host line g.name g.stand? = none ∧ globalSetting? levels g.name = none := by
  rcases globalSetting?_cases hr.levels hr.ne_nil h.sameFlags with
    ⟨term, value, hterm, hvalue, hsetting⟩ | ⟨hnone, hsetting, hread⟩
  · rcases h.given?_cases he with ⟨hnone, -⟩ | ⟨text, hsome, hgiven⟩
    · rw [hterm] at hnone
      cases hnone
    · obtain rfl := Option.some.inj (hterm.symm.trans hsome)
      exact Or.inl ⟨text, value, .words, by simp [source?, hgiven], hvalue, hsetting⟩
  · rcases h.given?_cases he with ⟨-, hgiven⟩ | ⟨text, hsome, -⟩
    · rw [source?, hgiven, Option.none_or]
      rw [standIn?_singleton he] at hread
      rw [unsaid, standIn?_singleton he] at hsetting
      cases hstand : g.stand?.bind host.env with
      | none =>
        refine Or.inr ⟨rfl, ?_⟩
        simpa [hstand, filled, default?, hd] using hsetting
      | some text =>
        obtain ⟨value, hvalue⟩ := hread (form.read text) (by rw [hstand, Option.map_some])
        refine Or.inl ⟨text, value, .environment, rfl, hvalue, ?_⟩
        simpa [hstand, filled, hvalue, Except.toOption] using hsetting
    · rw [hnone] at hsome
      cases hsome

/-- A switch that is off by default is on if it is turned on. -/
theorem Hears.switch (h : Hears g line) (hr : Readings host program words line levels)
    (he : g.effect = .switch) (hd : g.default? = some (.flag false)) :
    ∃ origin, globalSetting? levels g.name = some ⟨origin, .flag (turnedOn line g.name)⟩ := by
  rcases globalSetting?_cases hr.levels hr.ne_nil h.sameFlags with
    ⟨term, value, hterm, hvalue, hsetting⟩ | ⟨hnone, hsetting, -⟩
  · rcases h.turnedOn_cases he with ⟨hnone, -⟩ | ⟨hon, hturned⟩
    · rw [hterm] at hnone
      cases hnone
    · obtain rfl := Option.some.inj (hterm.symm.trans hon)
      obtain rfl := Except.ok.inj hvalue
      exact ⟨.words, by rw [hsetting, hturned]⟩
  · rcases h.turnedOn_cases he with ⟨-, hturned⟩ | ⟨hon, -⟩
    · exact ⟨.default, by simp [hsetting, unsaid, filled, standIn?, default?, he, hd, hturned]⟩
    · rw [hnone] at hon
      cases hon

/-- An argument that stands in the place of an option has the value of the word for it. -/
theorem Ends.argument {level : Level} {said : Said} {a : Argument}
    (h : Ends host v said.settings level) (hr : said.Readable)
    (htells : ∀ entry ∈ said, Tells v entry.1 entry.2) (ha : v.arguments = [a])
    (hflags : v.flags.filter (·.name = a.name) = []) (hhelp : a.name ≠ "help") :
    ∃ text value, a.form.read text = .ok value ∧
      level.settings.lookup a.name = some ⟨.words, value⟩ := by
  have hlookup := (h.lookup_eq a.name).1
  rw [← standIn?_filter, ← default?_filter, hflags] at hlookup
  rcases lookup_said hr a.name with ⟨-, hnone⟩ | ⟨term, value, hterm, hvalue, hsettings⟩
  · rw [hnone] at hlookup
    exact absurd hlookup (h.lookup_argument a (by simp [ha]))
  · rw [hsettings, Option.some_or] at hlookup
    obtain ⟨before, behind, hsaid, -⟩ := List.lookup_eq_some_iff.mp hterm
    have htold := htells (a.name, term) (by simp [hsaid])
    have hnot {flag : Flag} (hf : flag ∈ Verb.helpFlag :: v.flags) (hn : a.name = flag.name) :
        False := by
      rcases List.mem_cons.mp hf with rfl | hf
      · exact hhelp hn
      · exact List.filter_eq_nil_iff.mp hflags flag hf (by simp [hn])
    generalize hname : a.name = name at htold
    cases htold with
    | switch hf => exact (hnot hf hname).elim
    | option hf => exact (hnot hf hname).elim
    | argument ha' text =>
      rw [ha, List.mem_singleton] at ha'
      subst ha'
      exact ⟨text, value, hvalue, hlookup⟩

/-- What the lowest command has from its words counts. -/
theorem globalSetting?_of_words (above : List Level) {level : Level} {value : Value}
    (h : level.settings.lookup name = some ⟨.words, value⟩) :
    globalSetting? (above ++ [level]) name = some ⟨.words, value⟩ := by
  rw [globalSetting?_eq, List.map_append, List.foldl_append, List.map_singleton, h,
    List.foldl_cons, List.foldl_nil, prevail_words]

theorem lookup_filterMap (names : List String) (setting? : String → Option Setting) (name : String) :
    (names.filterMap fun name => (setting? name).map (name, ·)).lookup name =
      if name ∈ names then setting? name else none := by
  induction names with
  | nil => rfl
  | cons key names ih =>
    rw [List.filterMap_cons]
    cases hs : setting? key with
    | none =>
      rw [Option.map_none, ih]
      by_cases hn : name = key
      · simp [hn, hs]
      · simp [hn]
    | some setting =>
      rw [Option.map_some, List.lookup_cons, ih]
      by_cases hn : name = key
      · simp [hn, hs]
      · simp [hn, beq_false_of_ne hn]

/-- What is read from words: the names of the commands, what the lowest of them has, and the value
of every option that all commands take. -/
theorem read_eq_ok (h : read host program words = .ok m) :
    ∃ line levels, Readings host program words line levels ∧
      m.verbs = line.tail.map (·.verb.name) ∧
      m.own = (levels.getLast?.map (·.settings)).getD [] ∧
      ∀ g ∈ program.flags, g.isGlobal → m.globals.lookup g.name = globalSetting? levels g.name := by
  obtain ⟨levels, hlevels, h⟩ := bind_eq_ok h
  cases h
  obtain ⟨line, hr⟩ := readings_of_readLevels hlevels
  refine ⟨line, levels, hr, ?_, rfl, ?_⟩
  · rw [List.map_tail, hr.map_verb, List.map_tail]
  · intro g hg hglobal
    rw [lookup_filterMap, if_pos]
    exact List.mem_map.mpr ⟨g, List.mem_filter.mpr ⟨hg, hglobal⟩, rfl⟩

end Gallows.CommandLine
