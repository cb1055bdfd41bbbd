import Gallows.Proofs.CommandLine.Spelling

/-!
Which value of an option counts. What is said comes before what the environment has, and that before
a default; and of what is said, what the lowest command is told counts.
-/
namespace Gallows.CommandLine

variable {host : Host} {v : Verb} {s s' : State} {name : String} {settings : Settings} {said : Said}
  {level : Level}

/-- What the environment has for an option among some with this name. -/
def standIn? (host : Host) (flags : List Flag) (name : String) : Option (Except Usage Value) :=
  flags.findSome? fun flag =>
    match flag.effect, flag.stand?.bind host.env with
    | .value form, some text => if flag.name = name then some (form.read text) else none
    | _, _ => none

/-- The default of an option among some with this name. -/
def default? (flags : List Flag) (name : String) : Option Value :=
  flags.findSome? fun flag => if flag.name = name then flag.default? else none

/-- A setting that is filled in where there is none. -/
def filled (origin : Origin) (r : Option (Except Usage Value)) : Option Setting :=
  (r.bind Except.toOption).map (⟨origin, ·⟩)

theorem lookup_snoc (settings : Settings) (name key : String) (setting : Setting) :
    List.lookup name (settings ++ [(key, setting)]) =
      (settings.lookup name).or (if key = name then some setting else none) := by
  rw [List.lookup_append, List.lookup_cons, List.lookup_nil]
  by_cases h : key = name
  · simp [h]
  · simp [h, beq_false_of_ne (Ne.symm h)]

theorem standIn?_cons_of_not {flag : Flag} {flags : List Flag}
    (h : ∀ form text, flag.effect = .value form → flag.stand?.bind host.env = some text →
      flag.name ≠ name) : standIn? host (flag :: flags) name = standIn? host flags name := by
  rw [standIn?, List.findSome?_cons]
  split
  · rename_i r hr
    split at hr
    · rename_i form text he ht
      simp [h form text he ht] at hr
    · cases hr
  · rfl

theorem standIn?_cons_of_eq {flag : Flag} {flags : List Flag} {form : Form} {text : String}
    (he : flag.effect = .value form) (ht : flag.stand?.bind host.env = some text)
    (hn : flag.name = name) : standIn? host (flag :: flags) name = some (form.read text) := by
  simp [standIn?, he, ht, hn]

/-- The environment fills in what the words leave open, and everything that it fills in can be
read. -/
theorem lookup_fillEnvironment (h : s.fillEnvironment host v = .ok s') (name : String) :
    s'.settings.lookup name =
        (s.settings.lookup name).or (filled .environment (standIn? host v.flags name)) ∧
      (s.settings.lookup name = none →
        ∀ r, standIn? host v.flags name = some r → ∃ value, r = .ok value) := by
  rw [State.fillEnvironment] at h
  generalize v.flags = flags at h ⊢
  induction flags generalizing s with
  | nil =>
    cases h
    simp [standIn?, filled]
  | cons flag flags ih =>
    rw [List.foldlM_cons] at h
    obtain ⟨s₁, hstep, h⟩ := bind_eq_ok h
    obtain ⟨hlookup, hread⟩ := ih h
    split at hstep
    · rename_i form text he ht
      by_cases hn : flag.name = name
      · rw [standIn?_cons_of_eq he ht hn]
        split at hstep
        · rename_i hsome
          cases hstep
          obtain ⟨setting, hsetting⟩ := Option.isSome_iff_exists.mp hsome
          rw [hn] at hsetting
          simp [hlookup, hsetting]
        · rename_i hnone
          cases hr : form.read text with
          | error e =>
            rw [hr] at hstep
            cases hstep
          | ok value =>
            rw [hr] at hstep
            cases hstep
            rw [hn, Option.not_isSome_iff_eq_none] at hnone
            rw [hlookup, lookup_snoc, hnone, if_pos hn]
            simp [filled, Except.toOption]
      · rw [standIn?_cons_of_not fun _ _ _ _ => hn]
        split at hstep
        · cases hstep
          exact ⟨hlookup, hread⟩
        · cases hr : form.read text with
          | error e =>
            rw [hr] at hstep
            cases hstep
          | ok value =>
            rw [hr] at hstep
            cases hstep
            rw [lookup_snoc, if_neg hn, Option.or_none] at hlookup hread
            exact ⟨hlookup, hread⟩
    · rename_i hother
      cases hstep
      rw [standIn?_cons_of_not fun form text he ht => absurd ht (hother form text he)]
      exact ⟨hlookup, hread⟩

theorem default?_cons (flag : Flag) (flags : List Flag) (name : String) :
    default? (flag :: flags) name =
      (if flag.name = name then flag.default? else none).or (default? flags name) := by
  rw [default?, List.findSome?_cons]
  cases (if flag.name = name then flag.default? else none) <;> rfl

/-- The defaults fill in what is still open. -/
theorem lookup_fillDefaults (v : Verb) (s : State) (name : String) :
    (s.fillDefaults v).settings.lookup name =
      (s.settings.lookup name).or ((default? v.flags name).map (⟨.default, ·⟩)) := by
  rw [State.fillDefaults]
  generalize v.flags = flags
  induction flags generalizing s with
  | nil => simp [default?]
  | cons flag flags ih =>
    rw [List.foldl_cons, ih, default?_cons]
    cases hd : flag.default? with
    | none => simp
    | some value =>
      dsimp only
      by_cases hn : flag.name = name
      · rw [if_pos hn]
        split
        · rename_i hsome
          obtain ⟨setting, hsetting⟩ := Option.isSome_iff_exists.mp hsome
          rw [hn] at hsetting
          simp [hsetting]
        · rename_i hnone
          rw [hn, Option.not_isSome_iff_eq_none] at hnone
          rw [lookup_snoc, hnone, if_pos hn]
          simp
      · rw [if_neg hn, Option.none_or]
        split
        · rfl
        · rw [lookup_snoc, if_neg hn, Option.or_none]

theorem finish_eq_ok {below : Bool} (hp : s.pending = none)
    (h : s.finish host v below = .ok settings) :
    (∃ s₁, s.fillEnvironment host v = .ok s₁ ∧ settings = (s₁.fillDefaults v).settings) ∧
      ∀ a ∈ v.arguments, settings.lookup a.name ≠ none := by
  obtain ⟨s₀, hflush, h₀⟩ := bind_eq_ok h
  rw [flush_of_none hp] at hflush
  cases hflush
  obtain ⟨s₁, henvironment, h₁⟩ := bind_eq_ok h₀
  dsimp only at h₁
  split at h₁
  · cases h₁
  · split at h₁
    · cases h₁
    · rename_i harguments
      cases h₁
      refine ⟨⟨s₁, henvironment, rfl⟩, ?_⟩
      intro a ha hnone
      exact harguments (List.any_eq_true.mpr ⟨a, ha, by simp [hnone]⟩)

/-- What a level has for a name: what its words say, or what the environment has, or the default. -/
theorem Ends.lookup_eq (h : Ends host v settings level) (name : String) :
    level.settings.lookup name =
        (settings.lookup name).or ((filled .environment (standIn? host v.flags name)).or
          ((default? v.flags name).map (⟨.default, ·⟩))) ∧
      (settings.lookup name = none →
        ∀ r, standIn? host v.flags name = some r → ∃ value, r = .ok value) := by
  obtain ⟨s, below, hpending, rfl, hfinish⟩ := h.finish
  obtain ⟨⟨s₁, henvironment, hsettings⟩, -⟩ := finish_eq_ok hpending hfinish
  obtain ⟨hlookup, hread⟩ := lookup_fillEnvironment henvironment name
  refine ⟨?_, hread⟩
  rw [hsettings, lookup_fillDefaults, hlookup, Option.or_assoc]

theorem Ends.lookup_argument (h : Ends host v settings level) :
    ∀ a ∈ v.arguments, level.settings.lookup a.name ≠ none := by
  obtain ⟨s, below, hpending, -, hfinish⟩ := h.finish
  exact (finish_eq_ok hpending hfinish).2

/-- What is said has its value. -/
theorem lookup_said (h : said.Readable) (name : String) :
    (said.lookup name = none ∧ said.settings.lookup name = none) ∨
      ∃ term value, said.lookup name = some term ∧ term.read = .ok value ∧
        (Said.settings said).lookup name = some ⟨.words, value⟩ := by
  induction said with
  | nil => exact Or.inl ⟨rfl, rfl⟩
  | cons entry said ih =>
    obtain ⟨key, term⟩ := entry
    obtain ⟨value, hread⟩ := h (key, term) List.mem_cons_self
    have hcons : Said.settings ((key, term) :: said) =
        (key, ⟨.words, value⟩) :: Said.settings said := by
      have happend := Said.settings_append [(key, term)] said
      rwa [Said.settings_single hread] at happend
    rw [hcons, List.lookup_cons, List.lookup_cons]
    cases hk : name == key with
    | true => exact Or.inr ⟨term, value, rfl, hread, rfl⟩
    | false => exact ih fun entry hmem => h entry (List.mem_cons_of_mem _ hmem)

/-- What is said last for a name: by the lowest command that is told something for it. -/
def lowest? (line : List Spoken) (name : String) : Option Term :=
  line.reverse.findSome? (·.said.lookup name)

/-- Whether a command has the same options of a name as some others, or none, but an argument. -/
def SameFlags (flags : List Flag) (name : String) (v : Verb) : Prop :=
  v.flags.filter (·.name = name) = flags.filter (·.name = name) ∨
    v.flags.filter (·.name = name) = [] ∧ ∃ a ∈ v.arguments, a.name = name

theorem standIn?_filter (host : Host) (flags : List Flag) (name : String) :
    standIn? host (flags.filter (·.name = name)) name = standIn? host flags name := by
  induction flags with
  | nil => rfl
  | cons flag flags ih =>
    by_cases hn : flag.name = name
    · rw [List.filter_cons_of_pos (by simp [hn])]
      simp only [standIn?, List.findSome?_cons] at ih ⊢
      rw [ih]
    · rw [List.filter_cons_of_neg (by simp [hn]), ih, standIn?_cons_of_not fun _ _ _ _ => hn]

theorem default?_filter (flags : List Flag) (name : String) :
    default? (flags.filter (·.name = name)) name = default? flags name := by
  induction flags with
  | nil => rfl
  | cons flag flags ih =>
    by_cases hn : flag.name = name
    · rw [List.filter_cons_of_pos (by simp [hn]), default?_cons, default?_cons, ih]
    · rw [List.filter_cons_of_neg (by simp [hn]), ih, default?_cons, if_neg hn, Option.none_or]

/-- The setting of an option that nobody says anything for. -/
def unsaid (host : Host) (flags : List Flag) (name : String) : Option Setting :=
  (filled .environment (standIn? host flags name)).or ((default? flags name).map (⟨.default, ·⟩))

variable {flags : List Flag} {line : List Spoken} {levels : List Level}

/-- What a command has for a name of which it has the same options: what it is told last, or what
there is for the name if it is told nothing. -/
theorem Ends.lookup_same (hr : said.Readable) (h : Ends host v (Said.settings said) level)
    (hs : SameFlags flags name v) :
    (∃ term value, said.lookup name = some term ∧ term.read = .ok value ∧
        level.settings.lookup name = some ⟨.words, value⟩) ∨
      said.lookup name = none ∧ level.settings.lookup name = unsaid host flags name ∧
        ∀ r, standIn? host flags name = some r → ∃ value, r = .ok value := by
  obtain ⟨hlookup, hread⟩ := h.lookup_eq name
  rcases lookup_said hr name with ⟨hnone, hsettings⟩ | ⟨term, value, hterm, hvalue, hsettings⟩
  · rw [hsettings, Option.none_or, ← standIn?_filter, ← default?_filter] at hlookup
    rcases hs with hs | ⟨hs, a, ha, rfl⟩
    · rw [hs, standIn?_filter, default?_filter] at hlookup
      refine Or.inr ⟨hnone, hlookup, ?_⟩
      have hread := hread hsettings
      rwa [← standIn?_filter, hs, standIn?_filter] at hread
    · rw [hs] at hlookup
      exact absurd hlookup (h.lookup_argument a ha)
  · rw [hsettings, Option.some_or] at hlookup
    exact Or.inl ⟨term, value, hterm, hvalue, hlookup⟩

/-- Of two settings, which may be absent, the one above and the one below it, the one that
counts. -/
def prevail : Option Setting → Option Setting → Option Setting
  | none, below => below
  | some above, none => some above
  | some above, some below => some (stronger above below)

theorem globalSetting?_eq (levels : List Level) (name : String) :
    globalSetting? levels name = (levels.map (·.settings.lookup name)).foldl prevail none := by
  rw [globalSetting?, List.foldl_map]
  rfl

theorem prevail_words (above : Option Setting) (value : Value) :
    prevail above (some ⟨.words, value⟩) = some ⟨.words, value⟩ := by
  rcases above with _ | ⟨_ | _ | _, _⟩ <;> rfl

theorem words_prevail (value : Value) (host : Host) (flags : List Flag) (name : String) :
    prevail (some ⟨.words, value⟩) (unsaid host flags name) = some ⟨.words, value⟩ := by
  rw [unsaid, filled]
  cases (standIn? host flags name).bind Except.toOption with
  | some value => rfl
  | none => cases default? flags name <;> rfl

theorem prevail_prevail (above below : Option Setting) :
    prevail (prevail above below) below = prevail above below := by
  rcases above with _ | above
  · rcases below with _ | below
    · rfl
    · simp [prevail, stronger]
  · rcases below with _ | below
    · rfl
    · by_cases h : below.origin.rank < above.origin.rank <;> simp [prevail, stronger, h]

theorem lowest?_cons (spoken : Spoken) (line : List Spoken) (name : String) :
    lowest? (spoken :: line) name = (lowest? line name).or (spoken.said.lookup name) := by
  rw [lowest?, lowest?, List.reverse_cons, List.findSome?_append]
  simp

/-- What counts behind a command above, of which `above` has come. -/
theorem foldl_prevail (hlevels : List.Forall₂ (Yields host) line levels)
    (hsame : ∀ spoken ∈ line, SameFlags flags name spoken.verb) (above : Option Setting) :
    (∃ term value, lowest? line name = some term ∧ term.read = .ok value ∧
        (levels.map (·.settings.lookup name)).foldl prevail above = some ⟨.words, value⟩) ∨
      lowest? line name = none ∧ (line = [] ∧ levels = [] ∨
        (levels.map (·.settings.lookup name)).foldl prevail above =
            prevail above (unsaid host flags name) ∧
          ∀ r, standIn? host flags name = some r → ∃ value, r = .ok value) := by
  induction hlevels generalizing above with
  | nil => exact Or.inr ⟨rfl, Or.inl ⟨rfl, rfl⟩⟩
  | @cons spoken level line levels hlevel _ ih =>
    obtain ⟨hfirst, hrest⟩ := List.forall_mem_cons.mp hsame
    rw [lowest?_cons, List.map_cons, List.foldl_cons]
    rcases ih hrest (prevail above (level.settings.lookup name)) with
      ⟨term, value, hterm, hvalue, hfold⟩ | ⟨hnone, hfold⟩
    · exact Or.inl ⟨term, value, by rw [hterm, Option.some_or], hvalue, hfold⟩
    · rw [hnone, Option.none_or]
      rcases hlevel.ends.lookup_same hlevel.readable hfirst with
        ⟨term, value, hterm, hvalue, hlookup⟩ | ⟨hnone', hlookup, hread⟩
      · refine Or.inl ⟨term, value, hterm, hvalue, ?_⟩
        rw [hlookup, prevail_words] at hfold ⊢
        rcases hfold with ⟨-, rfl⟩ | ⟨hfold, -⟩
        · rfl
        · rw [hfold, words_prevail]
      · refine Or.inr ⟨hnone', Or.inr ⟨?_, hread⟩⟩
        rw [hlookup] at hfold ⊢
        rcases hfold with ⟨-, rfl⟩ | ⟨hfold, -⟩
        · rfl
        · rw [hfold, prevail_prevail]

/-- What counts for a name is what is said last for it, or else what the environment has, or else
the default. -/
theorem globalSetting?_cases (hlevels : List.Forall₂ (Yields host) line levels) (hne : line ≠ [])
    (hsame : ∀ spoken ∈ line, SameFlags flags name spoken.verb) :
    (∃ term value, lowest? line name = some term ∧ term.read = .ok value ∧
        globalSetting? levels name = some ⟨.words, value⟩) ∨
      lowest? line name = none ∧ globalSetting? levels name = unsaid host flags name ∧
        ∀ r, standIn? host flags name = some r → ∃ value, r = .ok value := by
  rw [globalSetting?_eq]
  rcases foldl_prevail hlevels hsame none with hsaid | ⟨hnone, ⟨hnil, -⟩ | ⟨hfold, hread⟩⟩
  · exact Or.inl hsaid
  · exact absurd hnil hne
  · exact Or.inr ⟨hnone, hfold, hread⟩

/-- Whether a command line is a reading of these words, and its levels are what the reader makes
of them. -/
structure Readings (host : Host) (program : Verb) (words : List String) (line : List Spoken)
    (levels : List Level) : Prop where
  spells : ∃ said lower, line = ⟨program, said⟩ :: lower ∧
    Spells program false 0 words said lower
  levels : List.Forall₂ (Yields host) line levels

theorem readings_of_readLevels {program : Verb} {words : List String}
    (h : readLevels host program {} words = .ok levels) :
    ∃ line, Readings host program words line levels := by
  obtain ⟨said, lower, hspells, hreadable, s₀, top, below, hflush, rfl, htop, hbelow⟩ :=
    reads_of_readLevels rfl h
  cases hflush
  exact ⟨⟨program, said⟩ :: lower, ⟨said, lower, rfl, hspells⟩, .cons ⟨hreadable, htop⟩ hbelow⟩

end Gallows.CommandLine
