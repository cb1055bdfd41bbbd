import Gallows.CommandLine.Reader
import Gallows.Proofs.Except
import Mathlib.Data.List.Forall2
import Mathlib.Data.List.TakeWhile

/-!
How command lines are spelled. A command line is a sequence of options, arguments and names of
commands, every one of which speaks for the command that it stands behind; and whatever the reader
accepts is spelled in this way.
-/
namespace Gallows.CommandLine

/-- What is said by an option or an argument. -/
inductive Term
  /-- The switch is on. -/
  | on
  /-- An option has this value. -/
  | option (form : Form) (text : String)
  | argument (form : Form) (text : String)

/-- The value that a term stands for. -/
def Term.read : Term → Except Usage Value
  | on => .ok (.flag true)
  | option form text | argument form text => form.read text

/-- What is said to one command, by the names of its options and arguments. -/
abbrev Said := List (String × Term)

/-- A command and what is said to it. -/
structure Spoken where
  verb : Verb
  said : Said

/-- Whether a word does not look like an option. -/
def LooksPlain (word : String) : Prop := ∀ c rest, word.toList ≠ '-' :: c :: rest

/-- What letters behind a dash say, and which option they leave without its value. -/
inductive Letters (v : Verb) : List Char → Said → Option Target → Prop
  | nil : Letters v [] [] none
  | switch {c : Char} {rest : List Char} {flag : Flag} {said : Said} {lacks : Option Target}
      (hf : v.short? c = some flag) (he : flag.effect = .switch) (h : Letters v rest said lacks) :
      Letters v (c :: rest) ((flag.name, .on) :: said) lacks
  | value {c : Char} {text : List Char} {flag : Flag} {form : Form} (hf : v.short? c = some flag)
      (he : flag.effect = .value form) (ht : text ≠ []) (hn : text.head? ≠ some '=') :
      Letters v (c :: text) [(flag.name, .option form (.ofList text))] none
  | equals {c : Char} {text : List Char} {flag : Flag} {form : Form} (hf : v.short? c = some flag)
      (he : flag.effect = .value form) :
      Letters v (c :: '=' :: text) [(flag.name, .option form (.ofList text))] none
  | lacks {c : Char} {flag : Flag} {form : Form} (hf : v.short? c = some flag)
      (he : flag.effect = .value form) : Letters v [c] [] (some ⟨flag.name, form⟩)

/-- What a word says that begins as an option, and which option it leaves without its value. -/
inductive Begins (v : Verb) : String → Said → Option Target → Prop
  | switch {name : String} {flag : Flag} (hf : v.long? name = some flag)
      (he : flag.effect = .switch) : Begins v ("--" ++ name) [(flag.name, .on)] none
  | joined {name : String} {flag : Flag} {form : Form} (hf : v.long? name = some flag)
      (he : flag.effect = .value form) (hn : '=' ∉ name.toList) (text : String) :
      Begins v ("--" ++ name ++ "=" ++ text) [(flag.name, .option form text)] none
  | lacks {name : String} {flag : Flag} {form : Form} (hf : v.long? name = some flag)
      (he : flag.effect = .value form) : Begins v ("--" ++ name) [] (some ⟨flag.name, form⟩)
  | letters {c : Char} {rest : List Char} {said : Said} {lacks : Option Target} (hc : c ≠ '-')
      (h : Letters v (c :: rest) said lacks) : Begins v (.ofList ('-' :: c :: rest)) said lacks

/-- What one or two words say that begin as an option. The second is the value that the first one
leaves open. -/
inductive Phrase (v : Verb) : List String → Said → Prop
  | alone {word : String} {said : Said} (h : Begins v word said none) : Phrase v [word] said
  | spaced {word : String} {said : Said} {target : Target} (h : Begins v word said (some target))
      {text : String} (hp : LooksPlain text) :
      Phrase v [word, text] (said ++ [(target.name, .option target.form text)])

/-- What words say to a command, and to the commands below it, the highest first. `plain` tells
whether options have ended, and `given` how many arguments have gone before. -/
inductive Spells : Verb → (plain : Bool) → (given : Nat) → List String → Said → List Spoken → Prop
  | done {v : Verb} {plain : Bool} {given : Nat} : Spells v plain given [] [] []
  /-- The name of a command below this one. -/
  | verb {v w : Verb} {word : String} {words : List String} {given : Nat} {said : Said}
      {lower : List Spoken} (hv : v.verb? word = some w)
      (rest : Spells (w.inherit v.flags) false 0 words said lower) :
      Spells v false given (word :: words) [] (⟨w.inherit v.flags, said⟩ :: lower)
  | phrase {v : Verb} {phrase words : List String} {given : Nat} {said more : Said}
      {lower : List Spoken} (hp : Phrase v phrase said)
      (rest : Spells v false given words more lower) :
      Spells v false given (phrase ++ words) (said ++ more) lower
  /-- The word that ends the options. -/
  | plain {v : Verb} {words : List String} {given : Nat} {said : Said} {lower : List Spoken}
      (rest : Spells v true given words said lower) :
      Spells v false given ("--" :: words) said lower
  | argument {v : Verb} {a : Argument} {plain : Bool} {word : String} {words : List String}
      {given : Nat} {said : Said} {lower : List Spoken} (ha : v.arguments[given]? = some a)
      (hw : plain = false → LooksPlain word ∧ v.verb? word = none)
      (rest : Spells v plain (given + 1) words said lower) :
      Spells v plain given (word :: words) ((a.name, .argument a.form word) :: said) lower

/-- The settings that what is said amounts to. -/
def Said.settings (said : Said) : Settings :=
  said.filterMap fun (name, term) => term.read.toOption.map fun value => (name, ⟨.words, value⟩)

/-- Whether everything that is said has a value. -/
def Said.Readable (said : Said) : Prop := ∀ entry ∈ said, ∃ value, entry.2.read = .ok value

theorem Said.settings_append (said more : Said) :
    Said.settings (said ++ more) = said.settings ++ more.settings := by
  simp [settings]

theorem Said.readable_append {said more : Said} (h : said.Readable) (h' : more.Readable) :
    Said.Readable (said ++ more) := by
  intro entry hmem
  exact (List.mem_append.mp hmem).elim (h entry) (h' entry)

theorem Said.readable_single {name : String} {term : Term} {value : Value}
    (h : term.read = .ok value) : Said.Readable [(name, term)] := by
  intro entry hmem
  rw [List.mem_singleton.mp hmem]
  exact ⟨value, h⟩

theorem Said.settings_single {name : String} {term : Term} {value : Value}
    (h : term.read = .ok value) : Said.settings [(name, term)] = [(name, ⟨.words, value⟩)] := by
  simp [settings, h, Except.toOption]

variable {v : Verb} {s s' s₀ : State} {host : Host} {word : String} {said more : Said}

/-- Whether a step of the reader notes what is said, and which option it leaves without its
value. -/
structure Notes (s : State) (said : Said) (lacks : Option Target) (s' : State) : Prop where
  readable : said.Readable
  flush : ∃ s₀, s.flush = .ok s₀ ∧ s'.settings = s₀.settings ++ said.settings
  pending : s'.pending = lacks.map (·, none)
  plain : s'.plain = s.plain
  given : s'.given = s.given

theorem settle_eq_ok {name : String} {r : Except Usage Value} (h : s.settle name r = .ok s') :
    ∃ value, r = .ok value ∧
      s' = { s with settings := s.settings ++ [(name, ⟨.words, value⟩)] } := by
  simp only [State.settle] at h
  split at h
  · cases h
  · cases r with
    | error e => cases h
    | ok value => exact ⟨value, rfl, (Except.ok.inj h).symm⟩

/-- What settles leaves the words and arguments as they are. -/
theorem flush_eq_ok (h : s.flush = .ok s₀) :
    s₀.pending = none ∧ s₀.plain = s.plain ∧ s₀.given = s.given := by
  simp only [State.flush] at h
  split at h
  · rename_i hp
    cases h
    exact ⟨hp, rfl, rfl⟩
  · cases h
  · obtain ⟨value, -, rfl⟩ := settle_eq_ok h
    exact ⟨rfl, rfl, rfl⟩

theorem flush_of_none (h : s.pending = none) : s.flush = .ok s := by
  simp only [State.flush, h]

/-- An option that is taken is noted, or waits for its value. -/
theorem take_notes {flag : Flag} {value? : Option String} (h : s.take flag value? = .ok s') :
    (flag.effect = .switch ∧ Notes s [(flag.name, .on)] none s') ∨
      ∃ form, flag.effect = .value form ∧
        ((∃ text, value? = some text ∧ Notes s [(flag.name, .option form text)] none s') ∨
          value? = none ∧ Notes s [] (some ⟨flag.name, form⟩) s') := by
  obtain ⟨s₀, hflush, h⟩ := bind_eq_ok h
  obtain ⟨hpending, hplain, hgiven⟩ := flush_eq_ok hflush
  -- What is noted is noted behind what has settled before.
  have hsettled (term : Term) (h : s₀.settle flag.name term.read = .ok s') :
      Notes s [(flag.name, term)] none s' := by
    obtain ⟨value, hread, rfl⟩ := settle_eq_ok h
    exact ⟨Said.readable_single hread, ⟨s₀, hflush, by rw [Said.settings_single hread]⟩,
      hpending, hplain, hgiven⟩
  cases he : flag.effect with
  | help | version =>
    simp only [he] at h
    cases h
  | switch =>
    simp only [he] at h
    exact Or.inl ⟨rfl, hsettled .on h⟩
  | value form =>
    refine Or.inr ⟨form, rfl, ?_⟩
    simp only [he] at h
    cases value? with
    | some text => exact Or.inl ⟨text, rfl, hsettled (.option form text) h⟩
    | none =>
      cases h
      refine Or.inr ⟨rfl, List.forall_mem_nil _, ⟨s₀, hflush, ?_⟩, rfl, hplain, hgiven⟩
      simp [Said.settings]

/-- An option with a value takes the one that it is given, or waits for it. -/
theorem take_value {flag : Flag} {form : Form} (he : flag.effect = .value form)
    {value? : Option String} (h : s.take flag value? = .ok s') :
    match value? with
    | some text => Notes s [(flag.name, .option form text)] none s'
    | none => Notes s [] (some ⟨flag.name, form⟩) s' := by
  rcases take_notes h with ⟨hswitch, -⟩ | ⟨form', hvalue, hnotes⟩
  · simp [he] at hswitch
  · obtain rfl : form = form' := by simpa [he] using hvalue
    rcases hnotes with ⟨text, rfl, hnotes⟩ | ⟨rfl, hnotes⟩
    · exact hnotes
    · exact hnotes

/-- What is noted in two steps. -/
theorem Notes.trans {s₁ s₂ : State} {lacks : Option Target} (h : Notes s said none s₁)
    (h' : Notes s₁ more lacks s₂) : Notes s (said ++ more) lacks s₂ := by
  obtain ⟨s₀, hflush, hsettings⟩ := h.flush
  obtain ⟨s₀', hflush', hsettings'⟩ := h'.flush
  rw [flush_of_none (by simpa using h.pending)] at hflush'
  cases hflush'
  refine ⟨Said.readable_append h.readable h'.readable, ⟨s₀, hflush, ?_⟩, h'.pending,
    h'.plain.trans h.plain, h'.given.trans h.given⟩
  rw [hsettings', hsettings, Said.settings_append, List.append_assoc]

/-- Letters that are taken are spelled as letters. -/
theorem takeShort_notes {letters : List Char} (h : State.takeShort v letters s = .ok s') :
    (letters = [] ∧ s' = s) ∨
      ∃ said lacks, Letters v letters said lacks ∧ Notes s said lacks s' := by
  induction letters generalizing s with
  | nil =>
    cases h
    exact Or.inl ⟨rfl, rfl⟩
  | cons c rest ih =>
    right
    rw [State.takeShort.eq_def] at h
    cases hf : v.short? c with
    | none =>
      simp only [hf] at h
      cases h
    | some flag =>
      simp only [hf] at h
      cases he : flag.effect with
      | value form =>
        simp only [he] at h
        split at h
        · have hnotes := take_value he h
          exact ⟨[], some _, .lacks hf he, hnotes⟩
        · exact ⟨_, none, .equals hf he, take_value he h⟩
        · rename_i hnil hequals
          refine ⟨_, none, .value hf he hnil ?_, take_value he h⟩
          intro hhead
          obtain ⟨tail, htail⟩ := List.head?_eq_some_iff.mp hhead
          exact hequals tail htail
      | help | version | switch =>
        simp only [he] at h
        obtain ⟨s₁, htake, h⟩ := bind_eq_ok h
        rcases take_notes htake with ⟨hswitch, hnotes⟩ | ⟨form, hvalue, -⟩
        · rcases ih h with ⟨rfl, rfl⟩ | ⟨said, lacks, hletters, hmore⟩
          · exact ⟨_, none, .switch hf hswitch .nil, hnotes⟩
          · exact ⟨_, lacks, .switch hf hswitch hletters, hnotes.trans hmore⟩
        · simp [he] at hvalue

/-- A word with two dashes that is taken is spelled as one. -/
theorem takeLong_notes {letters : List Char} (h : s.takeLong v letters = .ok s') :
    ∃ said lacks, Begins v (.ofList ('-' :: '-' :: letters)) said lacks ∧ Notes s said lacks s' := by
  simp only [State.takeLong] at h
  have hsplit := List.takeWhile_append_dropWhile (p := (· ≠ '=')) (l := letters)
  have hname : '=' ∉ letters.takeWhile (· ≠ '=') := fun hmem => by
    simpa using List.mem_takeWhile_imp hmem
  have hstart := List.head?_dropWhile_not (· ≠ '=') letters
  generalize letters.takeWhile (· ≠ '=') = name at h hsplit hname
  generalize letters.dropWhile (· ≠ '=') = rest at h hsplit hstart
  cases hf : v.long? (String.ofList name) with
  | none =>
    simp only [hf] at h
    cases h
  | some flag =>
    simp only [hf] at h
    cases rest with
    | nil =>
      obtain rfl : name = letters := by simpa using hsplit
      have hword : String.ofList ('-' :: '-' :: name) = "--" ++ String.ofList name := by
        simp [← String.toList_inj]
      rw [hword]
      cases he : flag.effect with
      | value form =>
        simp only [he] at h
        exact ⟨_, _, .lacks hf he, take_value he h⟩
      | help | version | switch =>
        simp only [he] at h
        rcases take_notes h with ⟨hswitch, hnotes⟩ | ⟨form, hvalue, -⟩
        · exact ⟨_, _, .switch hf hswitch, hnotes⟩
        · simp [he] at hvalue
    | cons c text =>
      obtain rfl : c = '=' := by simpa using hstart
      have hword : String.ofList ('-' :: '-' :: letters) =
          "--" ++ String.ofList name ++ "=" ++ String.ofList text := by
        rw [← hsplit]
        simp [← String.toList_inj]
      rw [hword]
      cases he : flag.effect with
      | value form =>
        simp only [he] at h
        exact ⟨_, _, .joined hf he (by simpa using hname) _, take_value he h⟩
      | help | version | switch =>
        simp only [he] at h
        cases h

/-- What the reader makes of a word that does not wait for it and is no name of a command. -/
inductive Takes (v : Verb) (s : State) (word : String) : State → Prop
  | plain (hs : s.plain = false) (hw : word = "--") : Takes v s word { s with plain := true }
  | phrase {s' : State} (said : Said) (lacks : Option Target) (hs : s.plain = false)
      (hp : Begins v word said lacks) (hn : Notes s said lacks s') : Takes v s word s'
  | argument {s₀ : State} (a : Argument) (ha : v.arguments[s.given]? = some a)
      (hw : s.plain = false → LooksPlain word) (hf : s.flush = .ok s₀) :
      Takes v s word
        { s₀ with pending := some (⟨a.name, a.form⟩, some word), given := s.given + 1 }

theorem takeArgument_takes (hw : s.plain = false → LooksPlain word)
    (h : s.takeArgument v word = .ok s') : Takes v s word s' := by
  simp only [State.takeArgument] at h
  split at h
  · cases h
  · rename_i a ha
    obtain ⟨s₀, hflush, h⟩ := bind_eq_ok h
    cases h
    rw [(flush_eq_ok hflush).2.2]
    exact .argument a ha hw hflush

theorem takeWord_takes (hwaits : s.waits = false) (h : s.takeWord v word = .ok s') :
    Takes v s word s' := by
  rw [State.takeWord] at h
  cases hp : s.plain with
  | true =>
    rw [if_pos hp] at h
    exact takeArgument_takes (by simp [hp]) h
  | false =>
    rw [if_neg (by simp [hp])] at h
    have hword : word = .ofList word.toList := String.ofList_toList.symm
    split at h
    · rename_i hl
      cases h
      exact .plain hp (by rw [hword, hl])
    · rename_i rest hne hl
      rw [hl] at hword
      obtain ⟨said, lacks, hbegins, hnotes⟩ := takeLong_notes h
      exact .phrase said lacks hp (hword ▸ hbegins) hnotes
    · rename_i c rest _ hc hl
      rw [hl] at hword
      rcases takeShort_notes h with ⟨hnil, -⟩ | ⟨said, lacks, hletters, hnotes⟩
      · cases hnil
      · exact .phrase said lacks hp (hword ▸ .letters hc hletters) hnotes
    · rename_i hne₁ hne₂ hne₃
      split at h
      · rename_i target htarget
        simp [State.waits, htarget] at hwaits
      · exact takeArgument_takes (fun _ c rest hl => hne₃ c rest hl) h

variable {words : List String} {levels : List Level}

/-- A value that is missing when it should settle. -/
theorem flush_of_lacking {target : Target} (hp : s.pending = some (target, none)) :
    s.flush = .error .invalidValue := by
  simp only [State.flush, hp]

theorem not_notes_of_lacking {target : Target} {lacks : Option Target}
    (hp : s.pending = some (target, none)) : ¬ Notes s said lacks s' := by
  intro hn
  obtain ⟨s₀, hflush, -⟩ := hn.flush
  rw [flush_of_lacking hp] at hflush
  cases hflush

theorem not_takes_of_lacking {target : Target} (hp : s.pending = some (target, none))
    (hplain : s.plain = true) (h : s.takeWord v word = .ok s') : False := by
  rw [State.takeWord, if_pos hplain, State.takeArgument] at h
  split at h
  · cases h
  · obtain ⟨s₀, hflush, -⟩ := bind_eq_ok h
    rw [flush_of_lacking hp] at hflush
    cases hflush

theorem not_readLevels_of_lacking {target : Target} (hp : s.pending = some (target, none))
    (hplain : s.plain = true) : readLevels host v s words ≠ .ok levels := by
  intro h
  cases words with
  | nil =>
    obtain ⟨settings, hfinish, -⟩ := bind_eq_ok h
    obtain ⟨s₀, hflush, -⟩ := bind_eq_ok hfinish
    rw [flush_of_lacking hp] at hflush
    cases hflush
  | cons word words =>
    rw [readLevels, if_pos (by simp [hplain])] at h
    obtain ⟨s', htake, -⟩ := bind_eq_ok h
    exact not_takes_of_lacking hp hplain htake

/-- The word behind an option that lacks its value is that value. -/
theorem readLevels_of_lacking {target : Target} (hp : s.pending = some (target, none))
    (h : readLevels host v s words = .ok levels) :
    ∃ text rest, words = text :: rest ∧ LooksPlain text ∧
      readLevels host v { s with pending := some (target, some text) } rest = .ok levels := by
  have hplain : s.plain = false := by
    by_contra hplain
    exact not_readLevels_of_lacking hp (by simpa using hplain) h
  cases words with
  | nil =>
    obtain ⟨settings, hfinish, -⟩ := bind_eq_ok h
    obtain ⟨s₀, hflush, -⟩ := bind_eq_ok hfinish
    rw [flush_of_lacking hp] at hflush
    cases hflush
  | cons text rest =>
    have hwaits : s.waits = true := by simp only [State.waits, hp]
    rw [readLevels, if_pos (by simp [hwaits])] at h
    obtain ⟨s', htake, h⟩ := bind_eq_ok h
    rw [State.takeWord, if_neg (by simp [hplain])] at htake
    split at htake
    · cases htake
      exact absurd h (not_readLevels_of_lacking hp rfl)
    · obtain ⟨said, lacks, -, hnotes⟩ := takeLong_notes htake
      exact absurd hnotes (not_notes_of_lacking hp)
    · rcases takeShort_notes htake with ⟨hnil, -⟩ | ⟨said, lacks, -, hnotes⟩
      · cases hnil
      · exact absurd hnotes (not_notes_of_lacking hp)
    · rename_i _ _ hl
      simp only [hp] at htake
      cases htake
      exact ⟨text, rest, rfl, fun c rest hc => hl c rest hc, h⟩

/-- Whether a level ends as it does when these settings have come from its words. -/
structure Ends (host : Host) (v : Verb) (settings : Settings) (level : Level) : Prop where
  verb : level.verb = v.name
  finish : ∃ (s : State) (below : Bool), s.pending = none ∧ s.settings = settings ∧
    s.finish host v below = .ok level.settings

/-- Whether a level is what the reader makes of what is said to a command. -/
structure Yields (host : Host) (spoken : Spoken) (level : Level) : Prop where
  readable : spoken.said.Readable
  ends : Ends host spoken.verb spoken.said.settings level

theorem finish_of_flush (h : s.flush = .ok s₀) (below : Bool) :
    s₀.finish host v below = s.finish host v below := by
  simp only [State.finish, h, flush_of_none (flush_eq_ok h).1]

/-- Whether levels are what the reader makes of words that are spelled so, when it goes on from a
state. -/
structure Reads (host : Host) (v : Verb) (s : State) (words : List String) (levels : List Level)
    (said : Said) (lower : List Spoken) : Prop where
  spells : Spells v s.plain s.given words said lower
  readable : said.Readable
  top : ∃ s₀ top below, s.flush = .ok s₀ ∧ levels = top :: below ∧
    Ends host v (s₀.settings ++ said.settings) top ∧
    List.Forall₂ (Yields host) lower below

/-- A text that waits to settle has a value, if the reader goes on. -/
theorem flush_of_text {target : Target} {text : String} (term : Term)
    (ht : term.read = target.form.read text)
    (h : { s with pending := some (target, some text) }.flush = .ok s₀) :
    Said.Readable [(target.name, term)] ∧
      s₀.settings = s.settings ++ Said.settings [(target.name, term)] := by
  obtain ⟨value, hread, rfl⟩ := settle_eq_ok h
  have hterm := ht.trans hread
  exact ⟨Said.readable_single hterm, by rw [Said.settings_single hterm]⟩

/-- The end of the options changes nothing that has been noted. -/
theorem flush_of_plain (h : { s with plain := true }.flush = .ok s₀) :
    ∃ s₁, s.flush = .ok s₁ ∧ s₁.settings = s₀.settings := by
  simp only [State.flush] at h ⊢
  split at h
  · cases h
    exact ⟨s, rfl, rfl⟩
  · cases h
  · obtain ⟨value, hread, rfl⟩ := settle_eq_ok h
    simp only [State.settle] at h ⊢
    split at h
    · cases h
    · rename_i hnew
      rw [if_neg hnew, hread]
      exact ⟨_, rfl, rfl⟩

/-- What is read behind some words is read with them. -/
theorem Reads.behind {rest : List String} {lower : List Spoken}
    (h : Reads host v s' rest levels more lower) (said : Said) (hflush : s.flush = .ok s₀)
    (hsaid : ∀ s₀', s'.flush = .ok s₀' →
      said.Readable ∧ s₀'.settings = s₀.settings ++ said.settings)
    (hspells : Spells v s'.plain s'.given rest more lower →
      Spells v s.plain s.given words (said ++ more) lower) :
    Reads host v s words levels (said ++ more) lower := by
  obtain ⟨s₀', top, below, hflush', hlevels, htop, hbelow⟩ := h.top
  obtain ⟨hreadable, hsettings⟩ := hsaid s₀' hflush'
  refine ⟨hspells h.spells, Said.readable_append hreadable h.readable,
    s₀, top, below, hflush, hlevels, ?_, hbelow⟩
  rwa [Said.settings_append, ← List.append_assoc, ← hsettings]

/-- Whether words are spelled in a reading of them, if there are no more than so many. -/
def ReadsUpTo (host : Host) (v : Verb) (levels : List Level) (length : Nat) : Prop :=
  ∀ (s : State) (rest : List String), rest.length ≤ length → s.waits = false →
    readLevels host v s rest = .ok levels → ∃ said lower, Reads host v s rest levels said lower

/-- What is read behind a word that begins as an option is read with the word. -/
theorem Begins.reads {lacks : Option Target} (h : Begins v word said lacks)
    (hn : Notes s said lacks s') (hs : s.plain = false)
    (hread : readLevels host v s' words = .ok levels)
    (ih : ReadsUpTo host v levels words.length) :
    ∃ said lower, Reads host v s (word :: words) levels said lower := by
  obtain ⟨s₀, hflush, hsettings⟩ := hn.flush
  cases lacks with
  | none =>
    obtain ⟨more, lower, hreads⟩ :=
      ih s' words (Nat.le_refl _) (by simp [State.waits, hn.pending]) hread
    refine ⟨said ++ more, lower, hreads.behind _ hflush ?_ ?_⟩
    · intro s₁ hs₁
      rw [flush_of_none hn.pending] at hs₁
      cases hs₁
      exact ⟨hn.readable, hsettings⟩
    · intro hspells
      rw [hn.plain, hn.given, hs] at hspells
      rw [hs]
      exact .phrase (.alone h) hspells
  | some target =>
    obtain ⟨text, rest, rfl, htext, hread⟩ := readLevels_of_lacking hn.pending hread
    obtain ⟨more, lower, hreads⟩ := ih _ rest (Nat.le_succ _) rfl hread
    refine ⟨_, lower, hreads.behind (said ++ [(target.name, .option target.form text)]) hflush
      ?_ ?_⟩
    · intro s₁ hs₁
      obtain ⟨hreadable, hsettled⟩ := flush_of_text (.option target.form text) rfl hs₁
      refine ⟨Said.readable_append hn.readable hreadable, ?_⟩
      rw [hsettled, hsettings, Said.settings_append, List.append_assoc]
    · intro hspells
      have hspells : Spells v s'.plain s'.given rest more lower := hspells
      rw [hn.plain, hn.given, hs] at hspells
      rw [hs]
      exact .phrase (.spaced h htext) hspells

/-- What is read behind a word is read with the word. -/
theorem Takes.reads (h : Takes v s word s') (hwaits : s.waits = false)
    (hverb : s.plain = false → v.verb? word = none)
    (hread : readLevels host v s' words = .ok levels)
    (ih : ReadsUpTo host v levels words.length) :
    ∃ said lower, Reads host v s (word :: words) levels said lower := by
  cases h with
  | plain hs hw =>
    obtain ⟨more, lower, hreads⟩ := ih { s with plain := true } words (Nat.le_refl _) hwaits hread
    obtain ⟨s₀', _, _, hflush', -⟩ := hreads.top
    obtain ⟨s₀, hflush, hsettings⟩ := flush_of_plain hflush'
    refine ⟨[] ++ more, lower, hreads.behind _ hflush ?_ ?_⟩
    · intro s₁ hs₁
      rw [hflush'] at hs₁
      cases hs₁
      exact ⟨List.forall_mem_nil _, by simp [hsettings, Said.settings]⟩
    · intro hspells
      rw [hs, hw]
      exact .plain hspells
  | phrase said lacks hs hp hn => exact hp.reads hn hs hread ih
  | @argument s₀ a ha hw hf =>
    obtain ⟨more, lower, hreads⟩ := ih _ words (Nat.le_refl _) rfl hread
    refine ⟨[(a.name, .argument a.form word)] ++ more, lower, hreads.behind _ hf ?_ ?_⟩
    · intro s₁ hs₁
      exact flush_of_text (s := { s₀ with given := s.given + 1 }) (.argument a.form word) rfl hs₁
    · intro hspells
      have hspells : Spells v s₀.plain (s.given + 1) words more lower := hspells
      rw [(flush_eq_ok hf).2.1] at hspells
      exact .argument ha (fun hs => ⟨hw hs, hverb hs⟩) hspells

/-- Whatever the reader accepts is spelled. The induction is on the number of the words, because an
option without its value takes two of them. -/
theorem reads_of_readLevels (hwaits : s.waits = false)
    (h : readLevels host v s words = .ok levels) :
    ∃ said lower, Reads host v s words levels said lower := by
  induction hn : words.length using Nat.strong_induction_on generalizing v s words levels with
  | _ n ih =>
    cases words with
    | nil =>
      obtain ⟨settings, hfinish, h⟩ := bind_eq_ok h
      cases h
      obtain ⟨s₀, hflush, -⟩ := bind_eq_ok hfinish
      refine ⟨[], [], .done, List.forall_mem_nil _, s₀, _, [], hflush, rfl, ⟨rfl, s₀, false, ?_⟩,
        .nil⟩
      refine ⟨(flush_eq_ok hflush).1, by simp [Said.settings], ?_⟩
      rw [finish_of_flush hflush, hfinish]
    | cons word words =>
      have hshorter : ReadsUpTo host v levels words.length := fun s' rest hr hw h' =>
        ih rest.length (by simp only [List.length_cons] at hn; omega) hw h' rfl
      rw [readLevels, hwaits, Bool.or_false] at h
      split at h
      · rename_i hplain
        obtain ⟨s', htake, h⟩ := bind_eq_ok h
        exact (takeWord_takes hwaits htake).reads hwaits (by simp [hplain]) h hshorter
      · split at h
        · rename_i hplain _ w hverb
          obtain ⟨lower, hlower, h⟩ := bind_eq_ok h
          obtain ⟨settings, hfinish, h⟩ := bind_eq_ok h
          cases h
          obtain ⟨s₀, hflush, -⟩ := bind_eq_ok hfinish
          obtain ⟨said, spoken, hspells, hreadable, s₁, top, below, hs₁, rfl, htop, hbelow⟩ :=
            ih words.length (by simp only [List.length_cons] at hn; omega) rfl hlower rfl
          cases hs₁
          refine ⟨[], ⟨w.inherit v.flags, said⟩ :: spoken, ?_, List.forall_mem_nil _, s₀, _, _,
            hflush, rfl, ⟨rfl, s₀, true, (flush_eq_ok hflush).1, by simp [Said.settings], ?_⟩,
            .cons ⟨hreadable, htop⟩ hbelow⟩
          · rw [Bool.not_eq_true] at hplain
            rw [hplain]
            exact .verb hverb hspells
          · rw [finish_of_flush hflush, hfinish]
        · rename_i hplain _ hverb
          split at h
          · cases h
          · obtain ⟨s', htake, h⟩ := bind_eq_ok h
            exact (takeWord_takes hwaits htake).reads hwaits (fun _ => hverb) h hshorter

end Gallows.CommandLine
