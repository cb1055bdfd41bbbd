import Gallows.Client
import Gallows.Invocation
import Gallows.Proofs.CommandLine.Globals
import Gallows.Proofs.CommandLine.Uniqueness
import Gallows.Proofs.Settings.Layout

/-!
Where the settings of a run come from: from the options of the command line, from the environment
behind them, from the settings file, or from the defaults, for every setting in this order.
-/
namespace Gallows

theorem Feed.username_connect (f : Feed) (deadline : Nat) (net : Network) :
    (f.connect deadline net).2.1.username = f.username := by
  simp only [connect]
  split
  · rfl
  · rfl
  · split
    · split <;> rfl
    · rfl

/-- A client plays, and asks for events, under the name that it connects with. -/
theorem Client.username_of_connect {o : Options} {username : String} {deadline : Nat}
    {net net' : Network} {c : Client}
    (h : Client.connect o username deadline net = (some (.ok c), net')) :
    c.player.username = username ∧ c.feed.username = username := by
  simp only [Client.connect] at h
  split at h
  · cases h
  · cases h
  · rename_i channel net₁ hensure
    have hname := ((ofOptions o username).withGame channel).feed.username_connect deadline net₁
    split at h
    · cases h
    · cases h
    · rename_i hconnect
      cases h
      rw [hconnect] at hname
      exact ⟨rfl, hname⟩

namespace Invocation

open CommandLine

variable {host : Host} {words : List String} {line lower : List Spoken} {said : Said}
  {levels : List Level} {m : Matches} {name : String} {i : Invocation} {form : Form}
  {stand? : Option String}

/-- Every command takes the options of the program, but for the player's name. -/
theorem keeps : ∀ g ∈ flags, g.isGlobal → g.name ≠ "username" →
    everywhere (Keeps g) 3 program := by
  decide +kernel

/-- Whether a command has an argument for a name, and no option in its place. -/
structure ChecksName (v : Verb) : Prop where
  name : v.name = "check-username"
  arguments : v.arguments = [⟨"username", .text⟩]
  noOption : v.flags.filter (·.name = "username") = []
  noVerb : v.verbs.isEmpty

instance (v : Verb) : Decidable (ChecksName v) :=
  decidable_of_iff (v.name = "check-username" ∧ v.arguments = [⟨"username", .text⟩] ∧
      v.flags.filter (·.name = "username") = [] ∧ v.verbs.isEmpty)
    ⟨fun h => ⟨h.1, h.2.1, h.2.2.1, h.2.2.2⟩, fun h => ⟨h.1, h.2, h.3, h.4⟩⟩

/-- Every command takes the option for the player's name but the one that checks a name. -/
theorem keeps_username : ∀ g ∈ flags, g.name = "username" → Keeps g program ∧
    ∀ w ∈ program.verbs, ChecksName (w.inherit flags) ∨
      w.name ≠ "check-username" ∧ everywhere (Keeps g) 2 (w.inherit flags) := by
  decide +kernel

theorem ne_help : ∀ g ∈ flags, g.name ≠ "help" := by decide

theorem hears (h : Readings host program words line levels) {g : Flag} (hg : g ∈ flags)
    (hglobal : g.isGlobal) (hn : g.name ≠ "username") : Hears g line := by
  obtain ⟨said, lower, rfl, hspells⟩ := h.spells
  have hspoken := hspells.everywhere (keeps g hg hglobal hn)
  exact ⟨fun spoken hmem => by simpa using (hspoken spoken hmem).1,
    fun spoken hmem => (hspoken spoken hmem).2, ne_help g hg⟩

/-- A line is about checking a name, or every command in it takes the option for the player's
name. -/
theorem hears_username (h : Readings host program words line levels) :
    (∃ said v said', line = [⟨program, said⟩, ⟨v, said'⟩] ∧ ChecksName v ∧
        ∀ entry ∈ said', Tells v entry.1 entry.2) ∨
      line.tail.map (·.verb.name) ≠ ["check-username"] ∧
        ∀ g ∈ flags, g.name = "username" → Hears g line := by
  obtain ⟨said, lower, rfl, hspells⟩ := h.spells
  rcases hspells.lower_cases with rfl | ⟨w, hw, words', said', rest, rfl, hrest⟩
  · refine Or.inr ⟨by simp, fun g hg hn => ⟨?_, ?_, ne_help g hg⟩⟩
    · exact List.forall_mem_singleton.mpr (keeps_username g hg hn).1
    · exact List.forall_mem_singleton.mpr hspells.tells
  · obtain ⟨g₀, hg₀, hn₀⟩ : ∃ g ∈ flags, g.name = "username" := by decide
    rcases (keeps_username g₀ hg₀ hn₀).2 w hw with hchecks | ⟨hname, -⟩
    · rcases hrest.lower_cases with rfl | ⟨w', hw', -⟩
      · exact Or.inl ⟨said, _, said', rfl, hchecks, hrest.tells⟩
      · have hnone : (w.inherit program.flags).verbs = [] := List.isEmpty_iff.mp hchecks.noVerb
        simp [hnone] at hw'
    · refine Or.inr ⟨?_, fun g hg hn => ?_⟩
      · simp only [List.tail_cons, List.map_cons, ne_eq, List.cons.injEq, not_and]
        exact fun h => absurd h hname
      · rcases (keeps_username g hg hn).2 w hw with hchecks | ⟨-, hkeeps⟩
        · exact absurd hchecks.name hname
        · have hspoken := hrest.everywhere hkeeps
          refine ⟨List.forall_mem_cons.mpr ⟨(keeps_username g hg hn).1, fun spoken hmem => ?_⟩,
            List.forall_mem_cons.mpr ⟨hspells.tells, fun spoken hmem => (hspoken spoken hmem).2⟩,
            ne_help g hg⟩
          simpa using (hspoken spoken hmem).1

/-- The task that checks a name comes from the command for it. -/
theorem task?_eq_checkUsername {verbs : List String} {own : CommandLine.Settings}
    (h : task? verbs own = some (.checkUsername name)) :
    verbs = ["check-username"] ∧ text? own "username" = some name := by
  unfold task? at h
  split at h
  all_goals try cases h
  · obtain ⟨name', hown, h⟩ := Option.bind_eq_some_iff.mp h
    cases h
    exact ⟨rfl, hown⟩
  · obtain ⟨room, -, h⟩ := Option.bind_eq_some_iff.mp h
    -- No other command checks a name.
    split at h
    all_goals try cases h
    · obtain ⟨category, -, h⟩ := Option.bind_eq_some_iff.mp h
      obtain ⟨difficulty, -, h⟩ := Option.bind_eq_some_iff.mp h
      cases h
    · split at h <;> cases h

/-- Whether a line and its levels are what the reader makes of some words, and what it has read are
the settings of the levels. -/
structure Accounts (host : Host) (words : List String) (line : List Spoken) (levels : List Level)
    (m : Matches) : Prop where
  readings : Readings host program words line levels
  globals : ∀ g ∈ flags, g.isGlobal → m.globals.lookup g.name = globalSetting? levels g.name

/-- Whether the program has an option for a value of this form, which the environment may have too,
and which has no default. -/
def Offers (name : String) (form : Form) (stand? : Option String) : Prop :=
  (flags.find? (·.name = name)).map (fun g => (g.effect, g.stand?, g.default?, g.isGlobal)) =
    some (.value form, stand?, none, true)

/-- The options for values, their forms, and where the environment has them. -/
theorem offers : Offers "config" .path (some "HANGMAN_CONFIG") ∧
    Offers "address" .text (some "HANGMAN_ADDRESS") ∧
    Offers "game_port" (.number 0x10000) (some "HANGMAN_GAME_PORT") ∧
    Offers "notification_port" (.number 0x10000) (some "HANGMAN_NOTIFICATION_PORT") ∧
    Offers "timeout" (.number 0x10000000000000000) none ∧
    Offers "username" .text (some "HANGMAN_USERNAME") ∧
    Offers "password" .text (some "HANGMAN_PASSWORD") :=
  ⟨rfl, rfl, rfl, rfl, rfl, rfl, rfl⟩

/-- What there is for an option: the value of the text that it is given or of the one that the
environment has for it, or else nothing. -/
theorem Accounts.option_cases (h : Accounts host words line levels m)
    (hoffers : Offers name form stand?)
    (hhears : ∀ g ∈ flags, g.isGlobal → g.name = name → Hears g line) :
    (∃ text value origin, source? host line name stand? = some text ∧
        form.read text = .ok value ∧ m.globals.lookup name = some ⟨origin, value⟩) ∨
      source? host line name stand? = none ∧ m.globals.lookup name = none := by
  obtain ⟨g, hg, hattributes⟩ := Option.map_eq_some_iff.mp hoffers
  obtain rfl : g.name = name := by simpa using List.find?_some hg
  have hmem := List.mem_of_find?_eq_some hg
  simp only [Prod.mk.injEq] at hattributes
  obtain ⟨he, rfl, hd, hglobal⟩ := hattributes
  rw [h.globals g hmem hglobal]
  exact (hhears g hmem hglobal rfl).option_cases h.readings he hd

/-- The text of an option is the one that it is given, or that the environment has for it. -/
theorem Accounts.text?_eq (h : Accounts host words line levels m)
    (hoffers : Offers name form stand?) (hform : form = .text ∨ form = .path)
    (hhears : ∀ g ∈ flags, g.isGlobal → g.name = name → Hears g line) :
    text? m.globals name = source? host line name stand? := by
  rcases h.option_cases hoffers hhears with
    ⟨text, value, origin, hsource, hread, hlookup⟩ | ⟨hsource, hlookup⟩
  · have hvalue : value = .text text := by
      rcases hform with rfl | rfl
      · exact (Except.ok.inj hread).symm
      · simp only [Form.read] at hread
        split at hread
        · cases hread
        · exact (Except.ok.inj hread).symm
    rw [text?, hlookup, hsource, hvalue]
  · rw [text?, hlookup, hsource]

/-- The whole number below a bound that a text spells. -/
def wholeNumber? (bound : Nat) (text : String) : Option Nat :=
  match (Form.number bound).read text with
  | .ok (.number n) => some n
  | _ => none

/-- A number that an option may give is the one that its text spells. -/
theorem Accounts.settled_number (h : Accounts host words line levels m) {bound : Nat}
    (hoffers : Offers name (.number bound) stand?)
    (hhears : ∀ g ∈ flags, g.isGlobal → g.name = name → Hears g line) {α : Type} (ofNat : Nat → α)
    (fallback : α) :
    Settled (wholeNumber? bound · |>.map ofNat) (source? host line name stand?) fallback
      (((number? m.globals name).map ofNat).getD fallback) := by
  rcases h.option_cases hoffers hhears with
    ⟨text, value, origin, hsource, hread, hlookup⟩ | ⟨hsource, hlookup⟩
  · obtain ⟨n, rfl⟩ : ∃ n, value = .number n := by
      simp only [Form.read] at hread
      split at hread <;> split_ifs at hread <;> exact ⟨_, (Except.ok.inj hread).symm⟩
    rw [number?, hlookup, hsource]
    exact .source (by simp [wholeNumber?, hread])
  · rw [number?, hlookup, hsource]
    exact .fallback _

/-- A text that an option may give is settled by what there is for it. -/
theorem settled_text (source? : Option String) (fallback : String) :
    Settled some source? fallback (source?.getD fallback) := by
  cases source? with
  | none => exact .fallback _
  | some text => exact .source rfl

/-- Where the settings of a run come from. Those that have an option are what the option is given,
or what the environment has for it, and else those of the file; a switch takes the subscription
back; and the others are those of the file. Only when a name is to be checked, it is also the
player's. -/
structure Sources (host : Host) (line : List Spoken) (i : Invocation) (file s : Settings) :
    Prop where
  config : i.config = source? host line "config" (some "HANGMAN_CONFIG")
  address : Settled some (source? host line "address" (some "HANGMAN_ADDRESS"))
    file.server.address s.server.address
  gamePort : Settled (wholeNumber? 0x10000 · |>.map Nat.toUInt16)
    (source? host line "game_port" (some "HANGMAN_GAME_PORT"))
    file.server.gamePort s.server.gamePort
  notificationPort : Settled (wholeNumber? 0x10000 · |>.map Nat.toUInt16)
    (source? host line "notification_port" (some "HANGMAN_NOTIFICATION_PORT"))
    file.server.notificationPort s.server.notificationPort
  connectTimeout : Settled (wholeNumber? 0x10000000000000000 · |>.map Nat.toUInt64)
    (source? host line "timeout" none) file.server.connectTimeout s.server.connectTimeout
  subscribe : s.server.subscribe = (file.server.subscribe && !turnedOn line "no_subscribe")
  readTimeout : s.server.readTimeout = file.server.readTimeout
  requestTimeout : s.server.requestTimeout = file.server.requestTimeout
  pollInterval : s.server.pollInterval = file.server.pollInterval
  username : s.player.username =
    match i.task with
    | some (.checkUsername name) => some name
    | _ => (source? host line "username" (some "HANGMAN_USERNAME")).or file.player.username
  password : s.player.password =
    (source? host line "password" (some "HANGMAN_PASSWORD")).or file.player.password

theorem Accounts.noSubscribe (h : Accounts host words line levels m) :
    flag m.globals "no_subscribe" = turnedOn line "no_subscribe" := by
  obtain ⟨g, hg, hglobal, hn, he, hd⟩ : ∃ g ∈ flags, g.isGlobal ∧ g.name = "no_subscribe" ∧
      g.effect = .switch ∧ g.default? = some (.flag false) := by decide
  have hhears := hears h.readings hg hglobal (by simp [hn])
  obtain ⟨origin, hsetting⟩ := hhears.switch h.readings he hd
  rw [← hn, flag, h.globals g hg hglobal, hsetting]

/-- The player's name is the one that is to be checked, or else what there is for its option. -/
theorem Accounts.username (h : Accounts host words line levels m)
    (hverbs : m.verbs = line.tail.map (·.verb.name))
    (hown : m.own = (levels.getLast?.map (·.settings)).getD []) :
    text? m.globals "username" =
      match task? m.verbs m.own with
      | some (.checkUsername name) => some name
      | _ => source? host line "username" (some "HANGMAN_USERNAME") := by
  rcases hears_username h.readings with ⟨said, v, said', rfl, hchecks, htells⟩ | ⟨hne, hhears⟩
  · obtain ⟨top, level, rfl, hreadable, hends⟩ : ∃ top level, levels = [top, level] ∧
        said'.Readable ∧ Ends host v said'.settings level := by
      cases h.readings.levels with
      | @cons _ top _ _ _ hbelow =>
        cases hbelow with
        | @cons _ level _ _ hlevel hnone =>
          cases hnone
          exact ⟨top, level, rfl, hlevel.readable, hlevel.ends⟩
    obtain ⟨text, value, hread, hlookup⟩ := hends.argument hreadable htells hchecks.arguments
      hchecks.noOption (by decide)
    obtain rfl : Value.text text = value := Except.ok.inj hread
    obtain ⟨g, hg, hglobal, hn⟩ : ∃ g ∈ flags, g.isGlobal ∧ g.name = "username" := by decide
    have hset := h.globals g hg hglobal
    rw [hn] at hset
    replace hset := hset.trans (globalSetting?_of_words [top] hlookup)
    have hverb : m.verbs = ["check-username"] := by rw [hverbs, ← hchecks.name]; rfl
    have htask : task? m.verbs m.own = some (.checkUsername text) := by
      rw [hverb, hown]
      simp [task?, text?, hlookup]
    rw [htask, text?, hset]
  · obtain ⟨-, -, -, -, -, hoffers, -⟩ := offers
    have htext : text? m.globals "username" =
        source? host line "username" (some "HANGMAN_USERNAME") :=
      h.text?_eq hoffers (.inl rfl) fun g hg _ hn => hhears g hg hn
    rw [htext]
    split
    · rename_i htask
      exact absurd (hverbs ▸ (task?_eq_checkUsername htask).1) hne
    · rfl

theorem apply_player (i : Invocation) (s : Settings) :
    (i.apply s).player.username = i.username.or s.player.username ∧
      (i.apply s).player.password = i.password.or s.player.password :=
  ⟨Option.orElse_eq_or .., Option.orElse_eq_or ..⟩

/-- What a command line makes of the settings of a file. -/
theorem sources (h : read host words = .ok i) (file : Settings) :
    ∃ said lower, Spells program false 0 words said lower ∧
      Sources host (⟨program, said⟩ :: lower) i file (i.apply file) := by
  obtain ⟨m, hm, rfl⟩ : ∃ m, CommandLine.read host program words = .ok m ∧ i = ofMatches m := by
    rw [read] at h
    cases hm : CommandLine.read host program words with
    | error e => rw [hm] at h; cases h
    | ok m => rw [hm] at h; exact ⟨m, rfl, (Except.ok.inj h).symm⟩
  obtain ⟨line, levels, hreadings, hverbs, hown, hglobals⟩ := read_eq_ok hm
  obtain ⟨said, lower, hline, hspells⟩ := id hreadings.spells
  have h : Accounts host words line levels m := ⟨hreadings, hglobals⟩
  have hhears (name : String) (hne : name ≠ "username") (g : Flag) (hg : g ∈ flags)
      (hglobal : g.isGlobal) (hn : g.name = name) : Hears g line :=
    hears hreadings hg hglobal (hn ▸ hne)
  obtain ⟨hconfig, haddress, hgame, hnotification, htimeout, -, hpassword⟩ := offers
  refine ⟨said, lower, hspells, hline ▸ ?_⟩
  constructor
  case config => exact h.text?_eq hconfig (.inr rfl) (hhears _ (by decide))
  case address =>
    rw [← h.text?_eq haddress (.inl rfl) (hhears _ (by decide))]
    exact settled_text _ _
  case gamePort => exact h.settled_number hgame (hhears _ (by decide)) _ _
  case notificationPort => exact h.settled_number hnotification (hhears _ (by decide)) _ _
  case connectTimeout =>
    exact h.settled_number htimeout (hhears _ (by decide)) _ _
  case subscribe =>
    rw [← h.noSubscribe]
    rfl
  case readTimeout | requestTimeout | pollInterval => rfl
  case username =>
    have husername : (ofMatches m).username =
        match (ofMatches m).task with
        | some (.checkUsername name) => some name
        | _ => source? host line "username" (some "HANGMAN_USERNAME") := h.username hverbs hown
    rw [(apply_player _ file).1, husername]
    split <;> rfl
  case password =>
    rw [(apply_player _ file).2, ← h.text?_eq hpassword (.inl rfl) (hhears _ (by decide))]
    rfl

/-- No name of a command can be taken for an option, nor an option for another one. -/
theorem distinct : everywhere (Distinct ·) 3 program := by decide +kernel

/-- Every setting of a run comes from its own source: from what the command line says for it, or
else from the environment, or else from the settings file, or else from the defaults. The words that
are read say something, and one thing only. The player's name among the settings is the one that a
client plays with and asks for events with. -/
theorem settings_sources {file : Settings} (h : read host words = .ok i)
    (hfile : Settings.load host i.config = .ok file) :
    (∃ said lower, Spells program false 0 words said lower) ∧
    (∀ said lower, Spells program false 0 words said lower →
      Sources host (⟨program, said⟩ :: lower) i file (i.apply file)) ∧
    file.From (Settings.table? host i.config) ∧
    ∀ username, (i.apply file).player.username = some username → ∀ deadline net c net',
      Client.connect (i.apply file).server.options username deadline net = (some (.ok c), net') →
      c.player.username = username ∧ c.feed.username = username := by
  obtain ⟨said, lower, hspells, hsources⟩ := sources h file
  refine ⟨⟨said, lower, hspells⟩, ?_, Settings.from_of_load hfile, ?_⟩
  · intro said' lower' hspells'
    obtain ⟨rfl, rfl⟩ := hspells.unique distinct hspells'
    exact hsources
  · intro username _ deadline net c net' hconnect
    exact Client.username_of_connect hconnect

/-- A machine with a port in its environment, and with a settings file that names a player. -/
def bobsMachine : Host where
  env name := if name = "HANGMAN_GAME_PORT" then some "9001" else none
  entry path :=
    if path = "game.toml" then .ok (.file "[player]\nusername = \"bob\"\n".toUTF8)
    else .error .missing

theorem settings_sources_guess :
    ∃ i file, (read bobsMachine
        ["-u", "alice", "guess", "--timeout=7", "den", "e", "-c", "game.toml"] = .ok i ∧
        Settings.load bobsMachine i.config = .ok file) ∧
      (∀ said lower, Spells program false 0
          ["-u", "alice", "guess", "--timeout=7", "den", "e", "-c", "game.toml"] said lower →
        Sources bobsMachine (⟨program, said⟩ :: lower) i file (i.apply file)) ∧
      file.From (Settings.table? bobsMachine (some "game.toml")) ∧
      file.player.username = some "bob" ∧
      i.apply file = { server := { gamePort := 9001, connectTimeout := 7 },
                       player := { username := "alice" } } := by
  let i : Invocation :=
    { config := "game.toml", gamePort := some 9001, timeout := some 7, username := "alice",
      task := some (.guess "den" 'e') }
  let file : Settings := { player := { username := "bob" } }
  have hread : read bobsMachine
      ["-u", "alice", "guess", "--timeout=7", "den", "e", "-c", "game.toml"] = .ok i :=
    toOption_eq_some.mp (by decide +kernel)
  have hfile : Settings.load bobsMachine i.config = .ok file :=
    toOption_eq_some.mp (by decide +kernel)
  obtain ⟨-, hsources, hfrom, -⟩ := settings_sources hread hfile
  exact ⟨i, file, ⟨hread, hfile⟩, hsources, hfrom, rfl, rfl⟩

/-- The name that is to be checked is taken for the player's, in the place of the one that the
option is given. -/
theorem checked_name_displaces_username :
    ∃ i said lower, read {} ["--username", "alice", "check-username", "bob"] = .ok i ∧
      Spells program false 0 ["--username", "alice", "check-username", "bob"] said lower ∧
      source? {} (⟨program, said⟩ :: lower) "username" (some "HANGMAN_USERNAME") = some "alice" ∧
      (i.apply {}).player.username = some "bob" := by
  let i : Invocation := { username := "bob", task := some (.checkUsername "bob") }
  have hread : read {} ["--username", "alice", "check-username", "bob"] = .ok i :=
    toOption_eq_some.mp (by decide +kernel)
  obtain ⟨flag, hf, he, hn⟩ : ∃ flag, program.long? "username" = some flag ∧
      flag.effect = .value .text ∧ flag.name = "username" := ⟨_, rfl, rfl, rfl⟩
  obtain ⟨w, hw, ha, hnone⟩ : ∃ w, program.verb? "check-username" = some w ∧
      (w.inherit program.flags).arguments[0]? = some ⟨"username", .text⟩ ∧
      (w.inherit program.flags).verb? "bob" = none := ⟨_, rfl, rfl, rfl⟩
  have hoption : Phrase program ["--username", "alice"] [("username", .option .text "alice")] :=
    hn ▸ .spaced (.lacks hf he) (by simp [LooksPlain])
  have hargument : Spells (w.inherit program.flags) false 0 ["bob"]
      [("username", .argument .text "bob")] [] :=
    .argument ha (fun _ => ⟨by simp [LooksPlain], hnone⟩) .done
  exact ⟨i, _, _, hread, .phrase hoption (.verb hw hargument), rfl, rfl⟩

end Invocation
end Gallows
