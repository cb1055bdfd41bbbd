import Gallows.Program
import Gallows.Proofs.Invocation.Sources
import Gallows.Proofs.Settings.Writable

/-!
Showing the settings of a run. Whatever file they come from, they can be shown, unless the command
line asks for a longer time to connect than a file can hold.
-/
namespace Gallows.Invocation

open CommandLine

variable {host : Host} {words : List String} {lower : List Spoken} {said : Said} {i : Invocation}
  {file : Settings}

/-- The time to connect that a line asks for. -/
def asked? (line : List Spoken) : Option Nat :=
  (given? line "timeout").bind (wholeNumber? 0x10000000000000000)

theorem wholeNumber?_lt {text : String} {n : Nat}
    (h : wholeNumber? 0x10000000000000000 text = some n) : n < 0x10000000000000000 := by
  simp only [wholeNumber?, Form.read] at h
  split at h
  · rename_i hread
    split at hread
    · split at hread
      · cases h
        cases hread
        assumption
      · cases hread
    · split at hread
      · cases h
        cases hread
        decide
      · cases hread
  · cases h

/-- The time to connect can be written, unless it is the one that is asked for and too great. -/
theorem timeFits_iff (hsources : Sources host (⟨program, said⟩ :: lower) i file (i.apply file))
    (hfile : Settings.TimeFits file.server.connectTimeout) :
    Settings.TimeFits (i.apply file).server.connectTimeout ↔
      ∀ n, asked? (⟨program, said⟩ :: lower) = some n → n < Settings.timeLimit := by
  have htime := hsources.connectTimeout
  rw [source?, Option.bind_none, Option.or_none] at htime
  rw [asked?]
  generalize given? (⟨program, said⟩ :: lower) "timeout" = source at htime ⊢
  generalize (i.apply file).server.connectTimeout = time at htime ⊢
  cases htime with
  | @source text _ _ hread =>
    obtain ⟨n, hn, rfl⟩ := Option.map_eq_some_iff.mp hread
    have hvalue : n.toUInt64.toNat = n := by
      have hlt := wholeNumber?_lt hn
      rw [Nat.toUInt64, UInt64.toNat_ofNat']
      exact Nat.mod_eq_of_lt hlt
    simp [Settings.TimeFits, hvalue, hn]
  | fallback => simp [hfile]

/-- For every settings file that loads and every command line that is accepted, the settings of the
run can be shown if no time to connect is asked for that a settings file cannot hold; otherwise
showing them ends behind the title in an error. -/
theorem dump_shows (h : read host words = .ok i) (hfile : Settings.load host i.config = .ok file)
    (hspells : Spells program false 0 words said lower) :
    let settings := i.apply file
    let title := "# config.toml (" ++ Settings.defaultPath host ++ ")\n"
    (i.task = some (.settings .dump) → ∀ token deadline net,
      Program.run host words token deadline net = (.done (settings.dump host), net)) ∧
    ((∀ n, asked? (⟨program, said⟩ :: lower) = some n → n < Settings.timeLimit) →
      ∃ text, settings.render = .ok text ∧
        settings.dump host = { stdout := title ++ text ++ "\n" }) ∧
    ∀ n, asked? (⟨program, said⟩ :: lower) = some n → Settings.timeLimit ≤ n →
      settings.render = .error .unwritable ∧
        settings.dump host =
          { stdout := title, result := some (.error Settings.Error.unwritable.toFailure) } := by
  intro settings title
  obtain ⟨said', lower', hspells', hsources⟩ := sources h file
  obtain ⟨rfl, rfl⟩ := hspells.unique distinct hspells'
  obtain ⟨hconnect, hothers⟩ := Settings.timesFit_of_load hfile
  have hiff := timeFits_iff hsources hconnect
  refine ⟨?_, ?_, ?_⟩
  · intro htask token deadline net
    simp only [Program.run, h, hfile, htask]
    rfl
  · intro hasked
    have hsame : settings.server.FileTimesFit := ⟨hothers.1, hothers.2, hothers.3⟩
    obtain ⟨text, hrender⟩ := Settings.render_of_fits hsame (hiff.mpr hasked)
    refine ⟨text, hrender, ?_⟩
    simp only [Settings.dump, hrender, title]
  · intro n hasked hn
    have hnot : ¬ Settings.TimeFits settings.server.connectTimeout := by
      intro hfits
      exact absurd (hiff.mp hfits n hasked) (Nat.not_lt.mpr hn)
    have hrender := Settings.render_of_not_fits hnot
    refine ⟨hrender, ?_⟩
    simp only [Settings.dump, hrender, title]

/-- The greatest time that a file can hold. -/
theorem dump_shows_greatest :
    ∃ i said lower, read {} ["--timeout", "9223372036854775807", "config", "dump"] = .ok i ∧
      Settings.load {} i.config = .ok {} ∧
      Spells program false 0 ["--timeout", "9223372036854775807", "config", "dump"] said lower ∧
      asked? (⟨program, said⟩ :: lower) = some 9223372036854775807 ∧
      (∃ text, (i.apply {}).render = .ok text) ∧ ∃ shown, ∀ token deadline net,
        Program.run {} ["--timeout", "9223372036854775807", "config", "dump"] token deadline net =
          (.done { stdout := shown }, net) := by
  let i : Invocation := { timeout := some 9223372036854775807, task := some (.settings .dump) }
  have hread : read {} ["--timeout", "9223372036854775807", "config", "dump"] = .ok i :=
    toOption_eq_some.mp (by decide +kernel)
  have hfile : Settings.load {} i.config = .ok {} := toOption_eq_some.mp (by decide +kernel)
  obtain ⟨flag, hf, he, hn⟩ : ∃ flag, program.long? "timeout" = some flag ∧
      flag.effect = .value (.number 0x10000000000000000) ∧ flag.name = "timeout" :=
    ⟨_, rfl, rfl, rfl⟩
  obtain ⟨config, hconfig, dump, hdump⟩ : ∃ config, program.verb? "config" = some config ∧
      ∃ dump, (config.inherit program.flags).verb? "dump" = some dump := ⟨_, rfl, _, rfl⟩
  have hoption : Phrase program ["--timeout", "9223372036854775807"]
      [("timeout", .option (.number 0x10000000000000000) "9223372036854775807")] :=
    hn ▸ .spaced (.lacks hf he) (by simp [LooksPlain])
  obtain ⟨said, lower, hspells, hasked⟩ : ∃ said lower,
      Spells program false 0 ["--timeout", "9223372036854775807", "config", "dump"] said lower ∧
      asked? (⟨program, said⟩ :: lower) = some 9223372036854775807 :=
    ⟨_, _, .phrase hoption (.verb hconfig (.verb hdump .done)), rfl⟩
  obtain ⟨hrun, hshows, -⟩ := dump_shows hread hfile hspells
  obtain ⟨text, hrender, hdumped⟩ := hshows (by rw [hasked]; rintro n ⟨⟩; decide)
  exact ⟨i, said, lower, hread, hfile, hspells, hasked, ⟨text, hrender⟩, _, fun token deadline net =>
    (hrun rfl token deadline net).trans (by rw [hdumped])⟩

/-- A time to connect that is accepted, and checked, but cannot be shown. -/
theorem timeout_outgrows_dump :
    ∃ i, read {} ["--timeout", "9223372036854775808", "config", "dump"] = .ok i ∧
      Settings.load {} i.config = .ok {} ∧ (i.apply {}).check {} = .ok () ∧
      (i.apply {}).render = .error .unwritable ∧
      ∀ token deadline net,
        (Program.run {} ["--timeout", "9223372036854775808", "config", "dump"] token deadline
          net).1 = .done
            { stdout := "# config.toml (./hangman/config.toml)\n"
              result := some (.error (.settings
                "failed to serialize config: out-of-range value for u64 type")) } := by
  let i : Invocation := { timeout := some 9223372036854775808, task := some (.settings .dump) }
  have hread : read {} ["--timeout", "9223372036854775808", "config", "dump"] = .ok i :=
    toOption_eq_some.mp (by decide +kernel)
  have hfile : Settings.load {} i.config = .ok {} := toOption_eq_some.mp (by decide +kernel)
  have hrender : (i.apply {}).render = .error .unwritable :=
    Settings.render_of_not_fits (by decide)
  refine ⟨i, hread, hfile, toOption_eq_some.mp (by decide +kernel), hrender, ?_⟩
  intro token deadline net
  have hpath : Settings.defaultPath {} = "./hangman/config.toml" := by decide
  simp only [Program.run, hread, hfile, i, SettingsAction.run, Settings.dump]
  simp only [i] at hrender
  rw [hrender, hpath]
  rfl

end Gallows.Invocation
