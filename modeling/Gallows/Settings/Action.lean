import Gallows.Invocation
import Gallows.Report
import Gallows.Settings.Check
import Gallows.Settings.Reader
import Gallows.Settings.Writer

/-!
The commands that show or check the settings.
-/
namespace Gallows

namespace Settings

/-- Shows the settings as a file. -/
def dump (host : Host) (settings : Settings) : Report :=
  let title := "# config.toml (" ++ defaultPath host ++ ")\n"
  match settings.render with
  | .ok text => { stdout := title ++ text ++ "\n" }
  | .error e => { stdout := title, result := some (.error e.toFailure) }

/-- Checks the settings. -/
def validate (host : Host) (settings : Settings) : Report :=
  match settings.check host with
  | .error e => .failure e.toFailure
  | .ok () =>
    let advice :=
      if settings.player.username.isNone then
        "No [player] username set; pass --username to play.\n"
      else ""
    { stdout := advice ++ "Configuration is valid.\n" }

/-- Shows which file the settings come from: the one that is named, or the default one. -/
def showPath (host : Host) (path? : Option String) : Report :=
  { stdout := "config: " ++ path?.getD (defaultPath host) ++ "\n" }

end Settings

/-- Runs a command on the settings that come from the file at `path?`. -/
def SettingsAction.run (action : SettingsAction) (host : Host) (path? : Option String)
    (settings : Settings) : Report :=
  match action with
  | .dump => settings.dump host
  | .validate => settings.validate host
  | .path => Settings.showPath host path?

end Gallows
