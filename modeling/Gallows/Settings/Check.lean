import Gallows.Settings.Basic
import Gallows.Settings.Error
import Gallows.Text.Blank

/-!
Settings that can be read but cannot work.
-/
namespace Gallows.Settings

/-- The password to play with; `none` if there is none. -/
def Player.resolvePassword (host : Host) (player : Player) : Except Error (Option String) :=
  match player.password with
  | none => .ok none
  | some setting =>
    match Secret.resolve host setting with
    | .ok password => .ok (some password)
    | .error e => .error (.password e)

/-- Refuses an address, ports or times that cannot work. -/
def Server.check (server : Server) : Except Error Unit :=
  if Text.isBlankText server.address then .error .emptyAddress
  else if server.gamePort = 0 || server.notificationPort = 0 then .error .zeroPort
  else if server.gamePort = server.notificationPort then .error .equalPorts
  else if server.readTimeout = 0 then .error .zeroReadTimeout
  else .ok ()

/-- Refuses a name without any visible character, and a password that is not where it should
be. -/
def Player.check (host : Host) (player : Player) : Except Error Unit :=
  if player.username.any Text.isBlankText then .error .blankUsername
  else
    match player.resolvePassword host with
    | .ok _ => .ok ()
    | .error e => .error e

/-- Refuses settings that cannot work. -/
def check (host : Host) (settings : Settings) : Except Error Unit := do
  settings.server.check
  settings.player.check host

end Gallows.Settings
