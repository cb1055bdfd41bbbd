import Gallows.Settings.Basic
import Gallows.Settings.Error
import Gallows.Toml.Quoted

/-!
Writing settings as a file. A password that stands in the settings is not shown; a reference to
one is.
-/
namespace Gallows.Settings

/-- What is shown in place of a password. -/
def mask : String := "********"

/-- Settings fit to be shown. -/
def masked (settings : Settings) : Settings :=
  { settings with
    player.password := settings.player.password.map fun p =>
      if Secret.isReference p then p else mask }

/-- A time, if it fits into the integers of a settings file. -/
def writeTime (time : UInt64) : Except Error String :=
  if time.toNat < 0x8000000000000000 then .ok (toString time.toNat) else .error .unwritable

/-- A line of a settings file. -/
def line (key value : String) : String := key ++ " = " ++ value ++ "\n"

/-- A flag. -/
def writeFlag (value : Bool) : String := if value then "true" else "false"

/-- The server's section. -/
def Server.write (s : Server) : Except Error String := do
  let connectTimeout ← writeTime s.connectTimeout
  let readTimeout ← writeTime s.readTimeout
  let requestTimeout ← writeTime s.requestTimeout
  let pollInterval ← writeTime s.pollInterval
  return "[server]\n" ++ line "address" (Toml.quote s.address) ++
    line "game_port" (toString s.gamePort.toNat) ++
    line "notification_port" (toString s.notificationPort.toNat) ++
    line "connect_timeout_secs" connectTimeout ++ line "read_timeout_ms" readTimeout ++
    line "request_timeout_secs" requestTimeout ++ line "poll_interval_ms" pollInterval ++
    line "subscribe_on_connect" (writeFlag s.subscribe)

/-- The player's section. What is not set is left out. -/
def Player.write (p : Player) : String :=
  "[player]\n" ++ ((p.username.map fun v => line "username" (Toml.quote v)).getD "") ++
    ((p.password.map fun v => line "password" (Toml.quote v)).getD "")

/-- The settings as a file. -/
def write (settings : Settings) : Except Error String := do
  return (← settings.server.write) ++ "\n" ++ settings.player.write

/-- The settings as a file that may be shown. -/
def render (settings : Settings) : Except Error String := settings.masked.write

end Gallows.Settings
