import Gallows.Settings.Basic
import Gallows.Settings.Error
import Gallows.Toml.Reader

/-!
Reading settings from files. What a file leaves out has its default; what the settings do not know
is passed over.
-/
namespace Gallows.Settings
open Toml (Node)

/-- How each member of a record is read into it. -/
abbrev Layout (α : Type) := List (String × (Node → α → Option α))

/-- Reads values into the first members of a record. -/
def Layout.fill {α : Type} (layout : Layout α) (items : List Node) (record : α) : Option α :=
  (layout.zip items).foldlM (fun record (member, item) => member.2 item record) record

/-- Reads into a record: from a table, by the names of the members, or from a list, in their
order. A date leaves the record as it is. -/
def Layout.read {α : Type} (layout : Layout α) (node : Node) (record : α) : Option α :=
  match node with
  | .table _ members =>
    members.foldlM (fun record (key, value) =>
      match layout.lookup key with
      | none => some record
      | some set => set value record) record
  | .list items => layout.fill items record
  | .tables items => layout.fill (items.map (.table .header)) record
  | .moment => some record
  | _ => none

/-- A text. -/
def readText : Node → Option String
  | .text value => some value
  | _ => none

/-- A flag. -/
def readFlag : Node → Option Bool
  | .flag value => some value
  | _ => none

/-- A number below `bound` that is not negative. -/
def readNumber (bound : Nat) : Node → Option Nat
  | .integer (.ofNat n) => if n < bound then some n else none
  | _ => none

/-- A port. -/
def readPort (node : Node) : Option UInt16 := (readNumber 0x10000 node).map Nat.toUInt16

/-- A time. -/
def readTime (node : Node) : Option UInt64 := (readNumber 0x10000000000000000 node).map Nat.toUInt64

/-- The members of the server's settings. -/
def Server.layout : Layout Server :=
  [("address", fun v s => do return { s with address := ← readText v }),
    ("game_port", fun v s => do return { s with gamePort := ← readPort v }),
    ("notification_port", fun v s => do return { s with notificationPort := ← readPort v }),
    ("connect_timeout_secs", fun v s => do return { s with connectTimeout := ← readTime v }),
    ("read_timeout_ms", fun v s => do return { s with readTimeout := ← readTime v }),
    ("request_timeout_secs", fun v s => do return { s with requestTimeout := ← readTime v }),
    ("poll_interval_ms", fun v s => do return { s with pollInterval := ← readTime v }),
    ("subscribe_on_connect", fun v s => do return { s with subscribe := ← readFlag v })]

/-- The members of the player's settings. -/
def Player.layout : Layout Player :=
  [("username", fun v p => do return { p with username := some (← readText v) }),
    ("password", fun v p => do return { p with password := some (← readText v) })]

/-- The sections of a settings file. -/
def layout : Layout Settings :=
  [("server", fun v s => do return { s with server := ← Server.layout.read v {} }),
    ("player", fun v s => do return { s with player := ← Player.layout.read v {} })]

/-- The settings in the text of a file. -/
def ofText? (text : String) : Option Settings := do
  layout.read (.table .header (← Toml.read? text)) {}

/-- The settings in the bytes of the file at `path`. -/
def ofBytes (path : String) (bytes : ByteArray) : Except Error Settings :=
  match String.fromUTF8? bytes with
  | none => .error (.unreadable path "stream did not contain valid UTF-8")
  | some text =>
    match ofText? text with
    | none => .error (.unparsable path)
    | some settings => .ok settings

/-- The settings in the file at `path`. -/
def ofFile (host : Host) (path : String) : Except Error Settings :=
  match host.read path with
  | .error e => .error (.unreadable path e.message)
  | .ok bytes => ofBytes path bytes

/-- The directory of the settings file that is used unless another one is named. -/
def defaultDirectory (host : Host) : String := Host.within host.settingsDirectory "hangman"

/-- The settings file that is used unless another one is named. -/
def defaultPath (host : Host) : String := Host.within (defaultDirectory host) "config.toml"

/-- The settings in the file that is named, or in the one for all other cases, which may be
missing. -/
def load (host : Host) (path? : Option String) : Except Error Settings :=
  match path? with
  | some path => ofFile host path
  | none =>
    if host.hasEntry (defaultPath host) then ofFile host (defaultPath host) else .ok {}

end Gallows.Settings
