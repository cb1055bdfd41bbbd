import Gallows.Proofs.Except
import Gallows.Proofs.Toml.Documents
import Gallows.Settings.Reader
import Gallows.Settings.Writer

/-!
Settings that are written as a file. The file reads back as the same settings, and a file that may
be shown reads back as the settings that it shows.
-/
namespace Gallows

open Toml (Node Says Spells Bare entries)

variable {settings : Settings} {text key value : String} {node : Node}
  {said said' : List Toml.Statement}

theorem Toml.Says.append_text {s t : String} (h : Says s.toList said) (h' : Says t.toList said') :
    Says (s ++ t).toList (said ++ said') := by
  rw [String.toList_append]
  exact h.append h'

/-- A line with a value says so behind what has been said. -/
theorem Toml.Says.line {s : String} (h : Says s.toList said) (hk : Bare key.toList)
    (hv : Spells value.toList node) :
    Says (s ++ Settings.line key value).toList (said ++ [.inr ([], key, node)]) := by
  have hentry := Toml.says_entry hk hv
  rw [String.ofList_toList] at hentry
  exact h.append_text (by simpa [Settings.line] using hentry)

namespace Settings

/-- The values in the server's section. -/
def Server.members (s : Server) : Toml.Members :=
  [("address", .text s.address), ("game_port", .integer s.gamePort.toNat),
    ("notification_port", .integer s.notificationPort.toNat),
    ("connect_timeout_secs", .integer s.connectTimeout.toNat),
    ("read_timeout_ms", .integer s.readTimeout.toNat),
    ("request_timeout_secs", .integer s.requestTimeout.toNat),
    ("poll_interval_ms", .integer s.pollInterval.toNat),
    ("subscribe_on_connect", .flag s.subscribe)]

/-- The values in the player's section: those that are set. -/
def Player.members (p : Player) : Toml.Members :=
  (p.username.map fun v => ("username", .text v)).toList ++
    (p.password.map fun v => ("password", .text v)).toList

/-- The sections of a settings file. -/
def tables (settings : Settings) : Toml.Tables :=
  [("server", settings.server.members), ("player", settings.player.members)]

theorem writeTime_eq_ok {time : UInt64} (h : writeTime time = .ok text) :
    time.toNat < 0x8000000000000000 ∧ text = toString time.toNat := by
  rw [writeTime] at h
  split at h
  · rename_i hlt
    cases h
    exact ⟨hlt, rfl⟩
  · cases h

theorem spells_port (port : UInt16) : Spells (toString port.toNat).toList (.integer port.toNat) :=
  Toml.spells_toString (Nat.lt_trans port.toNat_lt (by decide))

theorem spells_writeTime {time : UInt64} (h : writeTime time = .ok text) :
    Spells text.toList (.integer time.toNat) := by
  obtain ⟨hlt, rfl⟩ := writeTime_eq_ok h
  exact Toml.spells_toString hlt

theorem spells_writeFlag (value : Bool) : Spells (writeFlag value).toList (.flag value) := by
  cases value with
  | false => exact Toml.spells_false
  | true => exact Toml.spells_true

/-- What is written of the server's settings says their values. -/
theorem Server.says_write {s : Server} (h : s.write = .ok text) :
    Says text.toList (.inl (.table [] "server") :: (entries s.members).map .inr) := by
  have hheader : Says "[server]\n".toList [.inl (.table [] "server")] := by
    simpa using Toml.says_header (show Bare "server".toList by decide)
  obtain ⟨connect, hconnect, h⟩ := bind_eq_ok h
  obtain ⟨read, hread, h⟩ := bind_eq_ok h
  obtain ⟨request, hrequest, h⟩ := bind_eq_ok h
  obtain ⟨poll, hpoll, h⟩ := bind_eq_ok h
  cases h
  exact hheader
    |>.line (by decide) (Toml.spells_quote s.address)
    |>.line (by decide) (spells_port s.gamePort)
    |>.line (by decide) (spells_port s.notificationPort)
    |>.line (by decide) (spells_writeTime hconnect)
    |>.line (by decide) (spells_writeTime hread)
    |>.line (by decide) (spells_writeTime hrequest)
    |>.line (by decide) (spells_writeTime hpoll)
    |>.line (by decide) (spells_writeFlag s.subscribe)

theorem Server.head?_write {s : Server} (h : s.write = .ok text) :
    text.toList.head? = some '[' := by
  obtain ⟨_, _, h⟩ := bind_eq_ok h
  obtain ⟨_, _, h⟩ := bind_eq_ok h
  obtain ⟨_, _, h⟩ := bind_eq_ok h
  obtain ⟨_, _, h⟩ := bind_eq_ok h
  cases h
  simp

/-- What is written of the player's settings says the values that are set. -/
theorem Player.says_write (p : Player) :
    Says p.write.toList (.inl (.table [] "player") :: (entries p.members).map .inr) := by
  have hheader : Says "[player]\n".toList [.inl (.table [] "player")] := by
    simpa using Toml.says_header (show Bare "player".toList by decide)
  have hoption {s key : String} {said : List Toml.Statement} (h : Says s.toList said)
      (hk : Bare key.toList) (value : Option String) :
      Says (s ++ (value.map fun v => line key (Toml.quote v)).getD "").toList
        (said ++ (entries (value.map fun v => (key, .text v)).toList).map .inr) := by
    cases value with
    | none => simpa [entries] using h
    | some v => exact h.line hk (Toml.spells_quote v)
  have hall := hoption (hoption hheader (show Bare "username".toList by decide) p.username)
    (show Bare "password".toList by decide) p.password
  simpa [write, members, entries] using hall

theorem Server.read_members (s : Server) :
    Server.layout.read (.table .header s.members) {} = some s := by
  have hport (port : UInt16) : readPort (.integer port.toNat) = some port := by
    have hnumber : readNumber 0x10000 (.integer port.toNat) = some port.toNat :=
      if_pos port.toNat_lt
    rw [readPort, hnumber, Option.map_some]
    simp
  have htime (time : UInt64) : readTime (.integer time.toNat) = some time := by
    have hnumber : readNumber 0x10000000000000000 (.integer time.toNat) = some time.toNat :=
      if_pos time.toNat_lt
    rw [readTime, hnumber, Option.map_some]
    simp
  simp [layout, Layout.read, members, List.lookup, readText, readFlag, hport, htime]

theorem Player.read_members (p : Player) :
    Player.layout.read (.table .header p.members) {} = some p := by
  obtain ⟨_ | username, _ | password⟩ := p <;> rfl

/-- No value is there twice. -/
theorem tables_nodup (settings : Settings) :
    ∀ t ∈ settings.tables, (t.2.map Prod.fst).Nodup := by
  simp only [tables, List.forall_mem_cons]
  refine ⟨?_, ?_, List.forall_mem_nil _⟩
  · simp [Server.members]
  · obtain ⟨_ | username, _ | password⟩ := settings.player <;> simp [Player.members]

theorem read_document (settings : Settings) :
    layout.read (.table .header settings.tables.document) {} = some settings := by
  have hserver := settings.server.read_members
  have hplayer := settings.player.read_members
  simp only [Layout.read] at hserver hplayer
  simp [layout, Layout.read, tables, Toml.Tables.document, List.lookup, hserver, hplayer]

/-- What is written of settings reads back as the same settings. -/
theorem ofText?_write (h : settings.write = .ok text) : ofText? text = some settings := by
  obtain ⟨server, hserver, h⟩ := bind_eq_ok h
  cases h
  have hsays : Says (server ++ "\n" ++ settings.player.write).toList
      settings.tables.statements := by
    have hempty : Says "\n".toList [] := Toml.says_empty
    have hall := ((Server.says_write hserver).append_text hempty).append_text
      settings.player.says_write
    simpa [Toml.Tables.statements, tables] using hall
  have hmark : Toml.dropMark (server ++ "\n" ++ settings.player.write).toList =
      (server ++ "\n" ++ settings.player.write).toList := by
    obtain ⟨cs, hcs⟩ := List.head?_eq_some_iff.mp (Server.head?_write hserver)
    simp [hcs, Toml.dropMark]
  have hnames : (settings.tables.map Prod.fst).Nodup := by simp [tables]
  rw [ofText?, Toml.read?_of_says hsays hmark hnames settings.tables_nodup]
  exact settings.read_document

/-- What has been masked stays as it is. -/
theorem masked_masked (settings : Settings) : settings.masked.masked = settings.masked := by
  have hmask : Secret.isReference mask = false := by decide
  have hpassword (p : String) :
      (if Secret.isReference (if Secret.isReference p then p else mask) then
        (if Secret.isReference p then p else mask) else mask) =
          if Secret.isReference p then p else mask := by
    cases hp : Secret.isReference p <;> simp [hp, hmask]
  simp [masked, Function.comp_def, hpassword]

theorem fromUTF8?_toUTF8 (text : String) : String.fromUTF8? text.toUTF8 = some text :=
  dif_pos text.isValidUTF8

/-- Settings that are shown read back as what is shown of them, from the text as well as from a file
that holds it. Shown again, they look the same. -/
theorem render_loads (h : settings.render = .ok text) :
    ∃ again, ofText? text = some again ∧
      (∀ host path, Host.read host path = .ok text.toUTF8 → load host (some path) = .ok again) ∧
      again.server = settings.server ∧ again.player.username = settings.player.username ∧
      again.player.password =
        settings.player.password.map (fun p => if Secret.isReference p then p else mask) ∧
      again.render = .ok text := by
  have hread := ofText?_write h
  refine ⟨settings.masked, hread, ?_, rfl, rfl, rfl, ?_⟩
  · intro host path hfile
    simp only [load, ofFile, hfile, ofBytes, fromUTF8?_toUTF8, hread]
  · rw [render, masked_masked]
    exact h

/-- An address with a line break, a name with a control character and quotes, and a password that
is not shown. -/
theorem render_loads_quotes :
    let settings : Settings :=
      { server := { address := "a\\b\x27s \"host\"\n", readTimeout := 0 }
        player := { username := "\x01\t\"\"\"", password := "open sesame" } }
    let text := "[server]\naddress = \x27\x27\x27\na\\b\x27s \"host\"\n\x27\x27\x27\n" ++
      "game_port = 8001\nnotification_port = 8002\nconnect_timeout_secs = 5\n" ++
      "read_timeout_ms = 0\nrequest_timeout_secs = 10\npoll_interval_ms = 100\n" ++
      "subscribe_on_connect = true\n\n[player]\n" ++
      "username = \"\\u0001\\t\\\"\\\"\\\"\"\npassword = \"********\"\n"
    settings.render = .ok text ∧
      ∃ again, ofText? text = some again ∧ again.server = settings.server ∧
        again.player.username = some "\x01\t\"\"\"" ∧ again.player.password = some "********" ∧
        again.render = .ok text := by
  intro settings text
  have hrender : settings.render = .ok text := toOption_eq_some.mp (by decide +kernel)
  obtain ⟨again, hagain, -, hserver, hname, hpassword, hshown⟩ := render_loads hrender
  exact ⟨hrender, again, hagain, hserver, hname, hpassword, hshown⟩

end Settings
end Gallows
