import Gallows.CommandLine.Reader
import Gallows.Logging
import Gallows.Settings.Basic

/-!
The command line of the program: what it asks for, and which settings it overrides.
-/
namespace Gallows

/-- What to do with the settings. -/
inductive SettingsAction
  | dump
  | validate
  | path
deriving DecidableEq, Repr

/-- What the program is to do. -/
inductive Task
  | createRoom (room category difficulty : String)
  | joinRoom (room : String)
  | startGame (room : String)
  | leaveRoom (room : String)
  | deleteRoom (room : String)
  | guess (room : String) (letter : Char)
  | gameState (room : String)
  | roomState (room : String)
  | rooms
  | leaderboard
  | updateRoom (room : String) (category difficulty newPassword : Option String)
  | checkUsername (username : String)
  | watch
  | settings (action : SettingsAction)
deriving DecidableEq, Repr

/-- What a command line asks for. -/
structure Invocation where
  /-- The settings file. -/
  config : Option String := none
  debug : Bool := false
  logFormat : Logging.Format := .compact
  address : Option String := none
  gamePort : Option UInt16 := none
  notificationPort : Option UInt16 := none
  timeout : Option UInt64 := none
  noSubscribe : Bool := false
  username : Option String := none
  password : Option String := none
  task : Option Task := none
deriving DecidableEq, Repr

namespace Invocation
open CommandLine

/-- The options that every command takes. -/
def flags : List Flag :=
  [{ name := "config", short? := some 'c', long? := some "config", effect := .value .path,
     stand? := some "HANGMAN_CONFIG", isGlobal := true, about := "Path to configuration file" },
    { name := "debug", short? := some 'v', long? := some "debug", effect := .switch,
      default? := some (.flag false), isGlobal := true, about := "Enable debug output" },
    { name := "log_format", long? := some "log-format",
      effect := .value (.choice (Logging.Format.all.map Logging.Format.name)),
      default? := some (.text Logging.Format.compact.name), isGlobal := true,
      about := "Log line format (logs go to stderr)" },
    { name := "address", long? := some "address", effect := .value .text,
      stand? := some "HANGMAN_ADDRESS", isGlobal := true, about := "Game server host" },
    { name := "game_port", long? := some "game-port", effect := .value (.number 0x10000),
      stand? := some "HANGMAN_GAME_PORT", isGlobal := true, about := "Port of the game channel" },
    { name := "notification_port", long? := some "notification-port",
      effect := .value (.number 0x10000), stand? := some "HANGMAN_NOTIFICATION_PORT",
      isGlobal := true, about := "Port of the notification channel" },
    { name := "timeout", long? := some "timeout", effect := .value (.number 0x10000000000000000),
      isGlobal := true, about := "Connection timeout in seconds" },
    { name := "no_subscribe", long? := some "no-subscribe", effect := .switch,
      default? := some (.flag false), isGlobal := true,
      about := "Do not send the SUBSCRIBE handshake on the notification channel" },
    { name := "username", short? := some 'u', long? := some "username", effect := .value .text,
      stand? := some "HANGMAN_USERNAME", isGlobal := true, about := "Player username" },
    { name := "password", short? := some 'p', long? := some "password", effect := .value .text,
      stand? := some "HANGMAN_PASSWORD", isGlobal := true,
      about := "Room password (supports `env::VAR` and `pass::path`)" },
    { name := "version", short? := some 'V', long? := some "version", effect := .version,
      about := "Print version" }]

/-- The argument that names a room. -/
def roomArgument : Argument := ⟨"room_id", .text⟩

/-- A command about a room. -/
def roomVerb (name about : String) : Verb := { name, about, arguments := [roomArgument] }

/-- The commands. -/
def verbs : List Verb :=
  [{ name := "create-room", about := "Create a room and become its owner",
     arguments := [roomArgument],
     flags :=
      [{ name := "category", long? := some "category", effect := .value .text,
         default? := some (.text "animals") },
        { name := "difficulty", long? := some "difficulty", effect := .value .text,
          default? := some (.text "easy") }] },
    roomVerb "join-room" "Join a room",
    roomVerb "start-game" "Start the game in a room you own",
    roomVerb "leave-room" "Leave a room",
    roomVerb "delete-room" "Delete a room you own",
    { name := "guess", about := "Guess one letter",
      arguments := [roomArgument, ⟨"letter", .character⟩] },
    roomVerb "game-state" "Show every player's progress in a room's game",
    roomVerb "room-state" "Show a room's owner, state and players",
    { name := "rooms", about := "List rooms" },
    { name := "leaderboard", about := "Show the leaderboard" },
    { name := "update-room", about := "Change room settings", arguments := [roomArgument],
      flags :=
       [{ name := "category", long? := some "category", effect := .value .text },
        { name := "difficulty", long? := some "difficulty", effect := .value .text },
        { name := "new_password", long? := some "new-password", effect := .value .text }] },
    { name := "check-username", about := "Check whether a username is free",
      arguments := [⟨"username", .text⟩] },
    { name := "watch", about := "Print server events as JSON lines until interrupted" },
    { name := "config", about := "Configuration commands", needsVerb := true,
      verbs :=
       [{ name := "dump", about := "Dump current configuration" },
        { name := "validate", about := "Validate configuration" },
        { name := "path", about := "Show configuration file path" }] }]

/-- The name of the program. -/
def programName : String := "hangman"

/-- The program. -/
def program : Verb where
  name := programName
  about := "hangman - play networked hangman from the terminal"
  flags := flags
  verbs := verbs

/-- The name and the number of the program. -/
def version : String := programName ++ " 0.1.0"

/-- A text among settings. -/
def text? (settings : CommandLine.Settings) (name : String) : Option String :=
  match settings.lookup name with
  | some ⟨_, .text value⟩ => some value
  | _ => none

/-- A number among settings. -/
def number? (settings : CommandLine.Settings) (name : String) : Option Nat :=
  match settings.lookup name with
  | some ⟨_, .number value⟩ => some value
  | _ => none

/-- A switch among settings. -/
def flag (settings : CommandLine.Settings) (name : String) : Bool :=
  match settings.lookup name with
  | some ⟨_, .flag value⟩ => value
  | _ => false

/-- The task that commands and what the lowest of them has read ask for. -/
def task? (verbs : List String) (own : CommandLine.Settings) : Option Task := do
  match verbs with
  | ["rooms"] => some .rooms
  | ["leaderboard"] => some .leaderboard
  | ["watch"] => some .watch
  | ["config", "dump"] => some (.settings .dump)
  | ["config", "validate"] => some (.settings .validate)
  | ["config", "path"] => some (.settings .path)
  | ["check-username"] => return .checkUsername (← text? own "username")
  | [verb] =>
    let room ← text? own "room_id"
    match verb with
    | "create-room" =>
      return .createRoom room (← text? own "category") (← text? own "difficulty")
    | "join-room" => some (.joinRoom room)
    | "start-game" => some (.startGame room)
    | "leave-room" => some (.leaveRoom room)
    | "delete-room" => some (.deleteRoom room)
    | "guess" =>
      match own.lookup "letter" with
      | some ⟨_, .character letter⟩ => some (.guess room letter)
      | _ => none
    | "game-state" => some (.gameState room)
    | "room-state" => some (.roomState room)
    | "update-room" =>
      return .updateRoom room (text? own "category") (text? own "difficulty")
        (text? own "new_password")
    | _ => none
  | _ => none

/-- What was read from a command line. -/
def ofMatches (m : Matches) : Invocation where
  config := text? m.globals "config"
  debug := flag m.globals "debug"
  logFormat :=
    ((text? m.globals "log_format").bind fun name =>
      Logging.Format.all.find? (·.name = name)).getD .compact
  address := text? m.globals "address"
  gamePort := (number? m.globals "game_port").map Nat.toUInt16
  notificationPort := (number? m.globals "notification_port").map Nat.toUInt16
  timeout := (number? m.globals "timeout").map Nat.toUInt64
  noSubscribe := flag m.globals "no_subscribe"
  username := text? m.globals "username"
  password := text? m.globals "password"
  task := task? m.verbs m.own

/-- What the words behind the program's name ask for. -/
def read (host : Host) (words : List String) : Except Usage Invocation :=
  (CommandLine.read host program words).map ofMatches

/-- The settings with those that the command line overrides. -/
def apply (i : Invocation) (s : Settings) : Settings where
  server :=
    { s.server with
      address := i.address.getD s.server.address
      gamePort := i.gamePort.getD s.server.gamePort
      notificationPort := i.notificationPort.getD s.server.notificationPort
      connectTimeout := i.timeout.getD s.server.connectTimeout
      subscribe := s.server.subscribe && !i.noSubscribe }
  player :=
    { username := i.username <|> s.player.username
      password := i.password <|> s.player.password }

/-- How a run of the program logs. -/
def logging (i : Invocation) : Logging :=
  { if i.debug then Logging.verbose else Logging.quiet with format := i.logFormat }

end Invocation
end Gallows
